import AdaptiveRouting.Text.Utf8

/-!
# UTF-8 read back

Whatever text is written is read back as it was (`Utf8.decode_encode`). A character is written in
one to four bytes; for each of these lengths there is a lemma that says what reading makes of such a
sequence of bytes (`decodeFrom_one` to `decodeFrom_four`), and the bytes that a character is written
in meet its conditions (`decodeFrom_encodeChar`). Surrogates are no characters, and this is why the
second byte of a sequence is always one that the first byte admits.
-/

namespace AdaptiveRouting.Utf8

section
variable {index : Nat} {a b c d : UInt8} {rest : List UInt8}

/-- A plain byte is a character of its own. -/
theorem decodeFrom_one (ha : a.toNat < 0x80) :
    decodeFrom index (a :: rest) =
      (decodeFrom (index + 1) rest).map (Char.ofNat a.toNat :: ·) := by
  rw [decodeFrom.eq_def]
  dsimp only
  rw [if_pos ha]
  cases decodeFrom (index + 1) rest <;> rfl

/-- A character of two bytes. -/
theorem decodeFrom_two (ha : 0xC2 ≤ a.toNat ∧ a.toNat ≤ 0xDF) (hb : isTail b = true) :
    decodeFrom index (a :: b :: rest) = (decodeFrom (index + 2) rest).map
      (Char.ofNat ((a.toNat - 0xC0) * 0x40 + tailBits b) :: ·) := by
  rw [decodeFrom.eq_def]
  dsimp only
  rw [if_neg (by omega), if_pos ha, if_pos hb]
  cases decodeFrom (index + 2) rest <;> rfl

/-- A character of three bytes, of which the second is restricted by the first. -/
theorem decodeFrom_three (ha : 0xE0 ≤ a.toNat ∧ a.toNat ≤ 0xEF) (hb : isSecond a b = true)
    (hc : isTail c = true) :
    decodeFrom index (a :: b :: c :: rest) = (decodeFrom (index + 3) rest).map
      (Char.ofNat ((a.toNat - 0xE0) * 0x1000 + tailBits b * 0x40 + tailBits c) :: ·) := by
  rw [decodeFrom.eq_def]
  dsimp only
  rw [if_neg (by omega), if_neg (by omega), if_pos ha, if_neg (by simp [hb]),
    if_neg (by simp [hc])]
  cases decodeFrom (index + 3) rest <;> rfl

/-- A character of four bytes, of which the second is restricted by the first. -/
theorem decodeFrom_four (ha : 0xF0 ≤ a.toNat ∧ a.toNat ≤ 0xF4) (hb : isSecond a b = true)
    (hc : isTail c = true) (hd : isTail d = true) :
    decodeFrom index (a :: b :: c :: d :: rest) = (decodeFrom (index + 4) rest).map
      (Char.ofNat ((a.toNat - 0xF0) * 0x40000 + tailBits b * 0x1000 + tailBits c * 0x40
        + tailBits d) :: ·) := by
  rw [decodeFrom.eq_def]
  dsimp only
  rw [if_neg (by omega), if_neg (by omega), if_neg (by omega), if_pos ha, if_neg (by simp [hb]),
    if_neg (by simp [hc]), if_neg (by simp [hd])]
  cases decodeFrom (index + 4) rest <;> rfl

end

/-! ## The bytes of a character -/

/-- A number that fits a byte is that of the byte. -/
theorem toNat_byte {n : Nat} (h : n < 256) : (byte n).toNat = n := by
  rw [byte, UInt8.toNat_ofNat', Nat.mod_eq_of_lt h]

/-- Every byte but the first carries six bits. -/
theorem isTail_byte {n : Nat} (h : n < 0x40) : isTail (byte (0x80 + n)) = true := by
  have hn : (byte (0x80 + n)).toNat = 0x80 + n := toNat_byte (by omega)
  unfold isTail
  rw [hn, Bool.and_eq_true, decide_eq_true_iff, decide_eq_true_iff]
  omega

/-- A tail byte carries six bits. -/
theorem tailBits_byte {n : Nat} (h : n < 0x40) : tailBits (byte (0x80 + n)) = n := by
  have hn : (byte (0x80 + n)).toNat = 0x80 + n := toNat_byte (by omega)
  unfold tailBits
  omega

/-- A second byte is admitted when the writing is not longer than it needs to be, and its code point
neither a surrogate nor too large. -/
theorem isSecond_byte {l n : Nat} (hl : l < 256) (hn : n < 0x40) (h : (l = 0xE0 → 0x20 ≤ n) ∧
    (l = 0xF0 → 0x10 ≤ n) ∧ (l = 0xED → n < 0x20) ∧ (l = 0xF4 → n < 0x10)) :
    isSecond (byte l) (byte (0x80 + n)) = true := by
  have hsecond : (byte (0x80 + n)).toNat = 0x80 + n := toNat_byte (by omega)
  unfold isSecond
  dsimp only
  rw [hsecond, toNat_byte hl, Bool.and_eq_true, decide_eq_true_iff, decide_eq_true_iff]
  constructor
  · split
    · omega
    · split <;> omega
  · split
    · omega
    · split <;> omega

/-- The bytes of a character are read as that character. -/
theorem decodeFrom_encodeChar (index : Nat) (c : Char) (bytes : List UInt8) :
    decodeFrom index (encodeChar c ++ bytes) =
      (decodeFrom (index + (encodeChar c).length) bytes).map (c :: ·) := by
  have hof := Char.ofNat_toNat c
  have hvalid : c.toNat < 0xD800 ∨ 0xDFFF < c.toNat ∧ c.toNat < 0x110000 := c.valid
  unfold encodeChar
  -- all that matters from here on is the size of the code point
  generalize c.toNat = n at hof hvalid
  dsimp only
  split
  · next h =>
    have ha : (byte n).toNat = n := toNat_byte (by omega)
    rw [List.singleton_append, decodeFrom_one (by omega), ha, hof]
    rfl
  split
  · next h =>
    have ha : (byte (0xC0 + n / 0x40)).toNat = 0xC0 + n / 0x40 := toNat_byte (by omega)
    have hn : (0xC0 + n / 0x40 - 0xC0) * 0x40 + n % 0x40 = n := by omega
    rw [List.cons_append, List.singleton_append, decodeFrom_two (by omega)
      (isTail_byte (by omega)), ha, tailBits_byte (by omega), hn, hof]
    rfl
  split
  · next h =>
    have ha : (byte (0xE0 + n / 0x1000)).toNat = 0xE0 + n / 0x1000 := toNat_byte (by omega)
    have hn : (0xE0 + n / 0x1000 - 0xE0) * 0x1000 + n / 0x40 % 0x40 * 0x40 + n % 0x40 = n := by
      omega
    rw [List.cons_append, List.cons_append, List.singleton_append, decodeFrom_three (by omega)
      (isSecond_byte (by omega) (by omega) (by omega)) (isTail_byte (by omega)), ha,
      tailBits_byte (by omega), tailBits_byte (by omega), hn, hof]
    rfl
  · next h =>
    have ha : (byte (0xF0 + n / 0x40000)).toNat = 0xF0 + n / 0x40000 := toNat_byte (by omega)
    have hn : (0xF0 + n / 0x40000 - 0xF0) * 0x40000 + n / 0x1000 % 0x40 * 0x1000
        + n / 0x40 % 0x40 * 0x40 + n % 0x40 = n := by omega
    rw [List.cons_append, List.cons_append, List.cons_append, List.singleton_append,
      decodeFrom_four (by omega) (isSecond_byte (by omega) (by omega) (by omega))
      (isTail_byte (by omega)) (isTail_byte (by omega)), ha, tailBits_byte (by omega),
      tailBits_byte (by omega), tailBits_byte (by omega), hn, hof]
    rfl

/-- What is encoded is decoded, whatever the index that faults would name. -/
theorem decodeFrom_encode (index : Nat) (cs : List Char) :
    decodeFrom index (encode cs) = .ok cs := by
  induction cs generalizing index with
  | nil => exact decodeFrom.eq_1 index
  | cons c cs ih =>
    have hrest := ih (index + (encodeChar c).length)
    rw [encode, List.flatMap_cons, decodeFrom_encodeChar, ← encode, hrest]
    rfl

/-- What is written is read back. -/
theorem decode_encode (cs : List Char) : decode (encode cs) = .ok cs := decodeFrom_encode 0 cs

end AdaptiveRouting.Utf8
