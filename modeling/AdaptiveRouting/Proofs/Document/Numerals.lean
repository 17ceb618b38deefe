import AdaptiveRouting.Document.Numeral
import AdaptiveRouting.Proofs.Time.DurationRoundTrip

/-!
# Numerals read back

Integers (`Numeral.read?_toDigits`) and decimal fractions (`Numeral.read?_decimal`) are read back
from their digits; which floating-point number a fraction stands for is left open here. The reader
takes the longest run of digits, and such a run ends in front of a character that is no digit
(`span_append`).
-/

namespace AdaptiveRouting

/-- A run of characters ends in front of one that does not belong to it. -/
theorem span_append {p : Char → Bool} {run rest : List Char} (hrun : ∀ c ∈ run, p c = true)
    (hrest : ∀ c ∈ rest.head?, p c = false) :
    (run ++ rest).takeWhile p = run ∧ (run ++ rest).dropWhile p = rest := by
  rw [List.takeWhile_append_of_pos hrun, List.dropWhile_append_of_pos hrun]
  cases rest with
  | nil => simp
  | cons c rest => simp [hrest c rfl]

namespace Numeral

/-- Digits without separators between them are left as they are. -/
theorem ungroup?_digits {cs : List Char} (hne : cs ≠ []) (h : ∀ c ∈ cs, c.isDigit = true) :
    ungroup? Char.isDigit cs = some cs := by
  induction cs with
  | nil => exact absurd rfl hne
  | cons c cs ih =>
    have hc := h c List.mem_cons_self
    cases cs with
    | nil => simp [ungroup?, hc]
    | cons d cs =>
      have hd : d ≠ '_' := by
        rintro rfl
        exact absurd (h '_' (by simp)) (by decide)
      have hrest := ih (by simp) fun x hx => h x (List.mem_cons_of_mem c hx)
      rw [ungroup?] <;> simp_all

/-- A count is written in digits only. -/
theorem isDigit_of_mem_toDigits {n : Nat} {c : Char} (h : c ∈ Nat.toDigits 10 n) :
    c.isDigit = true :=
  Nat.isDigit_of_mem_toDigits (by decide) (by decide) h

/-- Only zero begins with a zero. -/
theorem head?_toDigits {n : Nat} (hn : 0 < n) : (Nat.toDigits 10 n).head? ≠ some '0' := by
  induction n using Nat.strongRecOn with
  | ind n ih =>
    by_cases hsmall : n < 10
    · rw [Nat.toDigits_of_lt_base hsmall]
      have hall : ∀ n < 10, 0 < n → [n.digitChar].head? ≠ some '0' := by decide
      exact hall n hsmall hn
    · have hlead := ih (n / 10) (by omega) (by omega)
      rw [Nat.toDigits_of_base_le (by decide) (by omega)]
      cases hdigits : Nat.toDigits 10 (n / 10) with
      | nil => exact absurd hdigits Nat.toDigits_ne_nil
      | cons c cs => simpa [hdigits] using hlead

/-- The digits of a count are accepted as they stand, since no zero leads them. -/
theorem decimalDigits?_toDigits (n : Nat) :
    decimalDigits? (Nat.toDigits 10 n) = some (Nat.toDigits 10 n) := by
  have hungroup : ungroup? Char.isDigit (Nat.toDigits 10 n) = some (Nat.toDigits 10 n) :=
    ungroup?_digits Nat.toDigits_ne_nil fun _ => isDigit_of_mem_toDigits
  have hzeros : ¬ ((Nat.toDigits 10 n).head? = some '0' ∧ (Nat.toDigits 10 n).length ≠ 1) := by
    rintro ⟨hhead, hlength⟩
    obtain rfl : n = 0 := by
      refine Nat.eq_zero_of_not_pos fun hn => head?_toDigits hn hhead
    exact hlength rfl
  simp [decimalDigits?, hungroup, hzeros]

/-- What consists of digits and points has no sign and no marker of a base. -/
theorem read?_of_digits {cs : List Char} (h : ∀ c ∈ cs, c.isDigit = true ∨ c = '.') :
    read? cs = readUnsigned? false cs := by
  have hnot : ∀ c : Char, ¬ (c.isDigit = true ∨ c = '.') → ∀ as bs, cs ≠ as ++ c :: bs := by
    rintro c hc as bs rfl
    exact hc (h c (by simp))
  rw [read?]
  · exact hnot 'x' (by decide) ['0']
  · exact hnot 'o' (by decide) ['0']
  · exact hnot 'b' (by decide) ['0']
  · exact hnot '+' (by decide) []
  · exact hnot '-' (by decide) []

/-- A number that begins with a digit is no name. -/
theorem readUnsigned?_toDigits (negative : Bool) (n : Nat) (rest : List Char) :
    readUnsigned? negative (Nat.toDigits 10 n ++ rest) =
      readDecimal? negative (Nat.toDigits 10 n ++ rest) := by
  obtain ⟨c, cs, hcs⟩ := List.exists_cons_of_ne_nil (Nat.toDigits_ne_nil (n := n) (b := 10))
  have hc : c.isDigit = true := isDigit_of_mem_toDigits (hcs ▸ List.mem_cons_self)
  have hi : c ≠ 'i' := by rintro rfl; exact absurd hc (by decide)
  have hn : c ≠ 'n' := by rintro rfl; exact absurd hc (by decide)
  simp [readUnsigned?, hcs, hi, hn]

/-- A digit is one of the characters that a numeral may have. -/
theorem isDigitOrGroup_of_isDigit {c : Char} (h : c.isDigit = true) : isDigitOrGroup c = true := by
  rw [isDigitOrGroup, h, Bool.true_or]

/-- A decimal fraction with its sign. -/
theorem read?_decimal (negative : Bool) (whole : Nat) {behind : List Char} (hne : behind ≠ [])
    (hdigits : ∀ c ∈ behind, c.isDigit = true) :
    read? ((if negative then "-" else "").toList ++ (Nat.toDigits 10 whole ++ '.' :: behind)) =
      finite? negative (ofDigits (Nat.toDigits 10 whole ++ behind)) (-behind.length) := by
  have hgroup : ∀ {cs : List Char}, (∀ c ∈ cs, c.isDigit = true) →
      ∀ c ∈ cs, isDigitOrGroup c = true := fun h c hc => isDigitOrGroup_of_isDigit (h c hc)
  have hpoint : ∀ c ∈ ('.' :: behind).head?, isDigitOrGroup c = false := by
    simp
    decide
  have hwhole := span_append (hgroup fun c (hc : c ∈ Nat.toDigits 10 whole) =>
    isDigit_of_mem_toDigits hc) hpoint
  have hbehind := span_append (hgroup hdigits)
    (by simp : ∀ c ∈ ([] : List Char).head?, isDigitOrGroup c = false)
  rw [List.append_nil] at hbehind
  have hdecimal : readDecimal? negative (Nat.toDigits 10 whole ++ '.' :: behind) =
      finite? negative (ofDigits (Nat.toDigits 10 whole ++ behind)) (-behind.length) := by
    simp [readDecimal?, hwhole, hbehind, decimalDigits?_toDigits, fraction?,
      ungroup?_digits hne hdigits]
  rw [← hdecimal, ← readUnsigned?_toDigits]
  cases negative with
  | false =>
    change read? (Nat.toDigits 10 whole ++ '.' :: behind) = _
    refine read?_of_digits fun c hc => ?_
    rcases List.mem_append.1 hc with hc | hc
    · exact .inl (isDigit_of_mem_toDigits hc)
    · exact (List.mem_cons.1 hc).elim .inr fun hc => .inl (hdigits c hc)
  | true => rfl

/-- An integer of 63 bits is read back from its digits. -/
theorem read?_toDigits {n : Nat} (hn : n ≤ 9223372036854775807) :
    read? (Nat.toDigits 10 n) = some (.integer n) := by
  have hgroup : ∀ c ∈ Nat.toDigits 10 n, isDigitOrGroup c = true := fun c hc =>
    isDigitOrGroup_of_isDigit (isDigit_of_mem_toDigits hc)
  have hspan := span_append hgroup
    (by simp : ∀ c ∈ ([] : List Char).head?, isDigitOrGroup c = false)
  rw [List.append_nil] at hspan
  have hbounded : bounded? (n : Int) = some (.integer n) := if_pos (by omega)
  have hread := readUnsigned?_toDigits false n []
  rw [List.append_nil] at hread
  rw [read?_of_digits fun c hc => .inl (isDigit_of_mem_toDigits hc), hread]
  simp [readDecimal?, hspan, decimalDigits?_toDigits, ofDigits_toDigits, hbounded]

end AdaptiveRouting.Numeral
