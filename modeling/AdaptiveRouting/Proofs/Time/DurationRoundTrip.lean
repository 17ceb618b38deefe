import AdaptiveRouting.Time.DurationText

/-!
# Durations read back

A duration that fits into 64 bits of seconds is read back from its text as it was, to the nanosecond
(`Duration.parse?_text`). Writing takes a duration apart, from years down to nanoseconds, and reading
adds up what it finds; between the two stands `Spells`, which says of a list of amounts what they add
up to. What is written spells the duration (`spells_amounts`), and reading what spells a duration
gives that duration (`Spells.parseAmounts?`), an amount at a time (`parseAmounts?_amount`). A unit
ends at the blank before the next amount, so that no amount runs into the one behind it.
-/

namespace AdaptiveRouting

/-- A number is read back from its digits. -/
theorem ofDigits_toDigits (n : Nat) : ofDigits (Nat.toDigits 10 n) = n :=
  Nat.ofDigitChars_toDigits (by decide) (by decide)

/-! ## Characters -/

/-- A character is no blank if it lies outside the ranges of blanks. -/
theorem isBlank_eq_false_iff {c : Char} :
    isBlank c = false ↔ ∀ r ∈ blankRanges, c.toNat < r.1 ∨ r.2 < c.toNat := by
  rw [isBlank, List.any_eq_false]
  refine forall_congr' fun r => forall_congr' fun _ => ?_
  rw [Bool.and_eq_true, decide_eq_true_iff, decide_eq_true_iff]
  omega

/-- A digit is no blank. -/
theorem isBlank_of_isDigit {c : Char} (h : c.isDigit = true) : isBlank c = false := by
  have hc : 48 ≤ c.toNat ∧ c.toNat ≤ 57 := Char.isDigit_iff_toNat.1 h
  have hranges : ∀ r ∈ blankRanges, r.2 < 48 ∨ 57 < r.1 := by decide
  refine isBlank_eq_false_iff.2 fun r hr => ?_
  have := hranges r hr
  omega

/-- Items with a separator in front of each begin with one; for the rest it stands between them. -/
theorem flatMap_cons_eq_intercalate (sep : Char) {items : List String} (h : items ≠ []) :
    (items.flatMap fun item => sep :: item.toList) =
      sep :: [sep].intercalate (items.map String.toList) := by
  induction items with
  | nil => exact absurd rfl h
  | cons item items ih =>
    cases items with
    | nil => simp
    | cons next items =>
      rw [List.flatMap_cons, ih (List.cons_ne_nil next items)]
      simp

/-- How long a unit is. -/
def TimeUnit.length (u : TimeUnit) : Duration := u.seconds * 1000000000 + u.nanos

namespace Duration

/-- A letter lies between `A` and `z`. -/
theorem toNat_of_isAlpha {c : Char} (h : c.isAlpha = true) : 65 ≤ c.toNat ∧ c.toNat ≤ 122 := by
  have hc : (decide ('A'.val ≤ c.val ∧ c.val ≤ 'Z'.val) ||
    (decide ('a'.val ≤ c.val) && decide (c.val ≤ 'z'.val))) = true := h
  simp only [UInt32.le_iff_toNat_le, Bool.or_eq_true, Bool.and_eq_true, decide_eq_true_iff] at hc
  rcases hc with ⟨hlow, hhigh⟩ | ⟨hlow, hhigh⟩
  · exact ⟨hlow, Nat.le_trans hhigh (by decide)⟩
  · exact ⟨Nat.le_trans (by decide) hlow, hhigh⟩

/-- The characters of units are letters, and the sign for micro. -/
theorem toNat_of_isUnitChar {c : Char} (h : isUnitChar c = true) :
    65 ≤ c.toNat ∧ c.toNat ≤ 122 ∨ c.toNat = 181 := by
  rw [isUnitChar, Bool.or_eq_true, decide_eq_true_iff] at h
  rcases h with h | rfl
  · exact .inl (toNat_of_isAlpha h)
  · exact .inr rfl

/-- What may stand in a unit is no part of a number. -/
theorem isNumberChar_of_isUnitChar {c : Char} (h : isUnitChar c = true) :
    isNumberChar c = false ∧ isBlank c = false := by
  have hc := toNat_of_isUnitChar h
  have hranges : ∀ r ∈ blankRanges, r.2 < 65 ∨ 122 < r.1 ∧ r.2 < 181 ∨ 181 < r.1 := by decide
  have hblank : isBlank c = false := isBlank_eq_false_iff.2 fun r hr => by
    have := hranges r hr
    omega
  have hdigit : c.isDigit = false := Bool.eq_false_iff.2 fun hd => by
    have hd' : 48 ≤ c.toNat ∧ c.toNat ≤ 57 := Char.isDigit_iff_toNat.1 hd
    omega
  exact ⟨by rw [isNumberChar, hdigit, hblank]; rfl, hblank⟩

/-! ## One amount -/

/-- A word that can stand behind a number and is read to its end. -/
def IsUnitWord (unit : String) : Prop :=
  unit.toList ≠ [] ∧ unit.toList.all isUnitChar = true

instance (unit : String) : Decidable (IsUnitWord unit) := inferInstanceAs (Decidable (_ ∧ _))

/-- A text into which no unit before it runs on. -/
def EndsUnit (cs : List Char) : Prop := ∀ c ∈ cs.head?, isUnitChar c = false

/-- A unit is read up to where it ends. -/
theorem takeWhile_append_endsUnit {unit rest : List Char}
    (hunit : ∀ c ∈ unit, isUnitChar c = true) (hrest : EndsUnit rest) :
    (unit ++ rest).takeWhile isUnitChar = unit ∧ (unit ++ rest).dropWhile isUnitChar = rest := by
  rw [List.takeWhile_append_of_pos hunit, List.dropWhile_append_of_pos hunit]
  cases rest with
  | nil => exact ⟨List.append_nil unit, rfl⟩
  | cons c rest => simp [hrest c rfl]

/-- An amount is split off where its unit ends. -/
theorem takeAmount_append {digits : List Char} {unit : String} {rest : List Char}
    (hdigits : ∀ c ∈ digits, c.isDigit = true) (hunit : IsUnitWord unit) (hrest : EndsUnit rest) :
    takeAmount (digits ++ (unit.toList ++ rest)) = (⟨digits, none, unit⟩, rest) := by
  obtain ⟨hne, hall⟩ := hunit
  have hchars := List.all_eq_true.1 hall
  have hnumber : ∀ c ∈ digits, isNumberChar c = true := fun c hc => by
    rw [isNumberChar, hdigits c hc, Bool.true_or]
  obtain ⟨htake, hdrop⟩ := takeWhile_append_endsUnit hchars hrest
  obtain ⟨c, cs, hcs⟩ := List.exists_cons_of_ne_nil hne
  have hc : isUnitChar c = true := hchars c (hcs ▸ List.mem_cons_self ..)
  have hnot : isNumberChar c = false := (isNumberChar_of_isUnitChar hc).1
  have hpoint : c ≠ '.' := by
    rintro rfl
    cases hc
  rw [hcs, List.cons_append] at htake hdrop
  rw [takeAmount, List.takeWhile_append_of_pos hnumber, List.dropWhile_append_of_pos hnumber, hcs,
    List.cons_append, List.takeWhile_cons_of_neg (by simp [hnot]),
    List.dropWhile_cons_of_neg (by simp [hnot]), List.append_nil, List.filter_eq_self.2 hdigits]
  split
  next fraction rest' heq =>
  split at heq
  · next hdot =>
    exact absurd (List.cons.inj hdot).1 hpoint
  · cases heq
    rw [htake, hdrop, ← hcs, String.ofList_toList]

/-! ## Adding up -/

/-- One amount after another: each is a number and a unit, and an amount of a unit shorter than a
second is shorter than a second. The duration is what they add up to. -/
inductive Spells : List String → Duration → Prop where
  | nil : Spells [] 0
  | cons {items : List String} {d : Duration} {unit : String} {u : TimeUnit} (n : Nat) :
      IsUnitWord unit → TimeUnit.find? unit = some u → n * u.nanos < 1000000000 → Spells items d →
      Spells ((toString n ++ unit) :: items) (n * u.length + d)

/-- Amounts after amounts spell the sum. -/
theorem Spells.append {items later : List String} {d e : Duration} (h : Spells items d)
    (hlater : Spells later e) : Spells (items ++ later) (d + e) := by
  induction h with
  | nil => rwa [List.nil_append, Nat.zero_add]
  | cons n hword hunit hn _ ih =>
    rw [List.cons_append, Nat.add_assoc]
    exact ih.cons n hword hunit hn

/-- A unit that is shorter than a second is at least a nanosecond long. -/
theorem timeUnits_pos : ∀ u ∈ timeUnits, 0 < u.seconds ∨ 0 < u.nanos := by decide

/-- An amount is added without fail where the sum fits. -/
theorem addUnits?_eq {d : Duration} {unit : String} {u : TimeUnit} {n : Nat}
    (hunit : TimeUnit.find? unit = some u) (hn : n * u.nanos < 1000000000)
    (hd : (d + n * u.length).seconds < wordBound) :
    d.addUnits? u n = some (d + n * u.length) := by
  have hlength : n * u.length = n * u.seconds * 1000000000 + n * u.nanos := by
    rw [TimeUnit.length, Nat.mul_add, Nat.mul_assoc]
  have hsum : d + n * u.seconds * 1000000000 + n * u.nanos = d + n * u.length := by
    rw [hlength, Nat.add_assoc]
  -- the number itself is read first, and has to fit as well
  have hnumber : n ≤ n * u.seconds ∨ n ≤ n * u.nanos :=
    (timeUnits_pos u (List.mem_of_find?_eq_some hunit)).imp (Nat.le_mul_of_pos_right n)
      (Nat.le_mul_of_pos_right n)
  unfold addUnits? add?
  dsimp only
  rw [hsum]
  unfold seconds wordBound at *
  unfold subsecNanos
  rw [if_pos (by omega), if_pos (by omega)]

/-! ## Reading what is spelled -/

/-- A blank before an amount is skipped. -/
theorem parseAmounts?_blank (d : Duration) (cs : List Char) (fuel : Nat) :
    parseAmounts? d (' ' :: cs) fuel = parseAmounts? d cs fuel := by
  cases fuel with
  | zero => rfl
  | succ fuel =>
    rw [parseAmounts?, parseAmounts?, List.dropWhile_cons_of_pos (by decide)]

/-- An amount is added to what has been read. -/
theorem parseAmounts?_amount {d : Duration} {unit : String} {u : TimeUnit} {n : Nat}
    {rest : List Char} (hword : IsUnitWord unit) (hunit : TimeUnit.find? unit = some u)
    (hn : n * u.nanos < 1000000000) (hd : (d + n * u.length).seconds < wordBound)
    (hrest : EndsUnit rest) (fuel : Nat) :
    parseAmounts? d ((toString n ++ unit).toList ++ rest) (fuel + 1) =
      parseAmounts? (d + n * u.length) rest fuel := by
  have hdigits : ∀ c ∈ Nat.toDigits 10 n, c.isDigit = true := fun c hc =>
    Nat.isDigit_of_mem_toDigits (by decide) (by decide) hc
  have htext : (toString n ++ unit).toList ++ rest = Nat.toDigits 10 n ++ (unit.toList ++ rest) := by
    simp
  have htake := takeAmount_append hdigits hword hrest
  have hadd : d.addAmount? ⟨Nat.toDigits 10 n, none, unit⟩ = some (d + n * u.length) := by
    simp [addAmount?, hunit, ofDigits_toDigits, addUnits?_eq hunit hn hd]
  obtain ⟨c, cs, hcs⟩ := List.exists_cons_of_ne_nil (Nat.toDigits_ne_nil (n := n) (b := 10))
  have hc : c.isDigit = true := hdigits c (hcs ▸ List.mem_cons_self ..)
  rw [htext, parseAmounts?]
  rw [hcs, List.cons_append] at htake ⊢
  rw [List.dropWhile_cons_of_neg (by simp [isBlank_of_isDigit hc])]
  dsimp only
  rw [if_pos hc, htake]
  dsimp only
  rw [← hcs, hadd]

/-- Amounts with a blank before each. -/
def spaced (items : List String) : List Char := items.flatMap fun item => ' ' :: item.toList

/-- No unit runs on into spaced amounts. -/
theorem endsUnit_spaced (items : List String) : EndsUnit (spaced items) := by
  cases items with
  | nil => simp [EndsUnit, spaced]
  | cons item items =>
    intro c hc
    cases hc
    rfl

/-- Reading amounts adds them up, where the sum fits. -/
theorem Spells.parseAmounts? {items : List String} {e : Duration} (h : Spells items e)
    {d : Duration} (hd : (d + e).seconds < wordBound) {fuel : Nat} (hfuel : items.length < fuel) :
    parseAmounts? d (spaced items) fuel = some (d + e) := by
  induction h generalizing d fuel with
  | nil =>
    obtain ⟨fuel, rfl⟩ := Nat.exists_eq_add_one_of_ne_zero (Nat.ne_of_gt hfuel)
    rfl
  | @cons items e unit u n hword hunit hn _ ih =>
    obtain ⟨fuel, rfl⟩ := Nat.exists_eq_add_one_of_ne_zero (Nat.ne_of_gt (Nat.zero_lt_of_lt hfuel))
    rw [← Nat.add_assoc] at hd ⊢
    have hpart : (d + n * u.length).seconds < wordBound :=
      Nat.lt_of_le_of_lt (Nat.div_le_div_right (Nat.le_add_right _ _)) hd
    show Duration.parseAmounts? d (' ' :: (toString n ++ unit).toList ++ spaced items) _ = _
    rw [List.cons_append, parseAmounts?_blank,
      parseAmounts?_amount hword hunit hn hpart (endsUnit_spaced items)]
    exact ih hd (Nat.lt_of_succ_lt_succ hfuel)

/-! ## Writing -/

/-- One amount alone. -/
theorem Spells.single {unit : String} {u : TimeUnit} {n : Nat} (hword : IsUnitWord unit)
    (hunit : TimeUnit.find? unit = some u) (hn : n * u.nanos < 1000000000) :
    Spells [toString n ++ unit] (n * u.length) := by
  have h := Spells.nil.cons n hword hunit hn
  rwa [Nat.add_zero] at h

/-- An amount of a unit spells as many of it. -/
theorem spells_amount (unit : String) {u : TimeUnit} (n : Nat) (hword : IsUnitWord unit)
    (hunit : TimeUnit.find? unit = some u) (hn : n * u.nanos < 1000000000) :
    Spells (amount unit n) (n * u.length) := by
  unfold amount
  split
  · next h =>
    rw [h, Nat.zero_mul]
    exact .nil
  · exact .single hword hunit hn

/-- So does an amount of a unit that has a plural. -/
theorem spells_namedAmount (unit : String) {u : TimeUnit} (n : Nat) (hword : IsUnitWord unit)
    (hunit : TimeUnit.find? unit = some u) (hwords : IsUnitWord (unit ++ "s"))
    (hunits : TimeUnit.find? (unit ++ "s") = some u) (hn : n * u.nanos < 1000000000) :
    Spells (namedAmount unit n) (n * u.length) := by
  unfold namedAmount
  split
  · next h =>
    rw [h, Nat.zero_mul]
    exact .nil
  · split
    · next h =>
      subst h
      exact .single (n := 1) hword hunit hn
    · rw [String.append_assoc]
      exact .single hwords hunits hn

/-- The amounts of a duration add up to it. -/
theorem spells_amounts (d : Duration) : Spells d.amounts d := by
  have hyears := spells_namedAmount "year" (d.seconds / 31557600)
    (by decide) rfl (by decide) rfl (by simp)
  have hmonths := spells_namedAmount "month" (d.seconds % 31557600 / 2630016)
    (by decide) rfl (by decide) rfl (by simp)
  have hdays := spells_namedAmount "day" (d.seconds % 31557600 % 2630016 / 86400)
    (by decide) rfl (by decide) rfl (by simp)
  have hhours := spells_amount "h" (d.seconds % 31557600 % 2630016 % 86400 / 3600)
    (by decide) rfl (by simp)
  have hminutes := spells_amount "m" (d.seconds % 31557600 % 2630016 % 86400 % 3600 / 60)
    (by decide) rfl (by simp)
  have hseconds := spells_amount "s" (d.seconds % 31557600 % 2630016 % 86400 % 60)
    (by decide) rfl (by simp)
  have hmillis := spells_amount "ms" (d.subsecNanos / 1000000) (by decide) rfl
    (by dsimp only; unfold subsecNanos; omega)
  have hmicros := spells_amount "us" (d.subsecNanos / 1000 % 1000) (by decide) rfl
    (by dsimp only; omega)
  have hnanos := spells_amount "ns" (d.subsecNanos % 1000) (by decide) rfl
    (by dsimp only; omega)
  -- what each division leaves over is taken apart by the next, so the sum loses nothing
  have h := (((((((hyears.append hmonths).append hdays).append hhours).append hminutes).append
    hseconds).append hmillis).append hmicros).append hnanos
  refine cast (congrArg (Spells _) ?_) h
  simp only [TimeUnit.length, seconds, subsecNanos]
  show (_ : Nat) = _
  omega

/-- What is spelled holds a letter of a unit. -/
theorem Spells.exists_isUnitChar {items : List String} {d : Duration} (h : Spells items d)
    (hne : items ≠ []) : ∃ c ∈ spaced items, isUnitChar c = true := by
  cases h with
  | nil => exact absurd rfl hne
  | @cons items d unit u n hword hunit hn _ =>
    obtain ⟨c, cs, hcs⟩ := List.exists_cons_of_ne_nil hword.1
    have hc : c ∈ unit.toList := hcs ▸ List.mem_cons_self ..
    exact ⟨c, by simp [spaced, hc], List.all_eq_true.1 hword.2 c hc⟩

/-- An amount takes two characters at least, its blank included. -/
theorem Spells.length_le {items : List String} {d : Duration} (h : Spells items d) :
    2 * items.length ≤ (spaced items).length := by
  induction h with
  | nil => exact Nat.le_refl _
  | @cons items d unit u n hword hunit hn _ ih =>
    have hunit : 0 < unit.toList.length := List.length_pos_iff.2 hword.1
    rw [spaced, List.flatMap_cons, List.length_append, ← spaced, List.length_cons, List.length_cons,
      String.toList_append, List.length_append]
    omega

/-- The text of a duration is its amounts with blanks in between. -/
theorem text_of_amounts {d : Duration} {item : String} {items : List String}
    (h : d.amounts = item :: items) : ' ' :: d.text.toList = spaced (item :: items) := by
  rw [text, h, String.toList_intercalate]
  exact (flatMap_cons_eq_intercalate ' ' (List.cons_ne_nil item items)).symm

/-- Reading undoes writing, for every duration whose seconds fit into 64 bits. -/
theorem parse?_text {d : Duration} (hd : d.seconds < wordBound) : parse? d.text = some d := by
  have hspells := spells_amounts d
  cases hamounts : d.amounts with
  | nil =>
    rw [hamounts] at hspells
    cases hspells
    rfl
  | cons item items =>
    rw [hamounts] at hspells
    have htext := text_of_amounts hamounts
    have hsum : (0 + d).seconds < wordBound := by rwa [Nat.zero_add]
    have hfuel : (item :: items).length < d.text.toList.length + 1 := by
      have hle := hspells.length_le
      rw [← htext] at hle
      simp only [List.length_cons] at hle ⊢
      omega
    have hparse := hspells.parseAmounts? hsum hfuel
    rw [← htext, parseAmounts?_blank, Nat.zero_add] at hparse
    -- the texts that are read otherwise, a zero alone and blanks alone, have no letter in them
    obtain ⟨c, hc, hletter⟩ := hspells.exists_isUnitChar (by simp)
    rw [← htext] at hc
    have hmem : c ∈ d.text.toList := (List.mem_cons.1 hc).resolve_left (by rintro rfl; cases hletter)
    have hzero : d.text.toList ≠ ['0'] := fun hzero => by
      rw [hzero, List.mem_singleton] at hmem
      rw [hmem] at hletter
      cases hletter
    have hblank : ¬ d.text.toList.all isBlank = true := fun hall => by
      have hnot := (isNumberChar_of_isUnitChar hletter).2
      rw [List.all_eq_true.1 hall c hmem] at hnot
      cases hnot
    unfold parse?
    dsimp only
    rw [if_neg hzero, if_neg hblank, hparse]

end Duration
end AdaptiveRouting
