import AdaptiveRouting.Proofs.Document.Numerals
import Mathlib.Algebra.Group.Nat.Defs

/-!
# Decimals in positional notation

Digits with an exponent are written as a whole part, a point and the digits behind it. Zeros are put
in front of the digits behind the point and dropped at their end; neither changes the number
(`toList_positional`).
-/

namespace AdaptiveRouting

/-- Digits that follow move those before them up. -/
theorem ofDigits_append (as bs : List Char) :
    ofDigits (as ++ bs) = ofDigits as * 10 ^ bs.length + ofDigits bs := by
  have hfold : ∀ start, bs.foldl (fun n c => 10 * n + digitValue c) start =
      start * 10 ^ bs.length + ofDigits bs := by
    induction bs with
    | nil => intro start; simp [ofDigits]
    | cons b bs ih =>
      intro start
      have hone : ofDigits (b :: bs) = digitValue b * 10 ^ bs.length + ofDigits bs := by
        rw [ofDigits, List.foldl_cons, ih, Nat.mul_zero, Nat.zero_add]
      rw [List.foldl_cons, ih, hone, List.length_cons, Nat.pow_succ, Nat.add_mul]
      ac_rfl
  rw [ofDigits, List.foldl_append, hfold]
  rfl

/-- Zeros have the value zero. -/
theorem ofDigits_replicate_zero (n : Nat) : ofDigits (List.replicate n '0') = 0 := by
  induction n with
  | zero => rfl
  | succ n ih =>
    rw [List.replicate_succ', ofDigits_append, ih]
    rfl

/-- The zeros at the end of a list of digits. -/
theorem exists_eq_append_replicate (cs : List Char) :
    ∃ zeros, cs = (cs.reverse.dropWhile (· = '0')).reverse ++ List.replicate zeros '0' := by
  have hzeros : ∀ c ∈ cs.reverse.takeWhile (· = '0'), c = '0' := fun c hc =>
    of_decide_eq_true (List.all_eq_true.1 List.all_takeWhile c hc)
  refine ⟨(cs.reverse.takeWhile (· = '0')).length, ?_⟩
  have hsplit : cs.reverse.takeWhile (· = '0') ++ cs.reverse.dropWhile (· = '0') = cs.reverse :=
    List.takeWhile_append_dropWhile
  rw [List.eq_replicate_of_mem hzeros] at hsplit
  rw [← List.reverse_replicate, ← List.reverse_append, hsplit, List.reverse_reverse]

/-- The digits of a number with zeros in front of them up to a number of places. -/
def placed (places n : Nat) : List Char :=
  List.replicate (places - (Nat.toDigits 10 n).length) '0' ++ Nat.toDigits 10 n

/-- Padding with zeros in front leaves the value as it is. -/
theorem ofDigits_placed (places n : Nat) : ofDigits (placed places n) = n := by
  rw [placed, ofDigits_append, ofDigits_replicate_zero, ofDigits_toDigits, Nat.zero_mul,
    Nat.zero_add]

/-- What fits into some places is padded to exactly as many. -/
theorem length_placed {places n : Nat} (hplaces : 0 < places) (hn : n < 10 ^ places) :
    (placed places n).length = places := by
  have hlength := (Nat.length_toDigits_le_iff (by decide) hplaces).2 hn
  rw [placed, List.length_append, List.length_replicate]
  omega

/-- Nothing but digits comes out of padding. -/
theorem isDigit_of_mem_placed {places n : Nat} {c : Char} (h : c ∈ placed places n) :
    c.isDigit = true := by
  rcases List.mem_append.1 h with h | h
  · rw [List.eq_of_mem_replicate h]
    decide
  · exact Numeral.isDigit_of_mem_toDigits h

/-- An integer is written with one zero behind the point. -/
theorem toList_integer (n : Nat) :
    (toString n ++ ".0").toList = Nat.toDigits 10 n ++ '.' :: ['0'] ∧
      ofDigits (Nat.toDigits 10 n ++ ['0']) = n * 10 := by
  constructor
  · rw [String.toList_append, Nat.toString_eq_ofList_toDigits, String.toList_ofList]
    rfl
  · rw [ofDigits_append, ofDigits_toDigits]
    rfl

/-- The digits behind the point, without the zeros at their end. -/
def decimals (places n : Nat) : List Char :=
  ((placed places n).reverse.dropWhile (· = '0')).reverse

/-- The number counts units of the last place. -/
theorem exists_decimals {places n : Nat} (hplaces : 0 < places) (hn : n < 10 ^ places) :
    ∃ zeros, ofDigits (decimals places n) * 10 ^ zeros = n ∧
      (decimals places n).length + zeros = places ∧
      ∀ c ∈ decimals places n, c.isDigit = true := by
  have hvalue := ofDigits_placed places n
  have hlength := length_placed hplaces hn
  have hall : ∀ c ∈ placed places n, c.isDigit = true := fun _ => isDigit_of_mem_placed
  obtain ⟨zeros, hzeros⟩ := exists_eq_append_replicate (placed places n)
  rw [← decimals] at hzeros
  rw [hzeros] at hvalue hlength hall
  rw [ofDigits_append, ofDigits_replicate_zero, Nat.add_zero, List.length_replicate] at hvalue
  rw [List.length_append, List.length_replicate] at hlength
  exact ⟨zeros, hvalue, hlength, fun c hc => hall c (List.mem_append_left _ hc)⟩

/-- With a negative exponent, that many digits stand behind the point. -/
theorem positional_of_neg (integerEnd : String) (digits : Nat) {exponent : Int}
    (h : ¬ 0 ≤ exponent) {places : Nat} (hplaces : (-exponent).toNat = places) :
    positional integerEnd digits exponent =
      match decimals places (digits % 10 ^ places) with
      | [] => toString (digits / 10 ^ places) ++ integerEnd
      | kept => toString (digits / 10 ^ places) ++ "." ++ String.ofList kept := by
  rw [positional, if_neg h, hplaces]
  rfl

/-- What `positional` writes, and which number it is: the digits behind the point count as tenths,
hundredths and so on. -/
theorem toList_positional (digits : Nat) (exponent : Int) : ∃ whole behind,
    (positional ".0" digits exponent).toList = Nat.toDigits 10 whole ++ '.' :: behind ∧
      behind ≠ [] ∧ (∀ c ∈ behind, c.isDigit = true) ∧
      ofDigits (Nat.toDigits 10 whole ++ behind) * 10 ^ (-exponent).toNat =
        digits * 10 ^ exponent.toNat * 10 ^ behind.length := by
  by_cases hexponent : 0 ≤ exponent
  · obtain ⟨htext, hvalue⟩ := toList_integer (digits * 10 ^ exponent.toNat)
    refine ⟨digits * 10 ^ exponent.toNat, ['0'], ?_, by simp, by simp, ?_⟩
    · rw [positional, if_pos hexponent]
      exact htext
    · have hzero : (-exponent).toNat = 0 := by omega
      rw [hvalue, hzero]
      simp
  have hzero : exponent.toNat = 0 := by omega
  generalize hplaces : (-exponent).toNat = places
  rw [positional_of_neg _ _ hexponent hplaces, hzero, Nat.pow_zero, Nat.mul_one]
  have hrest : digits % 10 ^ places < 10 ^ places := Nat.mod_lt _ (Nat.pow_pos (by decide))
  obtain ⟨zeros, hvalue, hlength, hall⟩ := exists_decimals (by omega) hrest
  have hdigits : digits / 10 ^ places * 10 ^ places + digits % 10 ^ places = digits :=
    Nat.div_add_mod' digits (10 ^ places)
  generalize digits / 10 ^ places = whole at *
  generalize decimals places (digits % 10 ^ places) = kept at *
  -- All decimals may have been zeros, and then one of them is written all the same.
  cases kept with
  | nil =>
    obtain ⟨htext, hinteger⟩ := toList_integer whole
    refine ⟨whole, ['0'], htext, by simp, by simp, ?_⟩
    rw [← hvalue] at hdigits
    simp only [ofDigits, List.foldl_nil, Nat.zero_mul, Nat.add_zero] at hdigits
    rw [hinteger, ← hdigits]
    simp only [List.length_singleton, Nat.pow_one]
    ac_rfl
  | cons c cs =>
    refine ⟨whole, c :: cs, by simp, by simp, hall, ?_⟩
    rw [ofDigits_append, ofDigits_toDigits]
    calc (whole * 10 ^ (c :: cs).length + ofDigits (c :: cs)) * 10 ^ places
        = (whole * 10 ^ places + ofDigits (c :: cs) * 10 ^ zeros) * 10 ^ (c :: cs).length := by
          rw [← hlength, Nat.pow_add, Nat.add_mul, Nat.add_mul]
          ac_rfl
      _ = digits * 10 ^ (c :: cs).length := by rw [hvalue, hdigits]

end AdaptiveRouting
