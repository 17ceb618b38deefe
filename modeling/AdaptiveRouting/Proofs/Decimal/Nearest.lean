import AdaptiveRouting.Decimal.Shortest
import Mathlib

/-!
# Rounding to the nearest floating-point number

Which numbers are rounded to a floating-point number is said twice. `Rounding.around` puts bounds
around the number, between which the shortest decimal is looked for, and floating-point arithmetic
shifts a mantissa and rounds it. The two agree: a fraction within the bounds (`Rounding.Holds`) is
rounded to the number that they were put around (`roundWithAccuracy_eq`), and so are a quotient
(`div_eq`) and an integer (`ofNat_eq`).

A mantissa that is shifted keeps the bit behind the point and whether anything follows it (`Cuts`),
so what is rounded in the end is the nearest integer (`divideEven_eq`), in units of some exponent.
That exponent is the one of the floating-point number, or the one below it when the fraction lies
just below a power of two (`Canonical.exponent_cases`).
-/

namespace AdaptiveRouting

open Float.Model Float.Model.UnpackedFloat
open Magnitude (divideEven)

/-! ## Fractions cut behind the point -/

/-- The whole part of the fraction `n / d`, with the bit behind the point and whether anything
follows it. -/
structure Cuts (em : ExtendedMantissa) (n d : Nat) : Prop where
  mantissa : em.mantissa = n / d
  roundBit : em.roundBit = true ↔ d ≤ 2 * (n % d)
  stickyBit : em.stickyBit = true ↔ n % d ≠ 0 ∧ 2 * (n % d) ≠ d

/-- A quotient with the accuracy of its remainder stands for the whole fraction. -/
theorem cuts_ofFraction (n : Nat) {d : Nat} (hd : 0 < d) :
    Cuts (.ofMantissaAndAccuracy (n / d) (accuracyOfFraction (n % d) d)) n d := by
  rw [accuracyOfFraction]
  by_cases hzero : n % d = 0
  · rw [if_pos hzero]
    constructor <;> simp [ExtendedMantissa.ofMantissaAndAccuracy, hzero]
    omega
  · rw [if_neg hzero]
    -- The remainder against half the divisor decides both bits.
    cases hcompare : compare (2 * (n % d)) d with
    | lt =>
      have hlt := Nat.compare_eq_lt.1 hcompare
      constructor <;> simp [ExtendedMantissa.ofMantissaAndAccuracy] <;> omega
    | eq =>
      have heq := Nat.compare_eq_eq.1 hcompare
      constructor <;> simp [ExtendedMantissa.ofMantissaAndAccuracy] <;> omega
    | gt =>
      have hgt := Nat.compare_eq_gt.1 hcompare
      constructor <;> simp [ExtendedMantissa.ofMantissaAndAccuracy] <;> omega

/-- A whole number stands for itself. -/
theorem cuts_whole (m : Nat) : Cuts (.ofMantissaAndAccuracy m .exact) m 1 := by
  constructor <;> simp [ExtendedMantissa.ofMantissaAndAccuracy, Nat.mod_one]

/-- Shifting by one place halves the fraction that a mantissa stands for. -/
theorem Cuts.shiftRightOne {em : ExtendedMantissa} {n d : Nat} (hd : 0 < d) (h : Cuts em n d) :
    Cuts em.shiftRightOne n (d * 2) := by
  have hmod : n % (d * 2) = n % d + d * (n / d % 2) := Nat.mod_mul
  have hlt := Nat.mod_lt n hd
  -- The bit that is shifted out becomes the round bit, and what was behind it becomes sticky.
  obtain hbit | hbit : n / d % 2 = 0 ∨ n / d % 2 = 1 := by omega
  · rw [hbit, Nat.mul_zero, Nat.add_zero] at hmod
    constructor
    · rw [ExtendedMantissa.shiftRightOne, h.mantissa, Nat.div_div_eq_div_mul]
    · simp [ExtendedMantissa.shiftRightOne, h.mantissa, hmod, hbit]
      omega
    · simp [ExtendedMantissa.shiftRightOne, h.roundBit, h.stickyBit, hmod]
      omega
  · rw [hbit, Nat.mul_one] at hmod
    constructor
    · rw [ExtendedMantissa.shiftRightOne, h.mantissa, Nat.div_div_eq_div_mul]
    · simp [ExtendedMantissa.shiftRightOne, h.mantissa, hmod, hbit]
      omega
    · simp [ExtendedMantissa.shiftRightOne, h.roundBit, h.stickyBit, hmod]
      omega

/-- Shifting by some places divides the fraction by that power of two. -/
theorem Cuts.shiftRight {em : ExtendedMantissa} {n d : Nat} (hd : 0 < d) (h : Cuts em n d)
    (k : Nat) : Cuts (em >>> k) n (d * 2 ^ k) := by
  induction k with
  | zero =>
    rw [Nat.pow_zero, Nat.mul_one]
    exact h
  | succ k ih =>
    have hstep := ih.shiftRightOne (by positivity)
    rw [Nat.mul_assoc, ← Nat.pow_succ] at hstep
    exact hstep

/-- A mantissa is rounded as the fraction that it stands for, halves to the even side. -/
theorem Cuts.roundedMantissa {em : ExtendedMantissa} {n d : Nat} (hd : 0 < d) (h : Cuts em n d) :
    em.roundedMantissa = divideEven n d := by
  obtain ⟨mantissa, roundBit, stickyBit⟩ := em
  obtain ⟨rfl, hround, hsticky⟩ := h
  have heven : n / d + n / d % 2 = if n / d % 2 = 0 then n / d else n / d + 1 := by
    split <;> omega
  cases roundBit <;> cases stickyBit <;>
    simp only [ExtendedMantissa.roundedMantissa, ExtendedMantissa.accuracy, heven,
      Accuracy.roundToNearestEven, divideEven, Bool.false_eq_true, false_iff, true_iff]
      at hround hsticky ⊢
  · rw [if_pos (by omega)]
  · rw [if_pos (by omega)]
  · have hhalf : 2 * (n % d) = d := by omega
    rw [hhalf, if_neg (Nat.lt_irrefl d), if_neg (Nat.lt_irrefl d)]
  · rw [if_neg (by omega), if_pos (by omega)]

/-- A number is rounded to one that is at most half a unit away, and less if it is odd. -/
theorem divideEven_eq {n d m : Nat} (hd : 0 < d) (hlow : 2 * m * d ≤ 2 * n + d)
    (hhigh : 2 * n ≤ 2 * m * d + d)
    (hodd : m % 2 = 1 → 2 * m * d < 2 * n + d ∧ 2 * n < 2 * m * d + d) : divideEven n d = m := by
  have hr := Nat.mod_lt n hd
  have hn := Nat.div_add_mod n d
  rw [divideEven]
  generalize n / d = q at *
  generalize n % d = r at *
  -- Half a unit apart, the quotient is the number itself or the one below it.
  have hq : q = m ∨ q + 1 = m := by
    rcases Nat.lt_or_ge q m with hlt | hge
    · refine .inr (Nat.le_antisymm hlt (Nat.le_of_not_lt fun hgap => ?_))
      have := Nat.mul_le_mul_left d hgap
      nlinarith
    · refine .inl (Nat.le_antisymm (Nat.le_of_not_lt fun hgap => ?_) hge)
      have := Nat.mul_le_mul_left d hgap
      nlinarith
  have hexpand : 2 * n = 2 * q * d + 2 * r := by rw [← hn]; ring
  rcases hq with rfl | rfl
  · split
    · rfl
    · rw [if_neg (by omega), if_pos (by omega)]
  · have hnext : 2 * (q + 1) * d = 2 * q * d + 2 * d := by ring
    rw [hnext] at hlow hhigh hodd
    rw [if_neg (by omega)]
    split
    · rfl
    · rw [if_neg (by omega)]

/-! ## The numbers that are rounded to a floating-point number -/

/-- The significands and exponents of finite floating-point numbers: the leading bit is set, unless
the exponent is the least one. -/
structure Canonical (m : Nat) (q : Int) : Prop where
  pos : 0 < m
  bound : m < 2 ^ 53
  least : -1074 ≤ q
  leading : q = -1074 ∨ 2 ^ 52 ≤ m

/-- Whether a number is among those that are rounded to one floating-point number. -/
structure Rounding.Holds (r : Rounding) (v : ℚ) : Prop where
  low : r.low * (2 : ℚ) ^ r.unit ≤ v
  high : v ≤ r.high * (2 : ℚ) ^ r.unit
  inner : r.closed = false → r.low * (2 : ℚ) ^ r.unit < v ∧ v < r.high * (2 : ℚ) ^ r.unit

/-- Of a fraction of units this is what `admits` decides. -/
theorem Rounding.holds_iff_admits {r : Rounding} {c d : Nat} (hd : 0 < d) :
    r.Holds (c / d * 2 ^ r.unit) ↔ r.admits c d = true := by
  have hd' : (0 : ℚ) < d := Nat.cast_pos.2 hd
  have hu : (0 : ℚ) < 2 ^ r.unit := by positivity
  have hle : ∀ a : Nat, (a : ℚ) * 2 ^ r.unit ≤ c / d * 2 ^ r.unit ↔ a * d ≤ c := fun a => by
    rw [mul_le_mul_iff_left₀ hu, le_div_iff₀ hd']
    exact_mod_cast Iff.rfl
  have hge : ∀ a : Nat, (c / d * 2 ^ r.unit : ℚ) ≤ a * 2 ^ r.unit ↔ c ≤ a * d := fun a => by
    rw [mul_le_mul_iff_left₀ hu, div_le_iff₀ hd']
    exact_mod_cast Iff.rfl
  have hlow := hle r.low
  have hhigh := hge r.high
  rw [admits]
  -- The ends count only in a closed interval, which is that of an even number.
  cases hclosed : r.closed with
  | true =>
    simp only [if_true, Bool.and_eq_true, decide_eq_true_iff]
    exact ⟨fun h => ⟨hlow.1 h.low, hhigh.1 h.high⟩,
      fun h => ⟨hlow.2 h.1, hhigh.2 h.2, fun hopen => absurd hopen (by simp [hclosed])⟩⟩
  | false =>
    simp only [Bool.false_eq_true, if_false, Bool.and_eq_true, decide_eq_true_iff]
    have hlow' := not_iff_not.2 (hge r.low)
    have hhigh' := not_iff_not.2 (hle r.high)
    rw [not_le, not_le] at hlow' hhigh'
    exact ⟨fun h => ⟨hlow'.1 (h.inner hclosed).1, hhigh'.1 (h.inner hclosed).2⟩,
      fun h => ⟨hlow.2 h.1.le, hhigh.2 h.2.le, fun _ => ⟨hlow'.2 h.1, hhigh'.2 h.2⟩⟩⟩

/-- A fraction that is admitted lies within the bounds, and strictly within them if they are open.
-/
theorem Rounding.admits_bounds {r : Rounding} {c d : Nat} (h : r.admits c d = true) :
    r.low * d ≤ c ∧ c ≤ r.high * d ∧ (r.closed = false → r.low * d < c ∧ c < r.high * d) := by
  rw [admits] at h
  cases hclosed : r.closed with
  | true =>
    simp only [hclosed, if_true, Bool.and_eq_true, decide_eq_true_iff] at h
    exact ⟨h.1, h.2, fun hopen => by cases hopen⟩
  | false =>
    simp only [hclosed, Bool.false_eq_true, if_false, Bool.and_eq_true, decide_eq_true_iff] at h
    exact ⟨h.1.le, h.2.le, fun _ => h⟩

/-- The lower bound is at most half a step below the number. -/
theorem Rounding.le_low_around (m : Nat) (q : Int) : 4 * m - 2 ≤ (Rounding.around m q).low := by
  change 4 * m - 2 ≤ if m = Magnitude.hiddenBit ∧ Magnitude.leastExponent < q then 4 * m - 1
    else 4 * m - 2
  split <;> omega

/-- The lower bound lies below a number that is not zero. -/
theorem Rounding.low_around_lt {m : Nat} (hm : 0 < m) (q : Int) :
    (Rounding.around m q).low < 4 * m := by
  change (if m = Magnitude.hiddenBit ∧ Magnitude.leastExponent < q then 4 * m - 1
    else 4 * m - 2) < 4 * m
  split <;> omega

/-- In units of its exponent a floating-point number is the nearest integer. -/
theorem Rounding.divideEven_eq {m : Nat} {q : Int} (hm : 0 < m) {n d : Nat} (hd : 0 < d)
    (h : (Rounding.around m q).admits (2 ^ 2 * n) d = true) : divideEven n d = m := by
  obtain ⟨hge, hle, hstrict⟩ := admits_bounds h
  have hlow := Nat.mul_le_mul_right d (le_low_around m q)
  have hfour : (4 * m - 2) * d + 2 * d = 4 * m * d := by
    rw [← Nat.add_mul]
    congr 1
    omega
  have hhigh : (Rounding.around m q).high * d = 4 * m * d + 2 * d := Nat.add_mul _ _ _
  have htwice : 4 * m * d = 2 * (2 * m * d) := by ring
  refine AdaptiveRouting.divideEven_eq hd (by omega) (by omega) fun hodd => ?_
  have hopen : (Rounding.around m q).closed = false := decide_eq_false (by omega)
  have := hstrict hopen
  omega

/-- Just below a power of two the next integer is the nearest one, in units of half the size. -/
theorem Rounding.divideEven_below {q : Int} (hq : -1074 < q) {n d : Nat} (hd : 0 < d)
    (h : (Rounding.around (2 ^ 52) q).admits (2 ^ 1 * n) d = true) (htop : n < 2 ^ 53 * d) :
    divideEven n d = 2 ^ 53 := by
  have hlow : (Rounding.around (2 ^ 52) q).low = 4 * 2 ^ 52 - 1 := if_pos ⟨rfl, hq⟩
  have hge := (admits_bounds h).1
  rw [hlow] at hge
  exact AdaptiveRouting.divideEven_eq hd (by omega) (by omega) fun hodd => absurd hodd (by decide)

/-- What is rounded to a positive number is at least half the least one. -/
theorem Canonical.least_le {m : Nat} {q : Int} (hc : Canonical m q) {v : ℚ}
    (hv : (Rounding.around m q).Holds v) : (2 : ℚ) ^ (-1075 : Int) ≤ v := by
  have hleast := hc.least
  have hlow : ((2 : Nat) : ℚ) ≤ (Rounding.around m q).low := by
    refine Nat.cast_le.2 (le_trans ?_ (Rounding.le_low_around m q))
    have := hc.pos
    omega
  calc (2 : ℚ) ^ (-1075 : Int) ≤ 2 ^ (q - 1) := zpow_le_zpow_right₀ (by norm_num) (by omega)
    _ = (2 : Nat) * 2 ^ (q - 2) := by
      rw [Nat.cast_ofNat, ← zpow_one_add₀ (by norm_num)]
      congr 1
      omega
    _ ≤ (Rounding.around m q).low * 2 ^ (q - 2) := mul_le_mul_of_nonneg_right hlow (by positivity)
    _ ≤ v := hv.low

/-- The exponent that a number is rounded to is the one of the floating-point number, unless it lies
below a power of two, where floating-point numbers are closer. -/
theorem Canonical.exponent_cases {m : Nat} {q : Int} (hc : Canonical m q) {v : ℚ}
    (hv : (Rounding.around m q).Holds v) {t : Int} (hleast : -1074 ≤ t)
    (hhigh : v < 2 ^ (t + 53)) (hlow : t = -1074 ∨ 2 ^ (t + 52) ≤ v) :
    t = q ∨ t + 1 = q ∧ m = 2 ^ 52 := by
  have hbound := hc.bound
  have hu : (0 : ℚ) < 2 ^ (q - 2) := by positivity
  have hpow : ∀ k : Nat, ((2 ^ k : Nat) : ℚ) * 2 ^ (q - 2) = 2 ^ (q - 2 + k) := fun k => by
    rw [zpow_add₀ (by norm_num), zpow_natCast, mul_comm, Nat.cast_pow, Nat.cast_ofNat]
  -- multiples of the unit that lie below the number
  have hbelow : ∀ k : Nat, 2 ^ k ≤ 4 * m - 2 → (2 : ℚ) ^ (q - 2 + k) ≤ v := by
    intro k hk
    refine le_trans ?_ hv.low
    rw [← hpow]
    exact mul_le_mul_of_nonneg_right
      (Nat.cast_le.2 (hk.trans (Rounding.le_low_around m q))) hu.le
  have hmono : ∀ {a b : Int}, a ≤ b → (2 : ℚ) ^ a ≤ 2 ^ b := fun h =>
    zpow_le_zpow_right₀ (by norm_num) h
  rcases lt_trichotomy t q with hlt | heq | hgt
  · have hleading := hc.leading.resolve_left (by omega)
    have hnext : t + 1 = q := by
      by_contra hgap
      have h53 := hbelow 53 (by omega)
      exact absurd (hhigh.trans_le (hmono (by push_cast; omega))) (not_lt.2 h53)
    refine .inr ⟨hnext, ?_⟩
    by_contra hne
    have h54 := hbelow 54 (by omega)
    exact absurd (hhigh.trans_le (hmono (by push_cast; omega))) (not_lt.2 h54)
  · exact .inl heq
  · have hv55 : v < 2 ^ (q - 2 + (55 : Nat)) := by
      rw [← hpow]
      refine lt_of_le_of_lt hv.high ((mul_lt_mul_iff_left₀ hu).2 (Nat.cast_lt.2 ?_))
      change 4 * m + 2 < 2 ^ 55
      omega
    have ht := hlow.resolve_left (by have := hc.least; omega)
    exact absurd (hv55.trans_le (hmono (by push_cast; omega))) (not_lt.2 ht)

/-! ## Rounding -/

/-- The target exponent leaves 53 digits, unless the number is too small for that many. -/
theorem targetExponent_eq (e : Int) : Format.binary64.targetExponent e = max (e - 53) (-1074) := by
  simp [Format.targetExponent, Format.mantissaBits, Format.minExponent]

/-- The whole part of a shifted mantissa. -/
theorem mantissa_shiftRight (m k : Nat) :
    (ExtendedMantissa.ofMantissaAndAccuracy m .exact >>> k).mantissa = m / 2 ^ k := by
  rw [((cuts_whole m).shiftRight Nat.one_pos k).mantissa, Nat.one_mul]

/-- A canonical number stays as it is. -/
theorem Canonical.targetExponent_eq {m : Nat} {q : Int} (hc : Canonical m q) :
    Format.binary64.targetExponent (totalExponent m q) = q := by
  have hlog : m.log2 < 53 := (Nat.log2_lt hc.pos.ne').2 hc.bound
  have hleast := hc.least
  rw [AdaptiveRouting.targetExponent_eq, totalExponent]
  rcases hc.leading with hq | hlead
  · omega
  · have := (Nat.le_log2 hc.pos.ne').2 hlead
    omega

/-- Shifting to the target exponent is shifting by the difference to it. -/
theorem shiftToTargetExponent_eq {m : Nat} {e : Int} (accuracy : Accuracy) {t : Int} {k : Nat}
    (ht : Format.binary64.targetExponent (totalExponent m e) = t) (hk : e + k = t) :
    shiftToTargetExponent Format.binary64 m e accuracy =
      (ExtendedMantissa.ofMantissaAndAccuracy m accuracy >>> k, t) := by
  have hshift : (t - e).toNat = k := by omega
  rw [shiftToTargetExponent, ht]
  simp only [shiftToExponent, hshift, hk]

/-- Rounding ends with the mantissa and the exponent that shifting twice arrives at. -/
theorem roundWithAccuracy_of_shifts (s : Sign) {m ρ m' : Nat} {e t t' : Int} {accuracy : Accuracy}
    {k k' : Nat} (ht : Format.binary64.targetExponent (totalExponent m e) = t) (hk : e + k = t)
    (hρ : (ExtendedMantissa.ofMantissaAndAccuracy m accuracy >>> k).roundedMantissa = ρ)
    (ht' : Format.binary64.targetExponent (totalExponent ρ t) = t') (hk' : t + k' = t')
    (hm' : ρ / 2 ^ k' = m') (hpos : 0 < m') :
    roundWithAccuracy Format.binary64 s m e accuracy = .finite s m' t' hpos := by
  rw [roundWithAccuracy, shiftToTargetExponent_eq accuracy ht hk]
  dsimp only
  rw [hρ, shiftToTargetExponent_eq .exact ht' hk']
  simp only [mantissa_shiftRight, hm', hpos.ne', dite_false]

/-- The exponents between which a fraction lies. -/
theorem fraction_bounds {n d : Nat} (hd : 0 < d) {e t : Int}
    (ht : Format.binary64.targetExponent (totalExponent (n / d) e) = t) (he : e ≤ t) :
    (n : ℚ) / d * 2 ^ e < 2 ^ (t + 53) ∧ (t = -1074 ∨ (2 : ℚ) ^ (t + 52) ≤ n / d * 2 ^ e) := by
  have hd' : (0 : ℚ) < d := Nat.cast_pos.2 hd
  rw [targetExponent_eq, totalExponent] at ht
  constructor
  · have hlt : (n : ℚ) / d < 2 ^ (((n / d).log2 : Int) + 1) := by
      rw [div_lt_iff₀ hd']
      have hnat : n < 2 ^ ((n / d).log2 + 1) * d :=
        (Nat.div_lt_iff_lt_mul hd).1 Nat.lt_log2_self
      exact_mod_cast hnat
    calc (n : ℚ) / d * 2 ^ e < 2 ^ (((n / d).log2 : Int) + 1) * 2 ^ e :=
          (mul_lt_mul_iff_left₀ (by positivity)).2 hlt
      _ = 2 ^ (((n / d).log2 : Int) + 1 + e) := (zpow_add₀ (by norm_num) _ _).symm
      _ ≤ 2 ^ (t + 53) := zpow_le_zpow_right₀ (by norm_num) (by omega)
  -- There need not be a leading bit at the least exponent.
  · by_cases hleast : t = -1074
    · exact .inl hleast
    · refine .inr ?_
      have hne : n / d ≠ 0 := by
        intro hzero
        rw [hzero] at ht
        simp at ht
        omega
      have hle : (2 : ℚ) ^ ((n / d).log2 : Int) ≤ n / d := by
        rw [le_div_iff₀ hd']
        have hnat : 2 ^ (n / d).log2 * d ≤ n := (Nat.le_div_iff_mul_le hd).1 (Nat.log2_self_le hne)
        exact_mod_cast hnat
      calc (2 : ℚ) ^ (t + 52) = 2 ^ (((n / d).log2 : Int) + e) := by congr 1; omega
        _ = 2 ^ ((n / d).log2 : Int) * 2 ^ e := zpow_add₀ (by norm_num) _ _
        _ ≤ n / d * 2 ^ e := mul_le_mul_of_nonneg_right hle (by positivity)

/-- A fraction in units of a greater exponent. -/
theorem fraction_eq_of_add {e t : Int} {k : Nat} (hk : e + k = t) (n d : Nat) :
    (n : ℚ) / d * 2 ^ e = n / (d * 2 ^ k : Nat) * 2 ^ t := by
  rw [← hk, zpow_add₀ (by norm_num), zpow_natCast]
  push_cast
  field_simp

/-- A fraction in parts of the unit: halves, quarters and so on. -/
theorem fraction_eq_parts {t u : Int} {j : Nat} (hj : u + j = t) (n d : Nat) :
    (n : ℚ) / d * 2 ^ t = (2 ^ j * n : Nat) / d * 2 ^ u := by
  rw [← hj, zpow_add₀ (by norm_num), zpow_natCast]
  push_cast
  ring

/-- A number `n / d * 2 ^ e` that is not cut short is rounded to the nearest floating-point
number. -/
theorem roundWithAccuracy_eq (s : Sign) {n d : Nat} (hd : 0 < d) {e : Int}
    (he : e ≤ Format.binary64.targetExponent (totalExponent (n / d) e)) {m : Nat} {q : Int}
    (hc : Canonical m q) (hv : (Rounding.around m q).Holds (n / d * 2 ^ e)) :
    roundWithAccuracy Format.binary64 s (n / d) e (accuracyOfFraction (n % d) d) =
      .finite s m q hc.pos := by
  generalize ht : Format.binary64.targetExponent (totalExponent (n / d) e) = t at he
  obtain ⟨k, hk⟩ := Int.le.dest he
  have hd' : 0 < d * 2 ^ k := by positivity
  have hrounded := ((cuts_ofFraction n hd).shiftRight hd k).roundedMantissa hd'
  obtain ⟨hhigh, hlow⟩ := fraction_bounds hd ht he
  have hleast : -1074 ≤ t := by
    rw [targetExponent_eq] at ht
    omega
  have hvalue := fraction_eq_of_add hk n d
  rw [hvalue] at hv hhigh
  -- The result has the exponent that was aimed at, or rounding up carried into the next one.
  rcases hc.exponent_cases hv hleast hhigh (hvalue ▸ hlow) with rfl | ⟨hnext, rfl⟩
  · have hunit : t - 2 + (2 : Nat) = t := by push_cast; omega
    rw [fraction_eq_parts hunit] at hv
    have hround := Rounding.divideEven_eq hc.pos hd' ((Rounding.holds_iff_admits hd').1 hv)
    rw [hround] at hrounded
    exact roundWithAccuracy_of_shifts s ht hk hrounded hc.targetExponent_eq (Int.add_zero t)
      (Nat.div_one m) hc.pos
  · have hunit : q - 2 + (1 : Nat) = t := by push_cast; omega
    rw [fraction_eq_parts hunit] at hv
    have htop : n < 2 ^ 53 * (d * 2 ^ k) := by
      have hd'' : (0 : ℚ) < (d * 2 ^ k : Nat) := Nat.cast_pos.2 hd'
      have hsplit : (2 : ℚ) ^ (t + 53) = 2 ^ 53 * 2 ^ t := by
        rw [zpow_add₀ (by norm_num), mul_comm]
        rfl
      rw [hsplit, mul_lt_mul_iff_left₀ (by positivity), div_lt_iff₀ hd''] at hhigh
      exact_mod_cast hhigh
    have hround := Rounding.divideEven_below (by omega) hd'
      ((Rounding.holds_iff_admits hd').1 hv) htop
    rw [hround] at hrounded
    have ht' : Format.binary64.targetExponent (totalExponent (2 ^ 53) t) = q := by
      rw [targetExponent_eq, totalExponent, Nat.log2_two_pow]
      omega
    exact roundWithAccuracy_of_shifts s ht hk hrounded ht' hnext (by norm_num) hc.pos

/-- A quotient has as many bits as its terms promise, or one more. -/
theorem log2_le_log2_div {n d : Nat} (hn : 0 < n) (hd : 0 < d) :
    n.log2 ≤ (n / d).log2 + 1 + d.log2 := by
  by_contra hgap
  have hquotient : n < 2 ^ ((n / d).log2 + 1) * d :=
    (Nat.div_lt_iff_lt_mul hd).1 Nat.lt_log2_self
  have hproduct : 2 ^ ((n / d).log2 + 1) * d ≤ 2 ^ ((n / d).log2 + 1) * 2 ^ (d.log2 + 1) :=
    Nat.mul_le_mul_left _ Nat.lt_log2_self.le
  have hpower : 2 ^ ((n / d).log2 + 1 + (d.log2 + 1)) ≤ 2 ^ n.log2 :=
    Nat.pow_le_pow_right (by decide) (by omega)
  rw [← Nat.pow_add] at hproduct
  exact absurd (hquotient.trans_le (hproduct.trans (hpower.trans (Nat.log2_self_le hn.ne'))))
    (Nat.lt_irrefl n)

/-- A power of two as a factor adds its exponent to the number of digits. -/
theorem log2_add_le {n : Nat} (hn : 0 < n) (k : Nat) : n.log2 + k ≤ (n * 2 ^ k).log2 := by
  refine (Nat.le_log2 (Nat.mul_pos hn (Nat.two_pow_pos k)).ne').2 ?_
  rw [Nat.pow_add]
  exact Nat.mul_le_mul_right _ (Nat.log2_self_le hn.ne')

/-- A quotient is rounded to the nearest floating-point number. -/
theorem div_eq (s₁ s₂ : Sign) {m₁ m₂ : Nat} {e₁ e₂ : Int} (h₁ : 0 < m₁) (h₂ : 0 < m₂) {m : Nat}
    {q : Int} (hc : Canonical m q)
    (hv : (Rounding.around m q).Holds (m₁ * 2 ^ e₁ / (m₂ * 2 ^ e₂))) :
    UnpackedFloat.div Format.binary64 (.finite s₁ m₁ e₁ h₁) (.finite s₂ m₂ e₂ h₂) =
      .finite (s₁ / s₂) m q hc.pos := by
  generalize hexponent : totalExponent m₁ e₁ - totalExponent m₂ e₂ = total
  generalize he : min (e₁ - e₂) (Format.binary64.targetExponent total) = e
  obtain ⟨k, hk⟩ : ∃ k : Nat, e + k = e₁ - e₂ := Int.le.dest (by omega)
  have hshift : (e₁ - e₂ - e).toNat = k := by omega
  have hcore : divCore Format.binary64 m₁ e₁ m₂ e₂ = (m₁ * 2 ^ k / m₂, e,
      accuracyOfFraction (m₁ * 2 ^ k % m₂) m₂) := by
    simp only [divCore, hexponent, he, hshift, Nat.shiftLeft_eq]
  have hvalue : (m₁ : ℚ) * 2 ^ e₁ / (m₂ * 2 ^ e₂) = (m₁ * 2 ^ k : Nat) / m₂ * 2 ^ e := by
    obtain rfl : e₁ = e + k + e₂ := by omega
    rw [zpow_add₀ (by norm_num), zpow_add₀ (by norm_num), zpow_natCast]
    push_cast
    field_simp
  -- the quotient is not cut short
  have hbits : total ≤ totalExponent (m₁ * 2 ^ k / m₂) e := by
    have hquotient := log2_le_log2_div (Nat.mul_pos h₁ (Nat.two_pow_pos k)) h₂
    have hlog := log2_add_le h₁ k
    rw [totalExponent, totalExponent] at hexponent
    rw [totalExponent]
    omega
  have htarget : e ≤ Format.binary64.targetExponent (totalExponent (m₁ * 2 ^ k / m₂) e) := by
    rw [targetExponent_eq] at he ⊢
    omega
  rw [hvalue] at hv
  have hround := roundWithAccuracy_eq (s₁ / s₂) h₂ htarget hc hv
  simp only [UnpackedFloat.div, hcore, hround]

/-- An integer is rounded to the nearest floating-point number. -/
theorem ofNat_eq {n m : Nat} {q : Int} (hc : Canonical m q)
    (hv : (Rounding.around m q).Holds n) (hn : 0 < n) :
    UnpackedFloat.ofNat Format.binary64 n = .finite .positive m q hc.pos := by
  generalize htarget : Format.binary64.targetExponent (totalExponent n 0) = t
  have he : -((0 - t).toNat : Int) ≤
      Format.binary64.targetExponent (totalExponent (n * 2 ^ (0 - t).toNat / 1)
        (-((0 - t).toNat : Int))) := by
    have hlog := log2_add_le hn (0 - t).toNat
    rw [targetExponent_eq, totalExponent] at htarget ⊢
    rw [Nat.div_one]
    omega
  -- The integer is first written with as many zeros behind it as the target exponent asks for.
  have hvalue : (n : ℚ) = (n * 2 ^ (0 - t).toNat : Nat) / (1 : Nat) *
      2 ^ (-((0 - t).toNat : Int)) := by
    rw [zpow_neg, zpow_natCast]
    push_cast
    field_simp
  rw [hvalue] at hv
  have hround := roundWithAccuracy_eq .positive Nat.one_pos he hc hv
  have haccuracy : accuracyOfFraction (n * 2 ^ (0 - t).toNat % 1) 1 = .exact := by
    rw [Nat.mod_one]
    rfl
  rw [Nat.div_one, haccuracy] at hround
  have hpos : compare (n : Int) 0 = .gt := Int.compare_eq_gt.2 (by omega)
  simp only [UnpackedFloat.ofNat, UnpackedFloat.ofInt, UnpackedFloat.normalize, hpos,
    UnpackedFloat.round, Int.toNat_natCast, htarget, decreaseExponent, Nat.shiftLeft_eq]
  simp only [Int.zero_sub] at hround ⊢
  exact hround

end AdaptiveRouting
