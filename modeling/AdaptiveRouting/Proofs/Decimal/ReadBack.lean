import AdaptiveRouting.Decimal.Reading
import AdaptiveRouting.Proofs.Decimal.Packing
import AdaptiveRouting.Proofs.Decimal.Positional
import AdaptiveRouting.Proofs.Decimal.Shortest

/-!
# Numbers read back

Every floating-point number is read back from what is written for it (`Numeral.read?_plain`). A
finite one is written as a decimal within the bounds of its rounding, and reading rounds the decimal
(`unpack_ofScientific`): it divides two floating-point numbers where the digits and the power of ten
are such numbers, and two integers otherwise. The shortcuts that reading takes for very small
numbers do not apply, since the places of a decimal that is not rounded to zero are bounded by its
digits (`places_le`, `places_le_log2`).
-/

namespace AdaptiveRouting

open Float.Model Float.Model.UnpackedFloat
open Magnitude (isNegative ofFloat)

/-! ## Quotients by powers of ten -/

/-- A floating-point number is rounded to itself. -/
theorem Rounding.holds_self {m : Nat} (hm : 0 < m) (q : Int) :
    (Rounding.around m q).Holds (m * 2 ^ q) := by
  have hvalue : (m : ℚ) * 2 ^ q = (4 * m : Nat) / (1 : Nat) * 2 ^ (Rounding.around m q).unit := by
    change _ = _ * (2 : ℚ) ^ (q - 2)
    rw [zpow_sub₀ (by norm_num)]
    push_cast
    norm_num
    ring
  have hlow := Rounding.low_around_lt hm q
  have hhigh : 4 * m < (Rounding.around m q).high := Nat.lt_add_of_pos_right (by decide)
  rw [hvalue, Rounding.holds_iff_admits Nat.one_pos, Rounding.admits]
  split <;> simp <;> omega

/-- A positive integer of 53 bits is a floating-point number as it is. -/
theorem exists_canonical {n : Nat} (hn : 0 < n) (hbound : n < 2 ^ 53) :
    ∃ m q, Canonical m q ∧ q ≤ 0 ∧ (m : ℚ) * 2 ^ q = n := by
  have hlog := (Nat.log2_lt hn.ne').2 hbound
  obtain ⟨k, hk⟩ : ∃ k, n.log2 + k = 52 := ⟨52 - n.log2, by omega⟩
  refine ⟨n * 2 ^ k, -k, ⟨by positivity, ?_, by omega, .inr ?_⟩, by omega, ?_⟩
  · calc n * 2 ^ k < 2 ^ (n.log2 + 1) * 2 ^ k :=
          (Nat.mul_lt_mul_right (by positivity)).2 Nat.lt_log2_self
      _ = 2 ^ 53 := by rw [← Nat.pow_add]; congr 1; omega
  · calc 2 ^ 52 = 2 ^ n.log2 * 2 ^ k := by rw [← Nat.pow_add, hk]
      _ ≤ n * 2 ^ k := Nat.mul_le_mul_right _ (Nat.log2_self_le hn.ne')
  · rw [zpow_neg, zpow_natCast]
    push_cast
    field_simp

/-- A count below `2 ^ 53` is held exactly. -/
theorem unpack_ofNat {n : Nat} (hn : 0 < n) (hbound : n < 2 ^ 53) :
    ∃ m q, ∃ h : 0 < m, n.toUInt64.toFloat.toModel.unpack = .finite .positive m q h ∧
      (m : ℚ) * 2 ^ q = n := by
  obtain ⟨m, q, hc, hq, hvalue⟩ := exists_canonical hn hbound
  have hnat : n.toUInt64.toNat = n := Nat.mod_eq_of_lt (by omega)
  have hround := ofNat_eq hc (hvalue ▸ Rounding.holds_self hc.pos q) hn
  refine ⟨m, q, hc.pos, ?_, hvalue⟩
  change (Float.Model.pack (UnpackedFloat.ofNat Format.binary64 n.toUInt64.toNat)).unpack = _
  rw [hnat, hround, unpack_pack _ hc (by omega)]

/-- The powers of ten in the table are floating-point numbers as they are. -/
theorem unpack_powerOfTen {e : Nat} (he : e < Float.exactlyRepresentablePowersOfTen.size) :
    ∃ m q, ∃ h : 0 < m,
      Float.exactlyRepresentablePowersOfTen[e].toModel.unpack = .finite .positive m q h ∧
        (m : ℚ) * 2 ^ q = 10 ^ e := by
  -- The table is closed, so its twenty-three entries can be gone through.
  have hall : ∀ e, ∀ he : e < 23, 0 < 10 ^ e * 2 ^ 52 / 2 ^ (10 ^ e).log2 ∧
      10 ^ e * 2 ^ 52 / 2 ^ (10 ^ e).log2 * 2 ^ (10 ^ e).log2 = 10 ^ e * 2 ^ 52 ∧
      isNegative Float.exactlyRepresentablePowersOfTen[e] = false ∧
      ofFloat Float.exactlyRepresentablePowersOfTen[e] =
        .finite (10 ^ e * 2 ^ 52 / 2 ^ (10 ^ e).log2) ((10 ^ e).log2 - 52) := by
    decide +kernel
  obtain ⟨hpos, hvalue, hsign, hfloat⟩ := hall e he
  generalize 10 ^ e * 2 ^ 52 / 2 ^ (10 ^ e).log2 = m at *
  generalize (10 ^ e).log2 = l at *
  refine ⟨m, l - 52, hpos, ?_, ?_⟩
  · rw [unpack_toModel, unpacked, hfloat, signOf, hsign]
    simp only [hpos, dite_true, Bool.false_eq_true, if_false]
  · have hvalue' : (m : ℚ) * 2 ^ l = 10 ^ e * 2 ^ 52 := by exact_mod_cast hvalue
    rw [zpow_sub₀ (by norm_num), zpow_natCast, ← mul_div_assoc, hvalue']
    exact mul_div_cancel_right₀ _ (by norm_num)

/-- What lies below `2 ^ -underflow` is rounded to zero. -/
def underflow : Nat := 1075

/-- A decimal fraction that is not rounded to zero has only so many places. -/
theorem ten_pow_le {n e m : Nat} {q : Int} (hc : Canonical m q)
    (hv : (Rounding.around m q).Holds (n / 10 ^ e)) : 10 ^ e ≤ n * 2 ^ underflow := by
  have hleast : (2 : ℚ) ^ (-(underflow : Int)) ≤ n / 10 ^ e := hc.least_le hv
  rw [zpow_neg, zpow_natCast, le_div_iff₀ (by positivity), inv_mul_le_iff₀ (by positivity),
    mul_comm] at hleast
  exact_mod_cast hleast

/-- Each power of ten has room for three binary digits. -/
theorem two_pow_le_ten_pow (k : Nat) : 2 ^ (3 * k) ≤ 10 ^ k := by
  rw [Nat.pow_mul]
  exact Nat.pow_le_pow_left (by decide) k

/-- In digits: the places are not many more than the digits. -/
theorem places_le {n e : Nat} (h : 10 ^ e ≤ n * 2 ^ underflow) :
    e < exponentBound + (Nat.toDigits 10 n).length := by
  have hn : n < 10 ^ (Nat.toDigits 10 n).length :=
    (Nat.length_toDigits_le_iff (by decide) Nat.length_toDigits_pos).1 le_rfl
  have hbound : 2 ^ underflow ≤ 10 ^ exponentBound :=
    (Nat.pow_le_pow_right (by decide) (by decide)).trans (two_pow_le_ten_pow exponentBound)
  refine (Nat.pow_lt_pow_iff_right (by decide : 1 < 10)).1 ?_
  calc 10 ^ e ≤ n * 2 ^ underflow := h
    _ ≤ n * 10 ^ exponentBound := Nat.mul_le_mul_left n hbound
    _ < 10 ^ (Nat.toDigits 10 n).length * 10 ^ exponentBound :=
      (Nat.mul_lt_mul_right (Nat.pow_pos (by decide))).2 hn
    _ = 10 ^ (exponentBound + (Nat.toDigits 10 n).length) := by rw [← Nat.pow_add, Nat.add_comm]

/-- In bits. -/
theorem places_le_log2 {n e : Nat} (h : 10 ^ e ≤ n * 2 ^ underflow) :
    3 * e < n.log2 + 1 + underflow := by
  refine (Nat.pow_lt_pow_iff_right (by decide : 1 < 2)).1 ?_
  calc 2 ^ (3 * e) ≤ 10 ^ e := two_pow_le_ten_pow e
    _ ≤ n * 2 ^ underflow := h
    _ < 2 ^ (n.log2 + 1) * 2 ^ underflow :=
      (Nat.mul_lt_mul_right (Nat.two_pow_pos _)).2 Nat.lt_log2_self
    _ = 2 ^ (n.log2 + 1 + underflow) := (Nat.pow_add _ _ _).symm

/-- A decimal fraction is rounded to the nearest floating-point number. -/
theorem unpack_ofScientific {n e : Nat} (he : 0 < e) {m : Nat} {q : Int} (hc : Canonical m q)
    (hq : q ≤ 971) (hv : (Rounding.around m q).Holds (n / 10 ^ e)) :
    (Float.ofScientific n true e).toModel.unpack = .finite .positive m q hc.pos := by
  have hplaces := ten_pow_le hc hv
  have hn : 0 < n := by
    refine Nat.pos_of_ne_zero ?_
    rintro rfl
    have : 0 < 10 ^ e := by positivity
    omega
  rw [Float.ofScientific]
  -- Small numbers are divided as floating-point numbers, which is exact up to one rounding; the
  -- others are divided as integers.
  split
  · next hfast =>
    have hsize : e < Float.exactlyRepresentablePowersOfTen.size := Nat.lt_succ_of_le hfast.2
    obtain ⟨m₁, q₁, h₁, hunpack₁, hvalue₁⟩ := unpack_ofNat hn hfast.1
    obtain ⟨m₂, q₂, h₂, hunpack₂, hvalue₂⟩ := unpack_powerOfTen hsize
    change (Float.Model.pack (UnpackedFloat.div Format.binary64 n.toUInt64.toFloat.toModel.unpack
      Float.exactlyRepresentablePowersOfTen[e].toModel.unpack)).unpack = _
    rw [← hvalue₁, ← hvalue₂] at hv
    rw [hunpack₁, hunpack₂, div_eq _ _ h₁ h₂ hc hv]
    exact unpack_pack _ hc hq
  · change (Float.Model.pack (UnpackedFloat.ofScientific Format.binary64 n
      (Int.negOfNat e))).unpack = _
    have hneg : Int.negOfNat e = -(e : Int) := Int.negOfNat_eq
    have hshort := places_le_log2 hplaces
    rw [underflow] at hshort
    have hv' : (Rounding.around m q).Holds
        (n * 2 ^ (0 : Int) / ((10 ^ e : Nat) * 2 ^ (0 : Int))) := by
      simpa using hv
    rw [hneg, UnpackedFloat.ofScientific, dif_neg hn.ne', if_neg, if_neg, if_neg]
    · have hexponent : (- -(e : Int)).toNat = e := by omega
      simp only [hexponent]
      rw [div_eq _ _ hn _ hc hv']
      exact unpack_pack _ hc hq
    · omega
    · change ¬ -(e : Int) < -(2 ^ 11 + (n.log2 : Int))
      omega
    · change ¬ 2 ^ 11 < -(e : Int)
      omega

/-! ## Numbers with a sign -/

/-- A magnitude above zero is the unpacked number together with its sign. -/
theorem unpack_of_pos {x : Float} {m : Nat} {q : Int} (h : ofFloat x = .finite m q) (hm : 0 < m) :
    x.toModel.unpack = .finite (signOf x) m q hm := by
  rw [unpack_toModel, unpacked, h]
  exact dif_pos hm

/-- Reading a decimal fraction that is rounded to a number gives this number. -/
theorem toFloat_eq {x : Float} {m : Nat} {q : Int} (hx : ofFloat x = .finite m q) (hm : 0 < m)
    {n e : Nat} (he : 0 < e) (hv : (Rounding.around m q).Holds (n / 10 ^ e)) :
    Decimal.toFloat (isNegative x) n (-e) = x := by
  obtain ⟨hc, hq⟩ := canonical_of_ofFloat hx hm
  have hround := unpack_ofScientific he hc hq hv
  have hplaces := places_le (ten_pow_le hc hv)
  have hmagnitude : Decimal.toFloat (isNegative x) n (-e) =
      if isNegative x then -Float.ofScientific n true e else Float.ofScientific n true e := by
    have hneg : -(e : Int) < 0 := by omega
    have habs : (-(e : Int)).natAbs = e := by omega
    simp only [Decimal.toFloat, if_pos hneg, habs, if_neg (Nat.not_lt.2 hplaces.le)]
  apply float_ext
  rw [unpack_of_pos hx hm, hmagnitude, signOf]
  -- Negating is the last step, after rounding.
  cases isNegative x with
  | false => exact hround
  | true =>
    change (Float.Model.pack (UnpackedFloat.neg
      (Float.ofScientific n true e).toModel.unpack)).unpack = _
    rw [hround]
    exact unpack_pack .negative hc hq

/-! ## Texts -/

/-- What `positional` writes is the number that it was given. -/
theorem cast_positional {n places c : Nat} {k : Int}
    (h : n * 10 ^ (-k).toNat = c * 10 ^ k.toNat * 10 ^ places) :
    (c : ℚ) * 10 ^ k = n / 10 ^ places := by
  have h' : (n : ℚ) * 10 ^ (-k).toNat = c * 10 ^ k.toNat * 10 ^ places := by exact_mod_cast h
  have hk : (10 : ℚ) ^ k = 10 ^ k.toNat / 10 ^ (-k).toNat := by
    rw [← zpow_natCast, ← zpow_natCast, ← zpow_sub₀ (by norm_num)]
    congr 1
    omega
  rw [hk, ← mul_div_assoc, div_eq_div_iff (by positivity) (by positivity), ← h']

namespace Numeral

/-- The sign of a number as it is written. -/
def sign (x : Float) : String := if isNegative x then "-" else ""

/-- Zero is written with its sign and one digit on either side of the point, and reads back as the
zero of that sign. -/
theorem plain_zero {x : Float} {q : Int} (hx : ofFloat x = .finite 0 q) :
    (Decimal.plain style x).toList = (sign x).toList ++ (Nat.toDigits 10 0 ++ '.' :: ['0']) ∧
      Decimal.toFloat (isNegative x) (ofDigits (Nat.toDigits 10 0 ++ ['0'])) (-1) = x := by
  constructor
  · rw [Decimal.plain, hx]
    change (sign x ++ "0" ++ ".0").toList = _
    rw [String.toList_append, String.toList_append, List.append_assoc]
    rfl
  · refine Eq.symm (float_ext ?_)
    rw [unpack_toModel, unpacked, hx, signOf]
    cases isNegative x <;> rfl

/-- Any other number is written in its shortest decimal digits, behind its sign. -/
theorem plain_positional {x : Float} {m : Nat} {q : Int} (hx : ofFloat x = .finite m q)
    (hm : 0 < m) :
    (Decimal.plain style x).toList = (sign x).toList ++
      (positional ".0" (shortestDecimal m q).1 (shortestDecimal m q).2).toList := by
  obtain ⟨m, rfl⟩ := Nat.exists_eq_succ_of_ne_zero hm.ne'
  rw [← String.toList_append, Decimal.plain, hx]
  rfl

/-- A finite number is written as a decimal fraction that is rounded to it. -/
theorem exists_toList_plain {x : Float} {m : Nat} {q : Int} (hx : ofFloat x = .finite m q) :
    ∃ whole behind, (Decimal.plain style x).toList =
        (sign x).toList ++ (Nat.toDigits 10 whole ++ '.' :: behind) ∧
      behind ≠ [] ∧ (∀ c ∈ behind, c.isDigit = true) ∧
      Decimal.toFloat (isNegative x) (ofDigits (Nat.toDigits 10 whole ++ behind))
        (-behind.length) = x := by
  rcases Nat.eq_zero_or_pos m with rfl | hm
  · obtain ⟨htext, hvalue⟩ := plain_zero hx
    exact ⟨0, ['0'], htext, by simp, by simp, hvalue⟩
  · obtain ⟨hc, -⟩ := canonical_of_ofFloat hx hm
    obtain ⟨c, k, hshortest, hholds⟩ := shortestDecimal_holds hm hc.bound q
    obtain ⟨whole, behind, htext, hne, hdigits, hvalue⟩ := toList_positional c k
    rw [cast_positional hvalue] at hholds
    refine ⟨whole, behind, ?_, hne, hdigits,
      toFloat_eq hx hm (List.length_pos_iff.2 hne) hholds⟩
    rw [plain_positional hx hm, hshortest, htext]

/-- A finite number is none of the names. -/
theorem finite?_eq {x : Float} {m : Nat} {q : Int} (hx : ofFloat x = .finite m q) {n : Nat}
    {e : Int} (h : Decimal.toFloat (isNegative x) n e = x) :
    finite? (isNegative x) n e = some (.number x) := by
  have hinfinite : (x == 1.0 / 0.0) = false := by
    change UnpackedFloat.beq x.toModel.unpack (.infinity .positive) = false
    rw [unpack_toModel, unpacked, hx]
    dsimp only
    split <;> cases signOf x <;> rfl
  simp only [finite?, h, hinfinite, Bool.false_eq_true, if_false]

/-- Reading undoes writing, for every number. -/
theorem read?_plain (x : Float) : read? (Decimal.plain style x).toList = some (.number x) := by
  cases hx : ofFloat x with
  | undefined =>
    -- All undefined numbers unpack alike, so the one that is read is the one that was written.
    have hnan : 0.0 / 0.0 = x := by
      refine Eq.symm (float_ext ?_)
      rw [unpack_toModel, unpacked, hx]
      rfl
    rw [Decimal.plain, hx, ← hnan]
    rfl
  | infinite =>
    have hinf : (if isNegative x then -1.0 / 0.0 else 1.0 / 0.0) = x := by
      refine Eq.symm (float_ext ?_)
      rw [unpack_toModel, unpacked, hx, signOf]
      cases isNegative x <;> rfl
    rw [Decimal.plain, hx]
    refine Eq.trans ?_ (congrArg (fun x => some (Datum.number x)) hinf)
    cases isNegative x <;> rfl
  | finite m q =>
    obtain ⟨whole, behind, htext, hne, hdigits, hvalue⟩ := exists_toList_plain hx
    rw [htext, sign, read?_decimal _ _ hne hdigits]
    exact finite?_eq hx hvalue

end Numeral

end AdaptiveRouting
