import AdaptiveRouting.Proofs.Decimal.Nearest

/-!
# The shortest decimal is rounded back

The search for the shortest decimal goes from coarse grids of decimals to finer ones and takes a
number of the grid that lies within the bounds (`Rounding.holds_of_onGrid?`). It always finds one: a
grid that is finer than the unit of the bounds has a number within them
(`Rounding.isSome_onGrid?`), and with seventeen digits the grid is that fine.
-/

namespace AdaptiveRouting

open Magnitude

namespace Magnitude

/-- Neither part of a power is zero. -/
theorem power_pos {base : Nat} (hbase : 0 < base) (e : Int) :
    0 < (power base e).1 ∧ 0 < (power base e).2 := by
  rw [power]
  split
  · exact ⟨Nat.pow_pos hbase, Nat.one_pos⟩
  · exact ⟨Nat.one_pos, Nat.pow_pos hbase⟩

/-- The two parts of a power make up the power as a rational number. -/
theorem cast_power {base : Nat} (hbase : 0 < base) (e : Int) :
    ((power base e).1 : ℚ) / (power base e).2 = (base : ℚ) ^ e := by
  have hbase' : (base : ℚ) ≠ 0 := by exact_mod_cast hbase.ne'
  rw [power]
  split
  · next h =>
    obtain ⟨n, rfl⟩ := Int.eq_ofNat_of_zero_le h
    simp
  · next h =>
    obtain ⟨n, hn⟩ := Int.eq_ofNat_of_zero_le (by omega : 0 ≤ -e)
    obtain rfl : e = -n := by omega
    simp

/-- The power of ten that is found is at most the fraction. -/
theorem decimalExponent_le {n d : Nat} (hn : 0 < n) (hd : 0 < d) :
    (10 : ℚ) ^ decimalExponent n d ≤ n / d := by
  have hd' : (0 : ℚ) < d := Nat.cast_pos.2 hd
  generalize hguess : (decimalLength n : Int) - decimalLength d = guess
  rw [decimalExponent, hguess]
  obtain ⟨-, hpos⟩ := power_pos (by decide : 0 < 10) guess
  have hpower := cast_power (by decide : 0 < 10) guess
  -- The guess from the lengths is too high by one at most.
  split
  · next hle =>
    push_cast at hpower
    rw [← hpower, div_le_div_iff₀ (Nat.cast_pos.2 hpos) hd', mul_comm]
    exact_mod_cast hle
  · have hn' : 10 ^ (decimalLength n - 1) ≤ n := by
      by_cases hone : decimalLength n - 1 = 0
      · rw [hone]
        exact hn
      · refine Nat.le_of_not_lt fun hlt => ?_
        have := (Nat.length_toDigits_le_iff (by decide) (Nat.pos_of_ne_zero hone)).2 hlt
        rw [decimalLength] at hone this
        omega
    have hd'' : d ≤ 10 ^ decimalLength d :=
      ((Nat.length_toDigits_le_iff (by decide) Nat.length_toDigits_pos).1 le_rfl).le
    have hlength : 0 < decimalLength n := Nat.length_toDigits_pos
    have hsplit : (10 : ℚ) ^ (guess - 1) * 10 ^ decimalLength d = 10 ^ (decimalLength n - 1) := by
      rw [← zpow_natCast, ← zpow_natCast, ← zpow_add₀ (by norm_num)]
      congr 1
      omega
    rw [le_div_iff₀ hd']
    calc (10 : ℚ) ^ (guess - 1) * d ≤ 10 ^ (guess - 1) * 10 ^ decimalLength d :=
          mul_le_mul_of_nonneg_left (by exact_mod_cast hd'') (by positivity)
      _ = 10 ^ (decimalLength n - 1) := hsplit
      _ ≤ n := by exact_mod_cast hn'

end Magnitude

namespace Rounding

variable {r : Rounding} {k : Int} {c : Nat}

/-- The width of the grid in units. -/
theorem grid_eq (unit k : Int) :
    (((power 10 k).1 * (power 2 unit).2 : Nat) : ℚ) / ((power 10 k).2 * (power 2 unit).1 : Nat) *
      2 ^ unit = 10 ^ k := by
  obtain ⟨-, h10⟩ := power_pos (by decide : 0 < 10) k
  obtain ⟨h2, h2'⟩ := power_pos (by decide : 0 < 2) unit
  have hk := cast_power (by decide : 0 < 10) k
  have hunit := cast_power (by decide : 0 < 2) unit
  push_cast at hk hunit ⊢
  rw [← hk, ← hunit]
  field_simp

/-- What is found on a grid lies within the rounding interval. -/
theorem holds_of_onGrid? (h : r.onGrid? k = some c) : r.Holds (c * 10 ^ k) := by
  have hadmits : r.admits (c * ((power 10 k).1 * (power 2 r.unit).2))
      ((power 10 k).2 * (power 2 r.unit).1) = true := by
    rw [onGrid?] at h
    split at h
    · next hbelow _ => cases h; exact hbelow
    · next _ habove => cases h; exact habove
    · next hbelow habove =>
      split at h
      · cases h; exact hbelow
      · cases h; exact habove
    · cases h
  have hd : 0 < (power 10 k).2 * (power 2 r.unit).1 :=
    Nat.mul_pos (power_pos (by decide) k).2 (power_pos (by decide) r.unit).1
  have hholds := (holds_iff_admits hd).2 hadmits
  rw [← grid_eq r.unit k]
  convert hholds using 1
  push_cast
  ring

/-- A grid that is finer than the unit has a number just below the value. -/
theorem isSome_onGrid? (hlow : r.low < r.value) (hhigh : r.value < r.high)
    (hfine : (10 : ℚ) ^ k < 2 ^ r.unit) : (r.onGrid? k).isSome := by
  have hgrid := grid_eq r.unit k
  have hn : 0 < (power 10 k).1 * (power 2 r.unit).2 :=
    Nat.mul_pos (power_pos (by decide) k).1 (power_pos (by decide) r.unit).2
  have hd : 0 < (power 10 k).2 * (power 2 r.unit).1 :=
    Nat.mul_pos (power_pos (by decide) k).2 (power_pos (by decide) r.unit).1
  rw [onGrid?]
  generalize (power 10 k).1 * (power 2 r.unit).2 = n at *
  generalize (power 10 k).2 * (power 2 r.unit).1 = d at *
  have hnd : n < d := by
    have hd' : (0 : ℚ) < d := Nat.cast_pos.2 hd
    have hu : (0 : ℚ) < 2 ^ r.unit := by positivity
    rw [← hgrid] at hfine
    have hlt : (n : ℚ) / d < 1 := by
      by_contra hge
      exact absurd hfine (not_lt.2 (le_mul_of_one_le_left hu.le (not_lt.1 hge)))
    rw [div_lt_one hd'] at hlt
    exact_mod_cast hlt
  -- The grid point just below the value is above the lower end, as the grid is finer than the unit.
  have hbelow : r.admits (r.value * d / n * n) d = true := by
    have hdiv := Nat.div_mul_le_self (r.value * d) n
    have hmod := Nat.lt_div_mul_add hn (a := r.value * d)
    have hlow' : (r.low + 1) * d ≤ r.value * d := Nat.mul_le_mul_right d hlow
    have hhigh' : (r.value + 1) * d ≤ r.high * d := Nat.mul_le_mul_right d hhigh
    rw [Nat.add_mul] at hlow' hhigh'
    rw [admits]
    split <;> simp <;> omega
  rw [hbelow]
  cases r.admits ((r.value * d / n + 1) * n) d with
  | false => rfl
  | true =>
    dsimp only
    split <;> rfl

/-- If some grid on the way down has a number in the interval, the search ends with a number of a
grid. -/
theorem search_spec {tries j : Nat} (hj : j < tries) (h : (r.onGrid? (k - j)).isSome) :
    ∃ c k', r.search k tries = (c, k') ∧ r.onGrid? k' = some c := by
  induction tries generalizing k j with
  | zero => cases hj
  | succ tries ih =>
    rw [search]
    cases hgrid : r.onGrid? k with
    | some c => exact ⟨c, k, rfl, hgrid⟩
    | none =>
      cases j with
      | zero => simp [hgrid] at h
      | succ j =>
        refine ih (Nat.lt_of_succ_lt_succ hj) ?_
        rwa [Int.sub_sub, Int.add_comm, ← Int.natCast_succ]

end Rounding

/-- The shortest decimal is one that is rounded to the number. -/
theorem shortestDecimal_holds {m : Nat} (hm : 0 < m) (hbound : m < 2 ^ 53) (q : Int) :
    ∃ c k, shortestDecimal m q = (c, k) ∧ (Rounding.around m q).Holds (c * 10 ^ k) := by
  obtain ⟨hp, hp'⟩ := power_pos (by decide : 0 < 2) q
  have hexponent := decimalExponent_le (Nat.mul_pos hm hp) hp'
  generalize hk : decimalExponent (m * (power 2 q).1) (power 2 q).2 = k at *
  have hvalue : ((m * (power 2 q).1 : Nat) : ℚ) / (power 2 q).2 = m * 2 ^ q := by
    have hpower := cast_power (by decide : 0 < 2) q
    push_cast at hpower ⊢
    rw [← hpower, mul_div_assoc]
  rw [hvalue] at hexponent
  -- seventeen digits are always enough
  have hfine : (10 : ℚ) ^ (k - (17 : Nat)) < 2 ^ (q - 2) := by
    have hm' : (m : ℚ) < 2 ^ 53 := by exact_mod_cast hbound
    have hq : (0 : ℚ) < 2 ^ q := by positivity
    rw [zpow_sub₀ (by norm_num), zpow_sub₀ (by norm_num), zpow_natCast, div_lt_iff₀ (by positivity)]
    calc (10 : ℚ) ^ k ≤ m * 2 ^ q := hexponent
      _ < 2 ^ 53 * 2 ^ q := (mul_lt_mul_iff_left₀ hq).2 hm'
      _ ≤ 10 ^ 17 / 4 * 2 ^ q := mul_le_mul_of_nonneg_right (by norm_num) hq.le
      _ = 2 ^ q / 2 ^ (2 : Int) * 10 ^ 17 := by
        norm_num
        ring
  have hsome : ((Rounding.around m q).onGrid? (k - (17 : Nat))).isSome := by
    refine Rounding.isSome_onGrid? (Rounding.low_around_lt hm q) ?_ hfine
    exact Nat.lt_add_of_pos_right (by decide)
  obtain ⟨c, k', hsearch, hgrid⟩ := Rounding.search_spec (by decide : 17 < 18) hsome
  refine ⟨c, k', ?_, Rounding.holds_of_onGrid? hgrid⟩
  rw [← hsearch, shortestDecimal, fraction, ← hk]

end AdaptiveRouting
