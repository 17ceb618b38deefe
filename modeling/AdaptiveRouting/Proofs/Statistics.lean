import AdaptiveRouting.Proofs.Quantity
import AdaptiveRouting.Statistics
import AdaptiveRouting.Time.Duration
import Mathlib.Data.Set.List

/-!
# Statistics of numbers

Whatever is computed from a sample of numbers is a number, in exact arithmetic, and a coefficient of
variation is at least zero. Round-trip times enter as whole milliseconds, so samples of them are
samples of numbers that are at least zero (`Duration.wholeMillis_eq`).
-/

namespace AdaptiveRouting

open Quantity (number)

/-- Whole milliseconds are a number. -/
theorem Duration.wholeMillis_eq (d : Duration) :
    (Duration.wholeMillis d : Quantity) = number (Nat.div d 1000000) := rfl

/-- A list of numbers can be taken as a list of real ones. -/
theorem exists_map_number {xs : List Quantity} (h : ∀ a ∈ xs, ∃ x, number x = a) :
    ∃ ys : List ℝ, ys.map number = xs := by
  have hrange : xs ∈ Set.range (List.map number) := by
    rw [Set.range_list_map]
    exact h
  exact hrange

/-- A sum of numbers is a number. -/
theorem Scalar.sum_number (xs : List ℝ) : Scalar.sum (xs.map number) = number xs.sum := by
  have hfold : ∀ (xs : List ℝ) (a : ℝ),
      (xs.map number).foldl (· + ·) (number a) = number (a + xs.sum) := by
    intro xs
    induction xs with
    | nil => simp
    | cons x xs ih =>
      intro a
      rw [List.map_cons, List.foldl_cons, Quantity.number_add_number, ih, List.sum_cons, add_assoc]
  rw [Scalar.sum, Quantity.zero_eq, hfold, zero_add]

section
variable {xs : List ℝ}

/-- A number can be divided by the length of a list that is not empty. -/
theorem div_length_number (h : xs ≠ []) (x : ℝ) :
    number x / Scalar.ofCount xs.length = number (x / xs.length) := by
  rw [Quantity.ofCount_eq]
  exact Quantity.number_div_number (Nat.cast_ne_zero.2 (List.length_eq_zero_iff.not.2 h))

/-- The mean of numbers is a number. -/
theorem mean?_number (h : xs ≠ []) :
    mean? (xs.map number) = some (number (xs.sum / xs.length)) := by
  rw [mean?, if_neg (by simpa using h), Scalar.sum_number, List.length_map, div_length_number h]

/-- A mean with zero for nothing is a number. -/
theorem exists_getD_mean? (xs : List ℝ) : ∃ m, (mean? (xs.map number)).getD 0.0 = number m := by
  by_cases h : xs = []
  · subst h
    exact ⟨0, Quantity.zero_eq⟩
  · exact ⟨_, by rw [mean?_number h, Option.getD_some]⟩

/-! ## Variation -/

/-- The mean of numbers. -/
noncomputable def exactMean (xs : List ℝ) : ℝ := xs.sum / xs.length

/-- The mean of what a function makes of numbers. -/
theorem exactMean_map (f : ℝ → ℝ) (xs : List ℝ) :
    exactMean (xs.map f) = (xs.map f).sum / xs.length := by
  rw [exactMean, List.length_map]

/-- The mean of their squared distances to their mean. -/
noncomputable def exactSpread (xs : List ℝ) : ℝ :=
  exactMean (xs.map fun x => (x - exactMean xs) ^ 2)

/-- A spread is not negative. -/
theorem exactSpread_nonneg (xs : List ℝ) : 0 ≤ exactSpread xs := by
  refine div_nonneg (List.sum_nonneg ?_) (Nat.cast_nonneg _)
  intro y hy
  obtain ⟨x, -, rfl⟩ := List.mem_map.1 hy
  exact sq_nonneg _

/-- The spread of numbers is a number. -/
theorem spreadAround_number (h : xs ≠ []) :
    spreadAround (number (exactMean xs)) (xs.map number) = number (exactSpread xs) := by
  have hsquares : (xs.map number).map
        (fun x => (x - number (exactMean xs)) * (x - number (exactMean xs))) =
      (xs.map fun x => (x - exactMean xs) ^ 2).map number := by
    simp [pow_two]
  rw [spreadAround, hsquares, Scalar.sum_number, List.length_map, div_length_number h, exactSpread,
    exactMean_map]

/-- A coefficient of variation is the root of the spread as a fraction of the mean. -/
theorem variation?_eq (h : xs ≠ []) : variation? (xs.map number) =
    if exactMean xs ≤ 0 then none else some (number (√(exactSpread xs) / exactMean xs)) := by
  rw [variation?, mean?_number h, ← exactMean]
  dsimp only
  rw [Quantity.zero_eq]
  by_cases hmean : exactMean xs ≤ 0
  · rw [if_pos (Quantity.number_le_number.2 hmean), if_pos hmean]
  · rw [if_neg (Quantity.number_le_number.not.2 hmean), if_neg hmean, spreadAround_number h,
      Quantity.greater_number, max_eq_left (exactSpread_nonneg xs),
      Quantity.sqrt_number (exactSpread_nonneg xs),
      Quantity.number_div_number (not_le.1 hmean).ne']

/-- It is at least zero. -/
theorem variation?_number (xs : List ℝ) :
    variation? (xs.map number) = none ∨
      ∃ v, 0 ≤ v ∧ variation? (xs.map number) = some (number v) := by
  by_cases h : xs = []
  · subst h
    exact .inl rfl
  rw [variation?_eq h]
  split
  · exact .inl rfl
  next hmean => exact .inr ⟨_, div_nonneg (Real.sqrt_nonneg _) (not_le.1 hmean).le, rfl⟩

/-- The mean is scaled with the numbers. -/
theorem exactMean_scaled (c : ℝ) (xs : List ℝ) :
    exactMean (xs.map (c * ·)) = c * exactMean xs := by
  rw [exactMean_map, List.sum_map_mul_left, List.map_id', mul_div_assoc, exactMean]

/-- The spread is scaled with the square. -/
theorem exactSpread_scaled (c : ℝ) (xs : List ℝ) :
    exactSpread (xs.map (c * ·)) = c ^ 2 * exactSpread xs := by
  have hsquares : (xs.map (c * ·)).map (fun x => (x - c * exactMean xs) ^ 2) =
      (xs.map fun x => (x - exactMean xs) ^ 2).map (c ^ 2 * ·) := by
    rw [List.map_map, List.map_map]
    refine List.map_congr_left fun x _ => ?_
    show (c * x - c * exactMean xs) ^ 2 = c ^ 2 * (x - exactMean xs) ^ 2
    ring
  rw [exactSpread, exactMean_scaled, hsquares, exactMean_scaled, exactSpread]

/-- It does not depend on the unit of measurement. -/
theorem variation?_scaled {c : ℝ} (hc : 0 < c) (xs : List ℝ) :
    variation? ((xs.map (c * ·)).map number) = variation? (xs.map number) := by
  by_cases h : xs = []
  · subst h
    rfl
  have hsign : c * exactMean xs ≤ 0 ↔ exactMean xs ≤ 0 := by
    rw [← not_lt, ← not_lt, mul_pos_iff_of_pos_left hc]
  rw [variation?_eq h, variation?_eq (by simpa using h), exactMean_scaled, exactSpread_scaled,
    if_congr hsign rfl rfl, Real.sqrt_mul (sq_nonneg c), Real.sqrt_sq hc.le,
    mul_div_mul_left _ _ hc.ne']

end

end AdaptiveRouting
