import AdaptiveRouting.Proofs.Pricing.Prices
import AdaptiveRouting.Proofs.Statistics

/-!
# The ranges of features

Features are computed from round-trip times and from a performance score, and each of them lies in
the range that it is documented to have, whatever the numbers are that it is computed from
(`Features.exists_extract`).
-/

namespace AdaptiveRouting

open Quantity (number Between)

namespace Features

/-- Features in their ranges. -/
structure InRange (f : Features ℝ) : Prop where
  trend : f.trend ∈ Set.Icc (-1) 1
  variation : f.variation ∈ Set.Icc 0 1
  success : f.success ∈ Set.Icc 0 1
  load : f.load ∈ Set.Icc (-1) 1
  temporal : f.temporal ∈ Set.Icc 0 1

/-- What is moved into the range from -1 to 1 is in it. -/
theorem between_clamp_signed (x : ℝ) : Between (-1) 1 (Scalar.clamp (number x) (-1.0) 1.0) := by
  rw [Quantity.one_eq, Quantity.neg_number]
  exact Quantity.between_clamp (by norm_num) x

/-- A trend is between -1 and 1. -/
theorem between_trendOf (xs : List ℝ) : Between (-1) 1 (trendOf (xs.map number)) := by
  unfold trendOf
  split
  · exact Quantity.between_zero (by norm_num) zero_le_one
  obtain ⟨recent, hrecent⟩ := exists_getD_mean? (latest 5 xs)
  obtain ⟨old, hold⟩ := exists_getD_mean? ((latest 10 xs).take 5)
  rw [latest_map, latest_map, ← List.map_take, hrecent, hold]
  dsimp only
  split
  · next hpos =>
    have hne : old ≠ 0 := by
      rintro rfl
      simp [Quantity.zero_eq] at hpos
    rw [Quantity.number_div_number hne, Quantity.one_eq, Quantity.number_sub_number,
      ← Quantity.one_eq]
    exact between_clamp_signed _
  · exact Quantity.between_zero (by norm_num) zero_le_one

/-- A variation is between 0 and 1. -/
theorem between_variationOf (xs : List ℝ) : Between 0 1 (variationOf (xs.map number)) := by
  unfold variationOf
  split
  · exact Quantity.between_zero le_rfl zero_le_one
  rcases variation?_number xs with hv | ⟨v, hpos, hv⟩
  · rw [hv]
    exact ⟨1, Quantity.one_eq, zero_le_one, le_rfl⟩
  · rw [hv, Quantity.one_eq]
    exact Quantity.between_lesser zero_le_one hpos

/-- The share of successes is between 0 and 1. -/
theorem between_successOf (xs : List ℝ) (threshold : Quantity) :
    Between 0 1 (successOf (xs.map number) threshold) := by
  unfold successOf
  split
  · refine ⟨1 / 2, ?_, by norm_num, by norm_num⟩
    rw [Quantity.ofScientific_eq]
    norm_num
  next hsome =>
  have hne : xs ≠ [] := by simpa using hsome
  have hlength : 0 < (xs.length : ℝ) := Nat.cast_pos.2 (List.length_pos_iff.2 hne)
  rw [List.length_map, Quantity.ofCount_eq, div_length_number hne]
  refine ⟨_, rfl, by positivity, (div_le_one hlength).2 (Nat.cast_le.2 ?_)⟩
  exact List.countP_le_length.trans (by rw [List.length_map])

/-- A load is between -1 and 1. -/
theorem between_loadOf (xs : List ℝ) : Between (-1) 1 (loadOf (xs.map number)) := by
  have hzero : Between (-1) 1 0.0 := Quantity.between_zero (by norm_num) zero_le_one
  unfold loadOf
  split
  · exact hzero
  rw [latest_map]
  cases latest 3 xs with
  | nil => exact hzero
  | cons old rest =>
    rcases rest with _ | ⟨middle, _ | ⟨recent, _ | ⟨more, rest⟩⟩⟩
    · exact hzero
    · exact hzero
    · simp only [List.map_cons, List.map_nil, Quantity.hundred_eq, Quantity.number_sub_number]
      rw [Quantity.number_div_number (by norm_num)]
      exact between_clamp_signed _
    · exact hzero

/-- Features of numbers are numbers in their ranges. -/
theorem exists_extract (xs : List ℝ) (threshold : Quantity) (t : ℝ) :
    ∃ f : Features ℝ, f.InRange ∧ extract (xs.map number) threshold (number t) = f.exact := by
  obtain ⟨trend, htrend, hmin, hmax⟩ := between_trendOf xs
  obtain ⟨variation, hvariation, hvariation'⟩ := between_variationOf xs
  obtain ⟨success, hsuccess, hsuccess'⟩ := between_successOf xs threshold
  obtain ⟨load, hload, hload'⟩ := between_loadOf xs
  obtain ⟨temporal, htemporal, htemporal'⟩ := Quantity.between_clamp zero_le_one t
  refine ⟨⟨trend, variation, success, load, temporal⟩,
    ⟨⟨hmin, hmax⟩, hvariation', hsuccess', hload', htemporal'⟩, ?_⟩
  rw [extract, htrend, hvariation, hsuccess, hload, Quantity.zero_eq, Quantity.one_eq, htemporal]
  rfl

end Features

end AdaptiveRouting
