import AdaptiveRouting.Proofs.Statistics
import AdaptiveRouting.Routing.Hyperbolic

/-!
# Hyperbolic distances

A distance that is a number is at least zero (`exists_hyperbolicDistance?`), and a position that is
given in real numbers is at no distance from itself (`hyperbolicDistance?_self`).
-/

namespace AdaptiveRouting

open Quantity (number)

/-- Cut off from below at 1, every quantity is a number. -/
theorem exists_greater_one (a : Quantity) : ∃ z, 1 ≤ z ∧ Scalar.greater a 1.0 = number z := by
  rw [Quantity.one_eq]
  cases a with
  | number x => exact ⟨max x 1, le_max_right x 1, Quantity.greater_number x 1⟩
  | undefined =>
    refine ⟨1, le_rfl, if_neg ?_⟩
    simp

/-- The inverse of the hyperbolic cosine, by its logarithm. -/
theorem arcosh_number {z : ℝ} (h : 1 ≤ z) :
    Scalar.arcosh (number z) = number (Real.log (z + √(z - 1) * √(z + 1))) := by
  have hbelow : 0 ≤ z - 1 := sub_nonneg.2 h
  have habove : 0 ≤ z + 1 := by linarith
  have hpos : 0 < z + √(z - 1) * √(z + 1) := by positivity
  rw [Scalar.arcosh, Quantity.one_eq, Quantity.number_sub_number, Quantity.number_add_number,
    Quantity.sqrt_number hbelow, Quantity.sqrt_number habove, Quantity.number_mul_number,
    Quantity.number_add_number, Quantity.ln_number hpos]

/-- The inverse of the hyperbolic cosine is at least zero. -/
theorem exists_arcosh {z : ℝ} (h : 1 ≤ z) :
    ∃ x, 0 ≤ x ∧ Scalar.arcosh (number z) = number x := by
  have hle : z ≤ z + √(z - 1) * √(z + 1) := le_add_of_nonneg_right (by positivity)
  exact ⟨_, Real.log_nonneg (h.trans hle), arcosh_number h⟩

/-- A distance that is a number is at least zero. -/
theorem exists_distanceAtAngle {r s delta : Quantity}
    (h : Scalar.isFinite (distanceAtAngle r s delta) = true) :
    ∃ x, 0 ≤ x ∧ distanceAtAngle r s delta = number x := by
  unfold distanceAtAngle at h ⊢
  split
  · next hdelta =>
    rw [if_pos hdelta] at h
    cases hdiff : r - s with
    | number y => exact ⟨|y|, abs_nonneg y, Quantity.abs_number y⟩
    | undefined =>
      rw [hdiff] at h
      cases h
  · obtain ⟨z, hz, heq⟩ := exists_greater_one
      (Scalar.cosh r * Scalar.cosh s - Scalar.sinh r * Scalar.sinh s * Scalar.cos delta)
    obtain ⟨x, hx, harcosh⟩ := exists_arcosh hz
    exact ⟨x, hx, heq ▸ harcosh⟩

/-- A finite distance is a number that is not negative. -/
theorem exists_hyperbolicDistance? {a b : Coordinate Quantity} {cost : Quantity}
    (h : hyperbolicDistance? a b = some cost) (hfinite : Scalar.isFinite cost = true) :
    ∃ x, 0 ≤ x ∧ cost = number x := by
  unfold hyperbolicDistance? at h
  split at h
  · cases h
  · cases h
    exact exists_distanceAtAngle hfinite

/-! ## Positions at no distance -/

/-- `direction` of real numbers. -/
noncomputable def exactDirection (sines : ℝ) : List ℝ → List ℝ
  | [] => [sines]
  | angle :: rest => sines * Real.cos angle :: exactDirection (sines * Real.sin angle) rest

/-- The direction of numbers is one of numbers. -/
theorem direction_number (sines : ℝ) (angles : List ℝ) :
    direction (number sines) (angles.map number) = (exactDirection sines angles).map number := by
  induction angles generalizing sines with
  | nil => rfl
  | cons angle rest ih =>
    rw [List.map_cons, direction, Quantity.cos_number, Quantity.sin_number,
      Quantity.number_mul_number, Quantity.number_mul_number, ih]
    rfl

/-- A direction has the length that it starts with. -/
theorem sum_exactDirection (sines : ℝ) (angles : List ℝ) :
    ((exactDirection sines angles).map fun x => x * x).sum = sines * sines := by
  induction angles generalizing sines with
  | nil => simp [exactDirection]
  | cons angle rest ih =>
    rw [exactDirection, List.map_cons, List.sum_cons, ih]
    calc sines * Real.cos angle * (sines * Real.cos angle) +
          sines * Real.sin angle * (sines * Real.sin angle)
        = sines * sines * (Real.sin angle ^ 2 + Real.cos angle ^ 2) := by ring
      _ = sines * sines := by rw [Real.sin_sq_add_cos_sq, mul_one]

/-- No angle lies between a direction and itself. -/
theorem angleBetween_self (angles : List ℝ) :
    angleBetween (angles.map number) (angles.map number) = number 0 := by
  have hdot : Scalar.dot (direction 1.0 (angles.map number)) (direction 1.0 (angles.map number)) =
      number 1 := by
    rw [Quantity.one_eq, direction_number, Scalar.dot, List.zipWith_self, List.map_map]
    have hsquares : ((fun a : Quantity => a * a) ∘ number) = number ∘ fun x => x * x :=
      funext fun x => Quantity.number_mul_number x x
    rw [hsquares, ← List.map_map, Scalar.sum_number, sum_exactDirection, mul_one]
  have hclamp : Scalar.clamp (number 1) (-1.0) 1.0 = number 1 := by
    rw [Quantity.one_eq, Quantity.neg_number, Scalar.clamp, if_neg (by norm_num), if_neg (by simp)]
  rw [angleBetween, hdot, hclamp, Quantity.arccos_number (by norm_num), Real.arccos_one]

/-- A position is at no distance from itself. -/
theorem hyperbolicDistance?_self {r : ℝ} {angles : List ℝ} (h : angles ≠ []) :
    hyperbolicDistance? ⟨number r, angles.map number⟩ ⟨number r, angles.map number⟩ =
      some (number 0) := by
  rw [hyperbolicDistance?, if_neg (by simpa using h), angleBetween_self]
  simp [distanceAtAngle, Quantity.zero_eq]

end AdaptiveRouting
