import AdaptiveRouting.Link.Cost
import AdaptiveRouting.Proofs.Quantity

/-!
# Round-trip costs in exact arithmetic

Before it is rounded, the cost of a round-trip time lies between the configured cost and the
multiple of it that may not be exceeded (`le_exactCost`, `exactCost_le`). It is rounded last, and
nothing holds the rounded cost within these bounds again: unless they are whole numbers themselves,
it can lie outside of them by as much as one half. `RoundedWithin` says of a cost where it comes
from and on which side of the bounds it lies.
-/

namespace AdaptiveRouting

open Quantity (number nearest)

/-- The cost of a link that is configured to cost `x` and may cost `k` times as much, with a given
average round-trip time, before it is rounded. -/
noncomputable def exactCost (k x : ℝ) (average : Duration) : ℝ :=
  min (x * (1 + Real.log (1 + ((average / 1000000 : ℕ) : ℝ) / 100))) (x * k)

section
variable {k x : ℝ} {average : Duration}

/-- The cost of a round-trip time is the exact one, rounded. -/
theorem rttCost_number (k x : ℝ) (average : Duration) :
    rttCost (number k) (number x) average = number (nearest (exactCost k x average)) := by
  have hmillis : (0 : ℝ) < 1 + ((average / 1000000 : ℕ) : ℝ) / 100 := by positivity
  have hhundred : (100.0 : Quantity) = number 100 := by
    rw [Quantity.ofScientific_eq]
    norm_num
  rw [rttCost, scaledCost, Duration.wholeMillis, Quantity.ofCount_eq, hhundred, Quantity.one_eq,
    Quantity.number_div_number (by norm_num), Quantity.number_add_number,
    Quantity.ln_number hmillis, Quantity.number_add_number, Quantity.number_mul_number,
    Quantity.number_mul_number, Quantity.lesser_number, Quantity.round_number, exactCost]

/-- A longer round-trip time does not lower the cost. -/
theorem exactCost_mono {average' : Duration} (hx : 0 ≤ x) (h : average ≤ average') :
    exactCost k x average ≤ exactCost k x average' := by
  have hmillis : ((average / 1000000 : ℕ) : ℝ) ≤ ((average' / 1000000 : ℕ) : ℝ) :=
    Nat.cast_le.2 (Nat.div_le_div_right h)
  unfold exactCost
  gcongr

/-- Rounding keeps this order. -/
theorem rttCost_mono {average' : Duration} (hx : 0 ≤ x) (h : average ≤ average') :
    rttCost (number k) (number x) average ≤ rttCost (number k) (number x) average' := by
  rw [rttCost_number, rttCost_number, Quantity.number_le_number]
  exact Quantity.monotone_nearest (exactCost_mono hx h)

/-- The cost is cut off at the multiple that is allowed. -/
theorem exactCost_le (k x : ℝ) (average : Duration) : exactCost k x average ≤ x * k :=
  min_le_right _ _

/-- No round-trip time brings a cost below the configured one. -/
theorem le_exactCost (hx : 0 ≤ x) (hk : 1 ≤ k) : x ≤ exactCost k x average := by
  have hlog : 0 ≤ Real.log (1 + ((average / 1000000 : ℕ) : ℝ) / 100) :=
    Real.log_nonneg (le_add_of_nonneg_right (by positivity))
  exact le_min (le_mul_of_one_le_right hx (by linarith)) (le_mul_of_one_le_right hx hk)

end

/-- The relative change of a cost that is not zero, in exact arithmetic. -/
theorem relativeChange_number {old : ℝ} (hold : old ≠ 0) (new : ℝ) :
    relativeChange (number old) (number new) = number (|new - old| / old) := by
  rw [relativeChange, Quantity.number_sub_number, Quantity.abs_number,
    Quantity.number_div_number hold]

/-- A cost is the whole number next to `y`, which lies within bounds. -/
structure RoundedWithin (low high y : ℝ) (cost : Quantity) : Prop where
  low_le : low ≤ y
  le_high : y ≤ high
  eq_nearest : cost = number (nearest y)
  /-- It is not rounded to below the bounds unless `y` is too far from a whole number in them. -/
  number_low_le_iff : number low ≤ cost ↔ ⌈low⌉ - 1 / 2 ≤ y
  /-- Nor above them. -/
  le_number_high_iff : cost ≤ number high ↔ y < ⌊high⌋ + 1 / 2

section
variable {low high y : ℝ} {cost : Quantity}

/-- What lies within bounds and is rounded last is rounded from within the bounds. -/
theorem roundedWithin_nearest (h : 0 ≤ low) (hlow : low ≤ y) (hhigh : y ≤ high) :
    RoundedWithin low high y (number (nearest y)) :=
  ⟨hlow, hhigh, rfl, Quantity.le_nearest_iff (h.trans hlow), Quantity.nearest_le_iff (h.trans hlow)⟩

end

/-- The cost of a round-trip time is within the bounds but for being rounded. -/
theorem roundedWithin_rttCost {k x : ℝ} (hx : 0 ≤ x) (hk : 1 ≤ k) (average : Duration) :
    RoundedWithin x (x * k) (exactCost k x average) (rttCost (number k) (number x) average) := by
  rw [rttCost_number]
  exact roundedWithin_nearest hx (le_exactCost hx hk) (exactCost_le k x average)

end AdaptiveRouting
