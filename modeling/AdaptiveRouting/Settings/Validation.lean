import AdaptiveRouting.Decimal.Shortest
import AdaptiveRouting.Scalar
import AdaptiveRouting.Settings.Basic

/-!
# Sound settings

`Settings.violation?` finds the first rule that a configuration breaks, in a fixed order, and
`Violation.message` says which one it is. Where a rule asks that a number be in a range, what is
not a number is refused; the learning rate alone is compared the other way round.

Two intervals may be zero although they drive timers: only those of the probes and of the routing
calculation are checked.
-/

namespace AdaptiveRouting

/-- A rule that a configuration breaks. -/
inductive Violation (α : Type) where
  /-- The greatest cost is below the configured one. -/
  | maxMultiplier
  /-- A threshold is not in the range from 0, exclusive, to 1. -/
  | threshold (field : String) (value : α)
  /-- Probes are sent without a pause or have no time to be answered. -/
  | probeTimes
  /-- The history cannot hold the samples that costs and scores need. -/
  | historyCapacity (least : Nat)
  /-- No round-trip time is accepted as it is. -/
  | rttBounds
  /-- No learning rate is allowed. -/
  | rateBounds
  /-- The learning rate is not allowed. -/
  | rate
  /-- The smoothing factor is not in the range from 0, exclusive, to 1. -/
  | temporalAlpha
  /-- The features need longer histories. -/
  | histories
  /-- Calculations are run without a pause. -/
  | calculationInterval
deriving DecidableEq

/-- Numbers in messages have no fraction when they are integers. -/
def messageStyle : PlainStyle := ⟨"NaN", ""⟩

def Violation.message : Violation Float → String
  | .maxMultiplier => "link_cost.max_cost_multiplier must be at least 1"
  | .threshold field value =>
    "link_cost." ++ field ++ " must be in (0, 1], got " ++ Decimal.plain messageStyle value
  | .probeTimes => "link_cost probe interval and lifetime must be non-zero"
  | .historyCapacity least =>
    "link_cost.rtt_history_capacity must hold at least " ++ toString least ++ " samples"
  | .rttBounds => "link_cost.rtt_floor must be below rtt_ceiling"
  | .rateBounds => "adaptive learning-rate bounds must satisfy 0 < min <= max"
  | .rate => "adaptive.learning_rate must lie within its bounds"
  | .temporalAlpha => "adaptive.temporal_alpha must be in (0, 1]"
  | .histories => "adaptive histories are too small for feature extraction"
  | .calculationInterval => "routing.calculation_interval must be non-zero"

section
variable {α : Type} [Scalar α]

/-- Whether a number is in the range from 0, exclusive, to 1. -/
def isFraction (x : α) : Bool := decide (0.0 < x) && decide (x ≤ 1.0)

/-- The number of samples that the history must be able to hold. -/
def LinkSettings.leastCapacity (s : LinkSettings α) : Nat := max s.minCostSamples 6

/-- The first rule that the link settings break. -/
def LinkSettings.violation? (s : LinkSettings α) : Option (Violation α) :=
  if ¬ (1.0 : α) ≤ s.maxMultiplier then some .maxMultiplier
  else if !isFraction s.changeThreshold then
    some (.threshold "cost_change_threshold" s.changeThreshold)
  else if !isFraction s.fineThreshold then
    some (.threshold "fine_change_threshold" s.fineThreshold)
  else if s.probeInterval = 0 ∨ s.probeLifetime = 0 then some .probeTimes
  else if s.historyCapacity < s.leastCapacity then some (.historyCapacity s.leastCapacity)
  else if s.rttCeiling ≤ s.rttFloor then some .rttBounds
  else none

/-- The first rule that the learning settings break. -/
def LearningSettings.violation? (s : LearningSettings α) : Option (Violation α) :=
  if ¬ ((0.0 : α) < s.minLearningRate ∧ s.minLearningRate ≤ s.maxLearningRate) then
    some .rateBounds
  -- An undefined rate is neither below the one bound nor above the other.
  else if s.learningRate < s.minLearningRate ∨ s.maxLearningRate < s.learningRate then some .rate
  else if !isFraction s.temporalAlpha then some .temporalAlpha
  else if s.roundTripCapacity < 10 ∨ s.errorWindow = 0 then some .histories
  else none

/-- The first rule that a configuration breaks. -/
def Settings.violation? (s : Settings α) : Option (Violation α) :=
  s.link.violation? <|> s.learning.violation? <|>
    if s.routing.calculationInterval = 0 then some .calculationInterval else none

end

end AdaptiveRouting
