import AdaptiveRouting.Name
import AdaptiveRouting.Time.Duration
import AdaptiveRouting.Vocabulary

/-!
# Settings

What can be configured, with the value that each setting has when nothing is said about it. The
settings of the link monitor (`LinkSettings`) and of the learning cost model (`LearningSettings`)
hold numbers of the arithmetic in which costs are computed.
-/

namespace AdaptiveRouting

/-- How links are probed and how their costs follow the round-trip time. -/
structure LinkSettings (α : Type) where
  probeInterval : Duration
  /-- The bound, in whole milliseconds, of what is added at random to each probe interval. -/
  probeJitter : Duration
  /-- How long a probe may remain unanswered. -/
  probeLifetime : Duration
  /-- The time between the start and the first round of probes. -/
  warmUp : Duration
  reportInterval : Duration
  /-- The number of missed hellos at which a neighbor is given up. -/
  retryThreshold : Nat
  /-- The greatest cost as a multiple of the configured cost. -/
  maxMultiplier : α
  /-- The least relative change of a cost computed from round-trip times. -/
  changeThreshold : α
  /-- The least relative change of the cost that is finally written. -/
  fineThreshold : α
  /-- The least time between two rebuilds requested on account of one neighbor. -/
  triggerInterval : Duration
  /-- The number of samples from which on performance is reported. -/
  minFeedbackSamples : Nat
  /-- The number of samples from which on costs are computed. -/
  minCostSamples : Nat
  /-- The number of samples kept for each neighbor. -/
  historyCapacity : Nat
  /-- Shorter round-trip times count as this one. -/
  rttFloor : Duration
  /-- Longer round-trip times are discarded. -/
  rttCeiling : Duration

/-- How the cost model learns. -/
structure LearningSettings (α : Type) where
  learningRate : α
  minLearningRate : α
  maxLearningRate : α
  /-- The error above which the model learns at once. -/
  adaptationThreshold : α
  /-- The time after which the model learns from any report. -/
  refreshInterval : Duration
  /-- The round-trip time in milliseconds below which a sample counts as a success. -/
  successRtt : α
  /-- The weight of the latest report in the average of a time slot. -/
  temporalAlpha : α
  /-- The number of round-trip times kept for each neighbor. -/
  roundTripCapacity : Nat
  /-- The number of performance records kept for each neighbor. -/
  recordCapacity : Nat
  /-- The number of errors that are averaged to steer the learning rate. -/
  errorWindow : Nat

/-- How routes are chosen. -/
structure RoutingSettings where
  router : Name
  /-- The use made of live costs. -/
  algorithm : Algorithm
  /-- The use made of hyperbolic coordinates. -/
  hyperbolic : HyperbolicMode
  /-- The time between a request for a calculation and the calculation. -/
  calculationInterval : Duration

/-- How the program logs what it does. -/
structure LogSettings where
  level : String
  format : String
  file : Option String
  color : Bool
deriving DecidableEq

/-- The whole configuration. -/
structure Settings (α : Type) where
  link : LinkSettings α
  learning : LearningSettings α
  routing : RoutingSettings
  log : LogSettings

section
variable {α : Type} [Scalar α]

/-- The link settings when nothing is said about them. -/
def LinkSettings.standard : LinkSettings α where
  probeInterval := .ofSeconds 30
  probeJitter := .ofMillis 5000
  probeLifetime := .ofSeconds 4
  warmUp := .ofSeconds 30
  reportInterval := .ofSeconds 600
  retryThreshold := 3
  maxMultiplier := 5.0
  changeThreshold := 0.1
  fineThreshold := 0.05
  triggerInterval := .ofSeconds 10
  minFeedbackSamples := 5
  minCostSamples := 3
  historyCapacity := 50
  rttFloor := .ofMillis 1
  rttCeiling := .ofMillis 5000

/-- The learning settings when nothing is said about them. -/
def LearningSettings.standard : LearningSettings α where
  learningRate := 0.01
  minLearningRate := 0.001
  maxLearningRate := 0.05
  adaptationThreshold := 0.2
  refreshInterval := .ofSeconds 30
  successRtt := 500.0
  temporalAlpha := 0.1
  roundTripCapacity := 20
  recordCapacity := 100
  errorWindow := 20

/-- The routing settings when nothing is said about them. -/
def RoutingSettings.standard : RoutingSettings where
  router := ⟨["localhost", "router"], by decide⟩
  algorithm := .linkState
  hyperbolic := .off
  calculationInterval := .ofSeconds 15

/-- The log settings when nothing is said about them. -/
def LogSettings.standard : LogSettings where
  level := "info"
  format := "text"
  file := none
  color := true

/-- The configuration when nothing is said about it. -/
def Settings.standard : Settings α :=
  ⟨LinkSettings.standard, LearningSettings.standard, RoutingSettings.standard, LogSettings.standard⟩

end

end AdaptiveRouting
