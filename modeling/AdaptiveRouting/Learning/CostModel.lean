import AdaptiveRouting.Learning.LinearModel
import AdaptiveRouting.Learning.TimeSlots
import AdaptiveRouting.Link.State
import AdaptiveRouting.Settings.Basic
import AdaptiveRouting.Time.Clock

/-!
# The learning cost model

Predicts what a link costs from the features of its neighbor and learns from the performance that
is reported for it.

A prediction (`CostModel.predictCost`) is made from the round-trip times seen in earlier
predictions; the current one is appended only afterwards. A report (`CostModel.report`) enters the
time slot, the window of recent errors and the record of the neighbor. The model is trained on it
when its error is large or when training is overdue (`CostModel.isDue`); the learning rate grows
while the errors in the window are large and shrinks while they are small
(`CostModel.adaptedRate`).
-/

namespace AdaptiveRouting

/-- A prediction paired with the performance that was observed. -/
structure PerformanceRecord (α : Type) where
  /-- What the model says of the features at hand. -/
  predicted : α
  /-- What was reported. -/
  actual : α
  /-- When it was reported. -/
  timestamp : Instant

/-- What the model has done so far. -/
structure LearningStats (α : Type) where
  /-- The number of costs predicted. -/
  predictions : Nat
  modelUpdates : Nat
  /-- The number of reports taken into time slots. -/
  patternUpdates : Nat
  /-- The mean of the recent absolute errors. -/
  averageError : α

/-- The state of the cost model. -/
structure CostModel (α : Type) where
  settings : LearningSettings α
  model : LinearModel α
  /-- Performance by time of day. -/
  slots : TimeSlots α
  /-- The latest round-trip times of each neighbor in milliseconds, oldest first. -/
  roundTrips : NameMap (List α)
  /-- The latest reports about each neighbor, oldest first. -/
  records : NameMap (List (PerformanceRecord α))
  /-- The latest absolute errors over all neighbors, oldest first. -/
  errors : List α
  rate : α
  /-- Whether there has been any training. -/
  ready : Bool
  /-- When the last training step was taken. -/
  lastUpdate : Instant
  stats : LearningStats α

namespace CostModel

variable {α : Type} [Scalar α]

def untrained (settings : LearningSettings α) (now : Instant) : CostModel α where
  settings := settings
  model := .heuristic
  slots := .empty settings.temporalAlpha
  roundTrips := ∅
  records := ∅
  errors := []
  rate := settings.learningRate
  ready := false
  lastUpdate := now
  stats := ⟨0, 0, 0, 0.0⟩

def roundTripsTo (m : CostModel α) (neighbor : Name) : List α := (m.roundTrips[neighbor]?).getD []

/-- The latest reports about a neighbor. -/
def recorded (m : CostModel α) (neighbor : Name) : List (PerformanceRecord α) :=
  (m.records[neighbor]?).getD []

/-- The features of a neighbor at a minute of the day. -/
def features (m : CostModel α) (minute : Nat) (neighbor : Name) : Features α :=
  .extract (m.roundTripsTo neighbor) m.settings.successRtt (m.slots.feature neighbor minute)

/-- The score of a link: the model's once it has been trained. -/
def score (m : CostModel α) (f : Features α) : α :=
  if m.ready then m.model.predict f else fallbackScore f

/-- The predicted cost of a link, which grows with its score up to twice the configured cost. -/
def predictCost (m : CostModel α) (clock : Clock) (neighbor : Name) (metrics : LinkMetrics α) :
    α × CostModel α :=
  let cost := metrics.configuredCost * (1.0 + m.score (m.features clock.minuteOfDay neighbor))
  -- The prediction is made from the round-trip times before this one.
  let roundTrips :=
    match metrics.rtt with
    | none => m.roundTrips
    | some rtt =>
      m.roundTrips.insert neighbor
        (latest m.settings.roundTripCapacity (m.roundTripsTo neighbor ++ [rtt.wholeMillis]))
  (cost, { m with roundTrips, stats.predictions := m.stats.predictions + 1 })

/-- Whether the model is to be trained on a report with a given error. -/
def isDue (m : CostModel α) (error : α) (now : Instant) : Bool :=
  decide (m.settings.adaptationThreshold < error) ||
    decide (m.settings.refreshInterval < now - m.lastUpdate)

/-- The learning rate adapted to the recent errors, within its bounds. -/
def adaptedRate (m : CostModel α) : α :=
  if 0.3 < m.stats.averageError then Scalar.lesser (m.rate * 1.1) m.settings.maxLearningRate
  else if m.stats.averageError < 0.1 then
    Scalar.greater (m.rate * 0.9) m.settings.minLearningRate
  else m.rate

def noteError (m : CostModel α) (error : α) : CostModel α :=
  -- The error is counted in before the average is taken.
  let errors := latest m.settings.errorWindow (m.errors ++ [error])
  { m with errors, stats.averageError := (mean? errors).getD error }

def train (m : CostModel α) (f : Features α) (actual : α) (now : Instant) : CostModel α :=
  let rate := m.adaptedRate
  { m with
    rate
    model := m.model.update f actual rate
    stats.modelUpdates := m.stats.modelUpdates + 1
    lastUpdate := now
    ready := true }

/-- Judges the prediction for `f` by what was reported and trains if that is due. -/
def learn (m : CostModel α) (f : Features α) (actual : α) (now : Instant) : CostModel α :=
  let error := Scalar.abs (actual - m.model.predict f)
  let m := m.noteError error
  if m.isDue error now then m.train f actual now else m

/-- Learns from the performance reported for a neighbor; lower is better. -/
def report (m : CostModel α) (clock : Clock) (neighbor : Name) (actual : α) : CostModel α :=
  -- The features are those before the report is entered.
  let f := m.features clock.minuteOfDay neighbor
  let m : CostModel α :=
    { m with
      slots := m.slots.update neighbor clock.minuteOfDay actual clock.now
      stats.patternUpdates := m.stats.patternUpdates + 1 }
  let m := m.learn f actual clock.now
  -- The prediction that is recorded is made after the model has learned.
  let record : PerformanceRecord α := ⟨m.model.predict f, actual, clock.now⟩
  { m with
    records := m.records.insert neighbor
      (latest m.settings.recordCapacity (m.recorded neighbor ++ [record])) }

end CostModel

end AdaptiveRouting
