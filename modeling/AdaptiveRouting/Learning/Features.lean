import AdaptiveRouting.Statistics
import AdaptiveRouting.Vocabulary

/-!
# Link features

What the cost model looks at: five numbers drawn from a neighbor's latest round-trip times in
milliseconds, oldest first, and from the time of day. Each has a range of its own, and features
that need more samples than there are take a neutral value.

`Features.quality` sorts links into four classes by fixed rules.
-/

namespace AdaptiveRouting

/-- One number for each input of the cost model. -/
structure Features (α : Type) where
  /-- The latest five samples against the five before them, from -1 to 1. -/
  trend : α
  /-- The coefficient of variation, from 0 to 1. -/
  variation : α
  /-- The fraction of the samples below the success threshold. -/
  success : α
  /-- The acceleration of the latest three samples, from -1 to 1. -/
  load : α
  /-- How the link used to perform at this time of day, from 0 to 1. -/
  temporal : α
deriving DecidableEq

namespace Features

variable {α : Type}

/-- The features in order. -/
def toList (f : Features α) : List α := [f.trend, f.variation, f.success, f.load, f.temporal]

variable [Scalar α]

/-- The change of the average over five samples; needs ten samples. -/
def trendOf (samples : List α) : α :=
  if samples.length < 10 then 0.0
  else
    let recent := (mean? (latest 5 samples)).getD 0.0
    let old := (mean? ((latest 10 samples).take 5)).getD 0.0
    if 0.0 < old then Scalar.clamp (recent / old - 1.0) (-1.0) 1.0 else 0.0

/-- The coefficient of variation; samples without a positive mean count as most unsteady. -/
def variationOf (samples : List α) : α :=
  if samples.length < 3 then 0.0
  else
    match variation? samples with
    | none => 1.0
    | some v => Scalar.lesser v 1.0

/-- The fraction of samples below a threshold; one half without samples. -/
def successOf (samples : List α) (threshold : α) : α :=
  if samples.isEmpty then 0.5
  else
    Scalar.ofCount (samples.countP fun x => decide (x < threshold)) / Scalar.ofCount samples.length

/-- The second difference of the latest three samples, per hundred milliseconds; needs five. -/
def loadOf (samples : List α) : α :=
  if samples.length < 5 then 0.0
  else
    match latest 3 samples with
    | [old, middle, recent] =>
      Scalar.clamp (((recent - middle) - (middle - old)) / 100.0) (-1.0) 1.0
    | _ => 0.0

/-- The features of a link. -/
def extract (samples : List α) (threshold temporal : α) : Features α where
  trend := trendOf samples
  variation := variationOf samples
  success := successOf samples threshold
  load := loadOf samples
  temporal := Scalar.clamp temporal 0.0 1.0

/-- The class of a link by its trend, variation and success rate. -/
def quality (f : Features α) : LinkQuality :=
  if f.trend < 0.1 ∧ f.variation < 0.2 ∧ 0.8 < f.success then .excellent
  else if f.trend < 0.3 ∧ f.variation < 0.4 ∧ 0.6 < f.success then .good
  else if f.trend < 0.6 ∧ 0.4 < f.success then .fair
  else .poor

end Features

end AdaptiveRouting
