import AdaptiveRouting.Learning.CostModel
import AdaptiveRouting.Monitor.Basic
import AdaptiveRouting.Pricing.LoadAware

/-!
# Strategies

A strategy prices links by something else than their round-trip time alone. It leaves the
calculation of paths as it is and acts on the link costs: while it is in force, its transform is
set as a hook of the link monitor, and the learning strategy hears of performance through the
other hook as well.

The state of the strategy lives in the memory of the hooks (`HookMemory`), where it outlives the
hooks themselves: others may set hooks of their own, which leave it alone.
-/

namespace AdaptiveRouting

/-- How links are priced, with what has been learned for it. -/
inductive Strategy (α : Type) where
  /-- By load and jitter. -/
  | loadAware (state : LoadAware α)
  /-- By a model that learns. -/
  | learning (model : CostModel α)

/-- What the hooks of the monitor remember: the strategy in force, and `τ` for whoever else sets
hooks. -/
structure HookMemory (α τ : Type) where
  strategy : Option (Strategy α)
  /-- What others remember. -/
  others : τ

namespace Strategy

variable {α τ : Type}

def algorithm : Strategy α → Algorithm
  | .loadAware _ => .loadAware
  | .learning _ => .mlAdaptive

/-- The state of load-aware pricing, if that is in force. -/
def loadAware? : Option (Strategy α) → Option (LoadAware α)
  | some (.loadAware state) => some state
  | _ => none

def model? : Option (Strategy α) → Option (CostModel α)
  | some (.learning model) => some model
  | _ => none

variable [Scalar α]

/-- Prices a link by load and jitter; fails when that strategy is no longer in force. -/
def loadAwareTransform : CostTransform α (HookMemory α τ) :=
  fun clock neighbor cost metrics memory =>
  match loadAware? memory.strategy with
  | none => (none, memory)
  | some state =>
    let (price, state) := state.price clock.now neighbor cost metrics
    (some price, { memory with strategy := some (.loadAware state) })

/-- Prices a link by what the model predicts; fails when that strategy is no longer in force. -/
def learningTransform : CostTransform α (HookMemory α τ) := fun clock neighbor _ metrics memory =>
  match model? memory.strategy with
  | none => (none, memory)
  | some model =>
    let (price, model) := model.predictCost clock neighbor metrics
    (some price, { memory with strategy := some (.learning model) })

/-- Lets the model learn from the performance of a neighbor. -/
def learningFeedback : PerformanceFeedback α (HookMemory α τ) := fun clock neighbor score memory =>
  match model? memory.strategy with
  | none => memory
  | some model =>
    { memory with strategy := some (.learning (model.report clock neighbor score)) }

end Strategy

namespace Monitor

variable {α τ : Type} [Scalar α]

/-- Puts a strategy in force. -/
def adopt (m : Monitor α (HookMemory α τ)) (s : Strategy α) : Monitor α (HookMemory α τ) :=
  let m := { m with memory.strategy := some s }
  match s with
  | .loadAware _ => m.setTransform Strategy.loadAwareTransform
  | .learning _ =>
    (m.setTransform Strategy.learningTransform).setFeedback Strategy.learningFeedback

/-- Takes the strategy out of force, and with it the hooks that it needs, whoever has set them
since. -/
def abandon (m : Monitor α (HookMemory α τ)) : Monitor α (HookMemory α τ) :=
  match m.memory.strategy with
  | none => m
  | some s =>
    let m := { m with memory.strategy := none }.clearTransform
    match s with
    | .loadAware _ => m
    | .learning _ => m.clearFeedback

end Monitor

end AdaptiveRouting
