import AdaptiveRouting.Learning.Features

/-!
# Logistic regression

The model that is trained online: a weight for each feature and a bias, with the logistic function
of their weighted sum as its prediction, strictly between 0 and 1. `LinearModel.update` takes one
gradient step towards a target.

Before the first step the weights are the heuristic ones, and scores come from the fixed weights of
`fallbackScore` instead.
-/

namespace AdaptiveRouting

/-- Weights, a bias and the number of training steps taken. -/
structure LinearModel (α : Type) where
  weights : Features α
  /-- The prediction's offset. -/
  bias : α
  updates : Nat

def logistic {α : Type} [Scalar α] (z : α) : α := 1.0 / (1.0 + Scalar.exp (-z))

namespace LinearModel

variable {α : Type} [Scalar α]

/-- The model before any training. -/
def heuristic : LinearModel α where
  weights := ⟨0.4, 0.3, 0.2, 0.1, 0.15⟩
  bias := 0.0
  updates := 0

/-- The weighted sum of the features. -/
def activation (m : LinearModel α) (f : Features α) : α :=
  m.bias + Scalar.dot m.weights.toList f.toList

def predict (m : LinearModel α) (f : Features α) : α := logistic (m.activation f)

/-- One step of length `rate` down the gradient of the error at `f`. -/
def update (m : LinearModel α) (f : Features α) (target rate : α) : LinearModel α :=
  let step := rate * (target - m.predict f)
  { weights :=
      { trend := m.weights.trend + step * f.trend
        variation := m.weights.variation + step * f.variation
        success := m.weights.success + step * f.success
        load := m.weights.load + step * f.load
        temporal := m.weights.temporal + step * f.temporal }
    bias := m.bias + step
    updates := m.updates + 1 }

end LinearModel

/-- The score of a link while the model is untrained: fixed weights on all but the time of day. -/
def fallbackScore {α : Type} [Scalar α] (f : Features α) : α :=
  Scalar.clamp (Scalar.dot [0.4, 0.3, 0.2, 0.1] f.toList) 0.0 1.0

end AdaptiveRouting
