import AdaptiveRouting.Settings.Basic

/-!
# The cost of a round-trip time

A link starts at its configured cost and grows more expensive with the logarithm of its round-trip
time, up to a multiple of the configured cost (`rttCost`). Small changes are not worth a
recalculation: `isNoticeable` compares a new cost with the one that the link state holds, and
`isFine` compares what is to be written with what the neighbor table holds.
-/

namespace AdaptiveRouting

variable {α : Type} [Scalar α]

/-- The cost of a link with a given average round-trip time, before it is rounded. -/
def scaledCost (maxMultiplier configured : α) (average : Duration) : α :=
  Scalar.lesser (configured * (1.0 + Scalar.ln (1.0 + average.wholeMillis / 100.0)))
    (configured * maxMultiplier)

/-- The cost of a link with a given average round-trip time. -/
def rttCost (maxMultiplier configured : α) (average : Duration) : α :=
  -- The cap applies before rounding.
  Scalar.round (scaledCost maxMultiplier configured average)

/-- The change from one positive cost to another, relative to the former. -/
def relativeChange (old new : α) : α := Scalar.abs (new - old) / old

/-- Whether a cost differs enough from the current one; any change from a cost that is not
positive does. -/
def isNoticeable (threshold current new : α) : Bool :=
  if current ≤ 0.0 then new != current else decide (threshold ≤ relativeChange current new)

/-- Whether a cost is too close to the positive one that is in the table. -/
def isFine (threshold old new : α) : Bool :=
  decide (0.0 < old) && decide (relativeChange old new < threshold)

/-- Whether a revised cost can serve as a cost. -/
def isUsable (cost : α) : Bool := Scalar.isFinite cost && decide (0.0 < cost)

end AdaptiveRouting
