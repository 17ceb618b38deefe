import AdaptiveRouting.Link.State
import AdaptiveRouting.Statistics

/-!
# Load-aware prices

A price that follows not only the round-trip time of a link but also its load, which is how far
the latest round-trip time lies above the mean of the earlier ones (`loadFactor`), and its jitter.
Both are judged by the latest ten round-trip times of the neighbor.

Prices are damped (`LoadAware.keeps`): the previous one is kept while the change is small or the
previous one is young.
-/

namespace AdaptiveRouting

/-- A price and when it was made. -/
structure Price (α : Type) where
  cost : α
  madeAt : Instant

/-- What load-aware prices are made from. -/
structure LoadAware (α : Type) where
  /-- The greatest price as a multiple of the configured cost. -/
  maxMultiplier : α
  /-- The latest round-trip times of each neighbor in milliseconds, oldest first. -/
  latencies : NameMap (List α)
  /-- The price of each neighbor that is in force. -/
  prices : NameMap (Price α)

namespace LoadAware

variable {α : Type} [Scalar α]

/-- The number of round-trip times kept for each neighbor. -/
def window : Nat := 10

/-- The least time between two different prices for one neighbor. -/
def spacing : Duration := .ofSeconds 5

/-- Nothing seen yet. -/
def fresh (maxMultiplier : α) : LoadAware α := ⟨maxMultiplier, ∅, ∅⟩

/-- How far a value lies above a positive baseline, relative to it and one at most. -/
def excess (value baseline : α) : α :=
  if baseline ≤ 0.0 then 0.0 else Scalar.clamp ((value - baseline) / baseline) 0.0 1.0

/-- How far the latest of some samples lies above the mean of the earlier ones, of which there
have to be two. -/
def loadFactor (samples : List α) : α :=
  match samples.getLast? with
  | none => 0.0
  | some last =>
    let earlier := samples.dropLast
    if earlier.length < 2 then 0.0
    else excess last (Scalar.sum earlier / Scalar.ofCount earlier.length)

/-- The variation of some samples, one at most. -/
def jitterFactor (samples : List α) : α :=
  match variation? samples with
  | none => 0.0
  | some v => Scalar.lesser v 1.0

/-- The multiple of the configured cost that a link is worth, before the bound. -/
def multiplier (millis : α) (samples : List α) : α :=
  1.0 + 0.3 * Scalar.ln (1.0 + millis / 100.0) + 0.4 * loadFactor samples
    + 0.3 * jitterFactor samples

/-- The price of a link that is not damped. -/
def undamped (s : LoadAware α) (configured millis : α) (samples : List α) : α :=
  Scalar.lesser (configured * multiplier millis samples) (configured * s.maxMultiplier)

/-- The round-trip times of a neighbor with one more. -/
def observed (s : LoadAware α) (neighbor : Name) (millis : α) : List α :=
  latest window ((s.latencies[neighbor]?).getD [] ++ [millis])

/-- Whether a price is kept when another one is offered. -/
def keeps (previous : Price α) (now : Instant) (cost : α) : Bool :=
  (decide (0.0 < previous.cost) &&
      decide (Scalar.abs (cost - previous.cost) / previous.cost < 0.05)) ||
    decide (now - previous.madeAt < spacing)

/-- Puts a price in force unless the previous one is kept. -/
def settle (s : LoadAware α) (now : Instant) (neighbor : Name) (cost : α) : α × LoadAware α :=
  let replaced : LoadAware α := { s with prices := s.prices.insert neighbor ⟨cost, now⟩ }
  match s.prices[neighbor]? with
  | none => (cost, replaced)
  | some previous => if keeps previous now cost then (previous.cost, s) else (cost, replaced)

/-- The price of a link; `cost` is what it costs by its round-trip time alone, which is the price
while there is no round-trip time. -/
def price (s : LoadAware α) (now : Instant) (neighbor : Name) (cost : α)
    (metrics : LinkMetrics α) : α × LoadAware α :=
  match metrics.rtt with
  | none => (cost, s)
  | some rtt =>
    let millis : α := rtt.wholeMillis
    let samples := s.observed neighbor millis
    { s with latencies := s.latencies.insert neighbor samples }.settle now neighbor
      (s.undamped metrics.configuredCost millis samples)

/-- The price of a neighbor that is in force. -/
def lastCost? (s : LoadAware α) (neighbor : Name) : Option α := (s.prices[neighbor]?).map (·.cost)

end LoadAware

end AdaptiveRouting
