import AdaptiveRouting.Name
import AdaptiveRouting.Time.Duration
import AdaptiveRouting.Vocabulary

/-!
# Link state

What is known of the link to one neighbor: its configured and its current cost, whether the
neighbor answers hellos, and its latest round-trip times, oldest first. A link is stable, and only
then probed and measured, when its neighbor is active and no hello is outstanding.

`LinkMetrics` is the view of a link that is shown to whoever wants to revise its cost.
-/

namespace AdaptiveRouting

/-- The live view of the link to one neighbor. -/
structure LinkState (α : Type) where
  neighbor : Name
  status : LinkStatus
  configuredCost : α
  currentCost : α
  timeouts : Nat
  /-- When the neighbor was last heard of. -/
  lastSuccess : Instant
  /-- When a rebuild was last requested on account of this neighbor. -/
  lastTrigger : Option Instant
  /-- The latest round-trip times, oldest first. -/
  history : List Duration
  /-- The number of round-trip times to keep. -/
  capacity : Nat

/-- A link as others may see it. -/
structure LinkMetrics (α : Type) where
  neighbor : Name
  status : LinkStatus
  configuredCost : α
  currentCost : α
  timeouts : Nat
  /-- When the neighbor was last heard of. -/
  lastSuccess : Instant
  /-- The latest round-trip times, oldest first. -/
  history : List Duration
  /-- Their average, if there are any. -/
  rtt : Option Duration

namespace LinkState

variable {α : Type}

def configured (neighbor : Name) (status : LinkStatus) (configuredCost currentCost : α)
    (timeouts : Nat) (now : Instant) (capacity : Nat) : LinkState α where
  neighbor := neighbor
  status := status
  configuredCost := configuredCost
  currentCost := currentCost
  timeouts := timeouts
  lastSuccess := now
  lastTrigger := none
  history := []
  capacity := capacity

/-- Active, with no hello outstanding. -/
def isStable (l : LinkState α) : Bool := l.status = .active && l.timeouts = 0

/-- Appends a round-trip time; the oldest one makes room for it when the history is full. -/
def record (l : LinkState α) (rtt : Duration) : LinkState α :=
  let kept := if l.capacity ≤ l.history.length then l.history.drop 1 else l.history
  { l with history := kept ++ [rtt] }

/-- Forgets every round-trip time. -/
def clearHistory (l : LinkState α) : LinkState α := { l with history := [] }

/-- The number of round-trip times at hand. -/
def samples (l : LinkState α) : Nat := l.history.length

def averageRtt? (l : LinkState α) : Option Duration := Duration.average? l.history

/-- The link as others may see it. -/
def metrics (l : LinkState α) : LinkMetrics α where
  neighbor := l.neighbor
  status := l.status
  configuredCost := l.configuredCost
  currentCost := l.currentCost
  timeouts := l.timeouts
  lastSuccess := l.lastSuccess
  history := l.history
  rtt := l.averageRtt?

end LinkState

end AdaptiveRouting
