import AdaptiveRouting.Link.State
import AdaptiveRouting.Probe.Exchange
import AdaptiveRouting.Routing.Schedule
import AdaptiveRouting.Settings.Basic
import AdaptiveRouting.Time.Clock
import AdaptiveRouting.Time.TimerQueue
import AdaptiveRouting.Topology.Adjacency
import AdaptiveRouting.Topology.Database

/-!
# The link monitor

The monitor keeps the live state of the link to every neighbor. It probes the links that are
stable and turns the round-trip times into costs, which it writes into the neighbor table.

A `MonitorState` is everything that the monitor knows, together with the `Surroundings` that it
acts on: the clock, the neighbor table, the requests to rebuild the own advertisement, the
calculation schedule and the way out for probes. A `Monitor` is such a state with two hooks that
others can set, and with the memory that the hooks keep; the hooks can influence the state only
through the cost that a `CostTransform` returns.

What leaves the monitor, requests and reports, is appended to an outbox of `Signal`s.
-/

namespace AdaptiveRouting

/-! ## What the monitor remembers -/

/-- What is done when a timer fires. -/
inductive Task where
  /-- The first round of probes is due. -/
  | warmUp
  | probe (neighbor : Name)
  | report
deriving DecidableEq

/-- A probe that has not been answered. -/
structure PendingProbe where
  /-- The neighbor that it was sent to. -/
  neighbor : Name
  sentAt : Instant
deriving DecidableEq

/-- What the monitor has done so far. -/
structure MonitorStats where
  sent : Nat
  /-- The number of round-trip times accepted. -/
  measured : Nat
  /-- The number of cost changes that caused a rebuild. -/
  costUpdates : Nat
deriving DecidableEq, Inhabited

/-- The line of a status report about one neighbor. -/
structure LinkReport (α : Type) where
  neighbor : Name
  status : LinkStatus
  cost : α
  configuredCost : α
  /-- The number of round-trip times at hand. -/
  samples : Nat
  /-- Their average in milliseconds, zero if there are none. -/
  averageMillis : α
  timeouts : Nat

/-- What the lines about neighbors are headed by. -/
def LinkReport.title : String := "Link status"

/-- A status report. -/
structure StatusReport (α : Type) where
  stats : MonitorStats
  links : List (LinkReport α)

/-- What a status report is headed by. -/
def StatusReport.title : String := "Link cost manager status"

/-- What leaves the monitor. -/
inductive Signal (α : Type) where
  | request (probe : ProbeRequest)
  | report (status : StatusReport α)

/-! ## The state -/

/-- What the monitor shares with the rest of the router. -/
structure Surroundings (α : Type) where
  clock : Clock
  neighbors : AdjacencyTable α
  /-- Whether the neighbor table takes no costs at present. -/
  costsLocked : Bool
  /-- The requests to rebuild the own advertisement. -/
  rebuild : Rebuild
  /-- When the routing table is calculated. -/
  schedule : Schedule
  /-- Whether a probe can be sent. -/
  outlet : ProbeRequest → Bool
  /-- The random numbers from which the jitter of probe intervals is drawn. -/
  jitter : Nat → Nat

/-- What the monitor knows and what it acts on. -/
structure MonitorState (α : Type) extends Surroundings α where
  settings : LinkSettings α
  links : NameMap (LinkState α)
  /-- The unanswered probes by number. -/
  pending : Std.ExtTreeMap UInt32 PendingProbe compare
  /-- What is to be done, and when. -/
  timers : TimerQueue Task
  /-- The timer that is armed for each neighbor. -/
  probeTimers : NameMap TimerId
  nextSeq : UInt32
  /-- How many random numbers have been drawn. -/
  drawn : Nat
  /-- Whether the monitor has been started. -/
  active : Bool
  stats : MonitorStats
  /-- What is to leave the monitor, oldest first. -/
  outbox : List (Signal α)

/-- Revises a cost that was computed from round-trip times; it may fail. -/
abbrev CostTransform (α σ : Type) : Type := Clock → Name → α → LinkMetrics α → σ → Option α × σ

abbrev PerformanceFeedback (α σ : Type) : Type := Clock → Name → α → σ → σ

/-- What others have set, to revise costs and to hear of performance. -/
structure Hooks (α σ : Type) where
  transform : Option (CostTransform α σ)
  feedback : Option (PerformanceFeedback α σ)

/-- No hooks. -/
def Hooks.none {α σ : Type} : Hooks α σ := ⟨Option.none, Option.none⟩

/-- The monitor with its hooks. -/
structure Monitor (α σ : Type) extends MonitorState α where
  hooks : Hooks α σ
  memory : σ

namespace MonitorState

variable {α : Type}

/-- A monitor that knows no neighbor yet. -/
def idle (surroundings : Surroundings α) (settings : LinkSettings α) : MonitorState α where
  toSurroundings := surroundings
  settings := settings
  links := ∅
  pending := ∅
  timers := .empty
  probeTimers := ∅
  nextSeq := 1
  drawn := 0
  active := false
  stats := default
  outbox := []

/-- Puts a signal into the outbox. -/
def emit (m : MonitorState α) (s : Signal α) : MonitorState α :=
  { m with outbox := m.outbox ++ [s] }

def updateLink (m : MonitorState α) (neighbor : Name) (f : LinkState α → LinkState α) :
    MonitorState α :=
  { m with links := m.links.modify neighbor f }

/-- Writes a cost into a neighbor table that may be locked. -/
def writtenCost? (m : MonitorState α) (table : AdjacencyTable α) (neighbor : Name) (cost : α) :
    Option (AdjacencyTable α) :=
  if m.costsLocked then none else (table.setLinkCost neighbor cost).toOption

/-- Writes a cost if the neighbor table takes it. -/
def tryWriteCost (m : MonitorState α) (table : AdjacencyTable α) (neighbor : Name) (cost : α) :
    AdjacencyTable α :=
  (m.writtenCost? table neighbor cost).getD table

/-- Whether a neighbor is known and its link stable. -/
def isStable (m : MonitorState α) (neighbor : Name) : Bool :=
  match m.links[neighbor]? with
  | none => false
  | some link => link.isStable

end MonitorState

namespace Monitor

variable {α σ : Type}

/-- A monitor that knows no neighbor yet and has no hooks. -/
def idle (surroundings : Surroundings α) (settings : LinkSettings α) (memory : σ) :
    Monitor α σ where
  toMonitorState := .idle surroundings settings
  hooks := .none
  memory := memory

/-- Changes the state by a step that does not involve the hooks. -/
def act (m : Monitor α σ) (step : MonitorState α → MonitorState α) : Monitor α σ :=
  { m with toMonitorState := step m.toMonitorState }

def takeOutbox (m : Monitor α σ) : List (Signal α) × Monitor α σ :=
  (m.outbox, m.act fun s => { s with outbox := [] })

def setTransform (m : Monitor α σ) (transform : CostTransform α σ) : Monitor α σ :=
  { m with hooks.transform := some transform }

/-- Removes the hook that revises costs. -/
def clearTransform (m : Monitor α σ) : Monitor α σ := { m with hooks.transform := none }

def setFeedback (m : Monitor α σ) (feedback : PerformanceFeedback α σ) : Monitor α σ :=
  { m with hooks.feedback := some feedback }

/-- Removes the hook that hears of performance. -/
def clearFeedback (m : Monitor α σ) : Monitor α σ := { m with hooks.feedback := none }

end Monitor

end AdaptiveRouting
