import AdaptiveRouting.Monitor.Neighbors

/-!
# Starting, stopping and the passing of time

The monitor is started and stopped from outside, and somebody has to call `poll` when time has
passed. After the start it waits for the warm-up to end; then it arms a timer for each stable link
and reports its status at regular intervals. Stopping disarms every timer, forgets every pending
probe and restores the configured costs.

`poll` handles the timers that are due one after the other. A task that is handled may arm timers,
which lie in the future as long as the report interval is not zero; therefore no more tasks are
handled in one call than there were timers. `Drained` is the relation behind it, without any such
bound: the states that are left when every task that is due has been handled.
-/

namespace AdaptiveRouting.MonitorState

variable {α : Type}

def configuredLink (m : MonitorState α) (a : Adjacency α) : LinkState α :=
  .configured a.name a.status a.configuredCost a.linkCost a.timeouts m.clock.now
    m.settings.historyCapacity

/-- Takes every configured neighbor into the links. -/
def adoptNeighbors (m : MonitorState α) : MonitorState α :=
  { m with
    links := m.neighbors.toList.foldl (fun links a => links.insert a.name (m.configuredLink a))
      m.links }

/-- Starts the monitor unless it is active. -/
def start (m : MonitorState α) : MonitorState α :=
  if m.active then m
  else
    { m with
      active := true
      timers := (m.timers.schedule (m.clock.now + m.settings.warmUp) .warmUp).2 }

section
variable [Scalar α]

/-- Restores the configured cost of a link in a neighbor table that has another one. -/
def restoreCost (m : MonitorState α) (table : AdjacencyTable α) (neighbor : Name)
    (link : LinkState α) : AdjacencyTable α :=
  match table.linkCost? neighbor with
  -- A neighbor that has gone from the table is not put back.
  | none => table
  | some cost =>
    if cost != link.configuredCost then m.tryWriteCost table neighbor link.configuredCost else table

/-- Stops the monitor if it is active. -/
def stop (m : MonitorState α) : MonitorState α :=
  if m.active then
    { m with
      active := false
      timers := m.timers.cancelAll
      probeTimers := ∅
      pending := ∅
      -- The histories stay for the next start; costs and probes do not.
      links := m.links.map fun _ link => { link with currentCost := link.configuredCost }
      neighbors := m.links.toList.foldl (fun table l => m.restoreCost table l.1 l.2) m.neighbors
      rebuild := m.rebuild.request }
  else m

/-! ## Reports -/

def linkReport (link : LinkState α) : LinkReport α where
  neighbor := link.neighbor
  status := link.status
  cost := link.currentCost
  configuredCost := link.configuredCost
  samples := link.samples
  averageMillis := (link.averageRtt?.map Duration.wholeMillis).getD 0.0
  timeouts := link.timeouts

def statusReport (m : MonitorState α) : StatusReport α :=
  ⟨m.stats, m.links.toList.map fun l => linkReport l.2⟩

/-- Reports the present state if the monitor is active. -/
def report (m : MonitorState α) : MonitorState α :=
  if m.active then m.emit (.report m.statusReport) else m

/-! ## Timers -/

/-- The neighbors whose links are stable, in order. -/
def stableNeighbors (m : MonitorState α) : List Name :=
  (m.links.toList.filter fun l => l.2.isStable).map (·.2.neighbor)

def scheduleReport (m : MonitorState α) : MonitorState α :=
  { m with timers := (m.timers.schedule (m.clock.now + m.settings.reportInterval) .report).2 }

/-- Does what a timer was armed for. -/
def perform (m : MonitorState α) : Task → MonitorState α
  | .warmUp => (m.stableNeighbors.foldl scheduleProbe m).scheduleReport
  | .probe neighbor =>
    -- The note is erased with the timer, so that there is none to disarm when the next one is
    -- armed.
    ({ m with probeTimers := m.probeTimers.erase neighbor }.probeIfStable neighbor).scheduleProbe
      neighbor
  | .report => m.report.scheduleReport

/-- Handles the first timer that is due, if there is one. -/
def handleNext? (m : MonitorState α) : Option (MonitorState α) :=
  (m.timers.popDue? m.clock.now).map fun due => { m with timers := due.2.2 }.perform due.2.1

/-- Handles the timers that are due, `bound` of them at most. -/
def handleDue (m : MonitorState α) : Nat → MonitorState α
  | 0 => m
  | bound + 1 =>
    match m.handleNext? with
    | none => m
    | some next => next.handleDue bound

/-- Handles the timers that are due. -/
def poll (m : MonitorState α) : MonitorState α := m.handleDue m.timers.size

/-- The second state is what handling every timer that is due makes of the first. -/
inductive Drained : MonitorState α → MonitorState α → Prop where
  | done {m : MonitorState α} : m.handleNext? = none → Drained m m
  /-- One timer is handled, and then the others. -/
  | step {m next last : MonitorState α} : m.handleNext? = some next → Drained next last →
      Drained m last

def nextDeadline? (m : MonitorState α) : Option Instant := m.timers.nextDeadline?

end

end AdaptiveRouting.MonitorState
