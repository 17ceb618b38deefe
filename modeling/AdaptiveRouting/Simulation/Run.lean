import AdaptiveRouting.Daemon.Loop
import AdaptiveRouting.Simulation.Network

/-!
# Running a daemon on simulated time

A `Simulation` is a daemon on a scripted network. Time jumps from one moment at which something
happens to the next: the daemon's own deadline or the arrival of an outcome (`step?`). In between
others act on the router and its neighbors (`Occurrence`); changes of the database reach the
daemon through a mailbox that keeps the latest ones only.

The clock shows the same time of day throughout. What was sent and which tables were published is
recorded together with the time.
-/

namespace AdaptiveRouting

/-- A daemon on a scripted network. -/
structure Simulation (α τ : Type) where
  daemon : Daemon α τ
  network : ScriptedNetwork
  /-- The changes that the daemon has not read. -/
  inbox : Mailbox Change
  /-- Whether the daemon is told of changes. -/
  connected : Bool
  /-- The requests that were sent and when, in order. -/
  sent : List (Instant × Name)
  /-- The tables that were published and when, in order. -/
  tables : List (Instant × Snapshot α)

/-- What others do. -/
inductive Occurrence (α : Type) where
  | nothing
  | news (e : NeighborEvent)
  /-- The database is changed in the same way so many times in a row. -/
  | edit (change : Database α → Option Change × Database α) (times : Nat)
  /-- A rebuild of the own advertisement is done. -/
  | rebuilt
  /-- The script for a neighbor changes. -/
  | script (neighbor : Name) (lines : List ScriptLine)
  /-- The monitor is stopped behind the daemon's back. -/
  | stopMonitor
  /-- The daemon is no longer told of changes. -/
  | disconnect

namespace Simulation

variable {α τ : Type}

/-- The present instant. -/
def now (s : Simulation α τ) : Instant := s.daemon.router.now

def onMonitor (s : Simulation α τ) (f : MonitorState α → MonitorState α) : Simulation α τ :=
  { s with daemon := s.daemon.onMonitor (·.act f) }

def passTo (s : Simulation α τ) (t : Instant) : Simulation α τ :=
  s.onMonitor fun m => { m with clock.now := max m.clock.now t }

def send (s : Simulation α τ) (request : ProbeRequest) : Simulation α τ :=
  match s.network.express s.now request with
  | .error _ => s
  | .ok network => { s with network, sent := s.sent ++ [(s.now, request.name)] }

def carryOut (s : Simulation α τ) : Signal α → Simulation α τ
  | .request r => s.send r
  | .report _ => s

/-- Carries out what has left the daemon. -/
def settle (s : Simulation α τ) : Simulation α τ :=
  let (signals, monitor) := s.daemon.router.monitor.takeOutbox
  let (tables, selector) := s.daemon.router.selector.takePublished
  let s : Simulation α τ :=
    { s with
      daemon := { s.daemon with router := { s.daemon.router with monitor, selector } }
      tables := s.tables ++ tables.map fun t => (s.now, t) }
  signals.foldl carryOut s

variable [Scalar α]

def launch (r : Router α τ) (network : ScriptedNetwork) : Simulation α τ :=
  let outlet (request : ProbeRequest) : Bool := (request.express network.running).toBool
  let r := { r with monitor := r.monitor.act fun m => { m with outlet } }
  (⟨.launch r, network, .empty, true, [], []⟩ : Simulation α τ).settle

/-- Lets the daemon take what comes in. -/
def handle (s : Simulation α τ) (i : Incoming) : Simulation α τ :=
  { s with daemon := s.daemon.handle i }.settle

/-- Does the next thing that happens by itself until an instant, if there is one. Outcomes that
arrive come before the daemon's deadline. -/
def step? (s : Simulation α τ) (limit : Instant) : Option (Simulation α τ) :=
  let wakeAt := s.daemon.wakeAt.map Duration.fullMillis
  match s.network.flights with
  | f :: rest =>
    if f.arrival ≤ wakeAt.getD f.arrival ∧ f.arrival ≤ limit then
      some ({ s with network.flights := rest }.passTo f.arrival |>.handle (.outcome f.outcome))
    else wake wakeAt
  | [] => wake wakeAt
where
  /-- Wakes the daemon at its deadline. -/
  wake (wakeAt : Option Instant) : Option (Simulation α τ) :=
    match wakeAt with
    | none => none
    | some t =>
      if t ≤ limit then
        let s := s.passTo t
        some { s with daemon := s.daemon.drive }.settle
      else none

/-- Lets happen what happens by itself until an instant, `bound` things at most. -/
def runTo (s : Simulation α τ) (limit : Instant) : Nat → Simulation α τ
  | 0 => s
  | bound + 1 =>
    match s.step? limit with
    | none => s.passTo limit
    | some next => next.runTo limit bound

/-! ## Occurrences -/

/-- Lets the daemon read its mailbox, `bound` times at most. -/
def readInbox (s : Simulation α τ) : Nat → Simulation α τ
  | 0 => s
  | bound + 1 =>
    let (delivery, inbox) := s.inbox.read
    let s := { s with inbox }
    match delivery with
    | .nothing => s
    | .lagged _ => (s.handle .changesLost).readInbox bound
    | .message c => (s.handle (.change c)).readInbox bound

/-- Changes the database once. -/
def edit (s : Simulation α τ) (change : Database α → Option Change × Database α) :
    Simulation α τ :=
  let (c, database) := change s.daemon.router.database
  let inbox := if s.connected then c.toList.foldl .push s.inbox else s.inbox
  { s with daemon.router.database := database, inbox }

/-- Changes the database so many times. -/
def edits (s : Simulation α τ) (change : Database α → Option Change × Database α) :
    Nat → Simulation α τ
  | 0 => s
  | times + 1 => (s.edit change).edits change times

def readAll (s : Simulation α τ) : Simulation α τ := s.readInbox (s.inbox.kept.length + 1)

def occur (s : Simulation α τ) : Occurrence α → Simulation α τ
  | .nothing => s
  | .news e => s.handle (.news e)
  | .edit change times => (s.edits change times).readAll
  | .rebuilt => s.onMonitor fun m => { m with rebuild := m.rebuild.complete.2 }
  | .script neighbor lines => { s with network := s.network.setScript neighbor lines }
  | .stopMonitor => s.onMonitor (·.stop)
  | .disconnect => { s with connected := false }.handle .changesEnd

/-- Ends the run. -/
def shutDown (s : Simulation α τ) : Simulation α τ :=
  { s with daemon := s.daemon.shutDown }.settle

end Simulation

end AdaptiveRouting
