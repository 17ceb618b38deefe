import AdaptiveRouting.Monitor.Control
import AdaptiveRouting.Monitor.Costs
import AdaptiveRouting.Router.Calculation

/-!
# The event loop

A `Daemon` is a router that runs by itself. It does what is due and then waits, until the next
deadline or until something comes in: the outcome of a probe, news of a neighbor, or a change in
the database. It takes one thing at a time and does what is due after each of them.

The deadline is settled before the wait. What is done to the router meanwhile, behind the daemon's
back, does not move it.
-/

namespace AdaptiveRouting

/-- A router that runs by itself. -/
structure Daemon (α τ : Type) where
  router : Router α τ
  /-- When it acts without being prompted. -/
  wakeAt : Option Instant
  /-- Whether changes of the database can still come in. -/
  listening : Bool

/-- What comes in from outside. -/
inductive Incoming where
  | outcome (o : ProbeOutcome)
  | news (e : NeighborEvent)
  | change (c : Change)
  /-- Changes of the database were lost. -/
  | changesLost
  /-- No more changes of the database will come in. -/
  | changesEnd
deriving DecidableEq

def earlier? : Option Instant → Option Instant → Option Instant
  | some a, some b => some (min a b)
  | some a, none => some a
  | none, b => b

namespace Daemon

variable {α τ : Type}

def onMonitor (d : Daemon α τ)
    (f : Monitor α (HookMemory α τ) → Monitor α (HookMemory α τ)) : Daemon α τ :=
  { d with router.monitor := f d.router.monitor }

variable [Scalar α]

/-- Does what is due and settles the next deadline. -/
def drive (d : Daemon α τ) : Daemon α τ :=
  let r := { d.router with monitor := d.router.monitor.act (·.poll) }.poll.2
  { d with router := r, wakeAt := earlier? r.monitor.nextDeadline? r.nextDeadline? }

/-- Starts to run a router on the costs of its monitor. -/
def launch (r : Router α τ) : Daemon α τ :=
  let r := { r with monitor := r.monitor.act (·.start), selector.hasCosts := true }
  (⟨r, none, true⟩ : Daemon α τ).drive

def take (d : Daemon α τ) : Incoming → Daemon α τ
  | .outcome o => d.onMonitor (·.handleOutcome o)
  | .news e => d.onMonitor fun m => m.act (·.handleNews e)
  | .change c => if d.listening then { d with router := d.router.notice c } else d
  | .changesLost => if d.listening then { d with router := d.router.requestCalculation } else d
  | .changesEnd => { d with listening := false }

/-- Takes what comes in and does what is due. -/
def handle (d : Daemon α τ) (i : Incoming) : Daemon α τ := (d.take i).drive

/-- Ends the run: the monitor is stopped. -/
def shutDown (d : Daemon α τ) : Daemon α τ := d.onMonitor fun m => m.act (·.stop)

end Daemon

end AdaptiveRouting
