import AdaptiveRouting.Time.Duration

/-!
# Calculation schedule

Calculations of the routing table are run one at a time and not right away. The first request
arms a deadline one interval ahead and later ones are merged into it. A request that comes in
while a calculation is running is remembered, so that finishing arms the deadline once more.

The schedule is a state machine of three phases. Every party that asks for calculations acts on
the same schedule.
-/

namespace AdaptiveRouting

/-- Where a schedule stands. -/
inductive Phase where
  /-- Nobody has asked for a calculation. -/
  | idle
  /-- A calculation may begin from the deadline on. -/
  | scheduled (deadline : Instant)
  /-- A calculation is running; `rerun` says whether another one was asked for. -/
  | calculating (rerun : Bool)
deriving DecidableEq, Inhabited

/-- When to calculate. -/
structure Schedule where
  /-- The time between a request and the calculation. -/
  interval : Duration
  /-- Where the schedule stands. -/
  phase : Phase
deriving DecidableEq

namespace Schedule

/-- A schedule that nobody has asked anything of. -/
def idle (interval : Duration) : Schedule := ⟨interval, .idle⟩

/-- Asks for a calculation. -/
def request (s : Schedule) (now : Instant) : Schedule :=
  match s.phase with
  | .idle => { s with phase := .scheduled (now + s.interval) }
  | .scheduled _ => s
  | .calculating _ => { s with phase := .calculating true }

/-- Asks for a calculation `n` times. -/
def requests (s : Schedule) (now : Instant) : Nat → Schedule
  | 0 => s
  | n + 1 => (s.request now).requests now n

def begin? (s : Schedule) (now : Instant) : Option Schedule :=
  match s.phase with
  | .scheduled deadline =>
    if deadline ≤ now then some { s with phase := .calculating false } else none
  | _ => none

/-- Ends the calculation that is running, if there is one. -/
def finish (s : Schedule) (now : Instant) : Schedule :=
  match s.phase with
  | .calculating true => { s with phase := .scheduled (now + s.interval) }
  | .calculating false => { s with phase := .idle }
  | _ => s

def deadline? (s : Schedule) : Option Instant :=
  match s.phase with
  | .scheduled deadline => some deadline
  | _ => none

/-- Whether a deadline is armed. -/
def isScheduled (s : Schedule) : Bool := s.deadline?.isSome

def isCalculating (s : Schedule) : Bool :=
  match s.phase with
  | .calculating _ => true
  | _ => false

end Schedule

end AdaptiveRouting
