import AdaptiveRouting.Time.Duration
import Std.Data.ExtTreeMap

/-!
# Timer queue

A `TimerQueue` holds payloads until their deadlines. Timers are numbered in the order in which
they are scheduled and a number is never used twice. Due timers come out by deadline, timers of
one deadline by number.

Cancelling is lazy: the queue keeps an agenda of deadlines in order and a table of the payloads
that are still wanted, and a cancelled timer leaves the table at once but the agenda only when it
reaches the front (`TimerQueue.settle`).

`LiveTimers` is the plain account of the same thing, the list of the live timers in order, with
the operations on it in their most direct form.
-/

namespace AdaptiveRouting

abbrev TimerId : Type := Nat

/-- The place of a timer in the order in which timers fall due. -/
abbrev Appointment : Type := Instant × TimerId

/-- Whether one appointment comes before another: by deadline, then by number. -/
def Appointment.before (a b : Appointment) : Bool := a.1 < b.1 || (a.1 == b.1 && a.2 < b.2)

/-- Timers with payloads, cancelled lazily. -/
structure TimerQueue (τ : Type) where
  /-- The appointments in order, cancelled ones included. -/
  agenda : List Appointment
  /-- The payloads of the timers that are neither cancelled nor taken out. -/
  live : Std.ExtTreeMap TimerId τ compare
  nextId : TimerId

namespace TimerQueue

variable {τ : Type}

/-- No timers yet. -/
def empty : TimerQueue τ := ⟨[], ∅, 0⟩

instance : Inhabited (TimerQueue τ) := ⟨empty⟩

/-- Puts an appointment in its place. -/
def enter (a : Appointment) : List Appointment → List Appointment
  | [] => [a]
  | b :: rest => if a.before b then a :: b :: rest else b :: enter a rest

/-- Adds a timer and tells its number. -/
def schedule (q : TimerQueue τ) (deadline : Instant) (payload : τ) : TimerId × TimerQueue τ :=
  (q.nextId, ⟨enter (deadline, q.nextId) q.agenda, q.live.insert q.nextId payload, q.nextId + 1⟩)

/-- Gives up a timer; its payload is returned when it was live. -/
def cancel (q : TimerQueue τ) (id : TimerId) : Option τ × TimerQueue τ :=
  (q.live[id]?, { q with live := q.live.erase id })

/-- Gives up every timer. -/
def cancelAll (q : TimerQueue τ) : TimerQueue τ := { q with agenda := [], live := ∅ }

/-- Whether a timer is live. -/
def isPending (q : TimerQueue τ) (id : TimerId) : Bool := q.live.contains id

/-- The number of live timers. -/
def size (q : TimerQueue τ) : Nat := q.live.size

/-- Whether no timer is live. -/
def isEmpty (q : TimerQueue τ) : Bool := q.live.isEmpty

/-- Drops cancelled timers from the front of the agenda. -/
def settle (q : TimerQueue τ) : TimerQueue τ :=
  { q with agenda := q.agenda.dropWhile fun a => !q.live.contains a.2 }

def nextDeadline? (q : TimerQueue τ) : Option Instant := q.settle.agenda.head?.map (·.1)

/-- Takes out the first live timer if it is due. -/
def popDue? (q : TimerQueue τ) (now : Instant) : Option (TimerId × τ × TimerQueue τ) :=
  match q.settle.agenda with
  | [] => none
  | (deadline, id) :: rest =>
    if deadline ≤ now then
      -- In a settled agenda the first appointment is that of a live timer.
      q.live[id]?.map fun payload =>
        (id, payload, { q with agenda := rest, live := q.live.erase id })
    else none

end TimerQueue

/-! ## The plain account -/

/-- A timer that is neither cancelled nor taken out. -/
structure LiveTimer (τ : Type) where
  deadline : Instant
  id : TimerId
  payload : τ

/-- The live timers in the order in which they fall due, with the next number to give out. -/
structure LiveTimers (τ : Type) where
  timers : List (LiveTimer τ)
  nextId : TimerId

namespace LiveTimers

variable {τ : Type}

/-- No timers yet. -/
def empty : LiveTimers τ := ⟨[], 0⟩

/-- Puts a timer in its place. -/
def enter (t : LiveTimer τ) : List (LiveTimer τ) → List (LiveTimer τ)
  | [] => [t]
  | u :: rest =>
    if Appointment.before (t.deadline, t.id) (u.deadline, u.id) then t :: u :: rest
    else u :: enter t rest

/-- Adds a timer and tells its number. -/
def schedule (l : LiveTimers τ) (deadline : Instant) (payload : τ) : TimerId × LiveTimers τ :=
  (l.nextId, ⟨enter ⟨deadline, l.nextId, payload⟩ l.timers, l.nextId + 1⟩)

/-- Takes a timer off the list. -/
def cancel (l : LiveTimers τ) (id : TimerId) : Option τ × LiveTimers τ :=
  ((l.timers.find? (·.id = id)).map (·.payload), { l with timers := l.timers.filter (·.id ≠ id) })

/-- Takes every timer off the list. -/
def cancelAll (l : LiveTimers τ) : LiveTimers τ := { l with timers := [] }

/-- Whether a timer is on the list. -/
def isPending (l : LiveTimers τ) (id : TimerId) : Bool := l.timers.any (·.id = id)

/-- The number of timers on the list. -/
def size (l : LiveTimers τ) : Nat := l.timers.length

def isEmpty (l : LiveTimers τ) : Bool := l.timers.isEmpty

def nextDeadline? (l : LiveTimers τ) : Option Instant := l.timers.head?.map (·.deadline)

/-- Takes the first timer off the list if it is due. -/
def popDue? (l : LiveTimers τ) (now : Instant) : Option (TimerId × τ × LiveTimers τ) :=
  match l.timers with
  | [] => none
  | t :: rest =>
    if t.deadline ≤ now then some (t.id, t.payload, { l with timers := rest }) else none

end LiveTimers

end AdaptiveRouting
