import AdaptiveRouting.Name
import AdaptiveRouting.Scalar
import AdaptiveRouting.Time.Duration

/-!
# Time slots

How each neighbor tends to perform at each time of day. The day is cut into slots of ten minutes,
and every slot of every neighbor holds an exponential moving average of the performance that was
reported in it. A slot that has never seen a report counts as average (`TimeSlots.feature`).
-/

namespace AdaptiveRouting

/-- The minute of the day at which the slot of a minute begins. -/
def slotStart (minute : Nat) : Nat := minute / 60 * 60 + minute % 60 / 10 * 10

/-- The performance of one neighbor in one slot. -/
structure TimeSlot (α : Type) where
  /-- The hour at which the slot begins. -/
  hour : Nat
  /-- The minute of that hour. -/
  minute : Nat
  average : α
  count : Nat
  /-- When the last report came in. -/
  lastUpdate : Instant

/-- The slots of every neighbor, by the minute at which they begin. -/
structure TimeSlots (α : Type) where
  alpha : α
  /-- The slots that have seen a report. -/
  slots : NameMap (Std.ExtTreeMap Nat (TimeSlot α) compare)

namespace TimeSlots

variable {α : Type}

/-- No reports yet. -/
def empty (alpha : α) : TimeSlots α := ⟨alpha, ∅⟩

/-- The slot of a neighbor that contains a minute of the day. -/
def slot? (s : TimeSlots α) (neighbor : Name) (minute : Nat) : Option (TimeSlot α) :=
  (s.slots[neighbor]?).bind fun slots => slots[slotStart minute]?

variable [Scalar α]

def report (alpha : α) (start : Nat) (performance : α) (now : Instant) :
    Option (TimeSlot α) → TimeSlot α
  | none => ⟨start / 60, start % 60, performance, 1, now⟩
  | some slot =>
    { slot with
      average := alpha * performance + (1.0 - alpha) * slot.average
      count := slot.count + 1
      lastUpdate := now }

/-- Takes a report into the slot that contains the minute. -/
def update (s : TimeSlots α) (neighbor : Name) (minute : Nat) (performance : α) (now : Instant) :
    TimeSlots α :=
  let start := slotStart minute
  let slots := (s.slots[neighbor]?).getD ∅
  { s with
    slots := s.slots.insert neighbor
      (slots.insert start (report s.alpha start performance now slots[start]?)) }

/-- How a neighbor tends to perform at a minute of the day. -/
def feature (s : TimeSlots α) (neighbor : Name) (minute : Nat) : α :=
  match s.slot? neighbor minute with
  | none => 0.5
  | some slot => slot.average

end TimeSlots

end AdaptiveRouting
