import AdaptiveRouting.Time.Duration

/-!
# The clock

A `Clock` tells the instant and the time of day. Whoever owns it moves it on with
`Clock.advance` and can set the time of day, which leaves the instant alone. The time of day is
kept in whole seconds, and only the whole seconds of each advance count towards it.
-/

namespace AdaptiveRouting

def minutesPerDay : Nat := 24 * 60

/-- The instant together with the second of the day. -/
structure Clock where
  now : Instant
  /-- The seconds since midnight. -/
  daySecond : Nat
deriving DecidableEq, Inhabited

namespace Clock

/-- A clock that starts at a minute of the day, counted beyond midnight if need be. -/
def startingAt (minute : Nat) : Clock := ⟨0, minute % minutesPerDay * 60⟩

/-- Lets time pass. -/
def advance (c : Clock) (elapsed : Duration) : Clock where
  now := c.now + elapsed
  -- What is left of the last second is not carried over.
  daySecond := (c.daySecond + elapsed.seconds) % (minutesPerDay * 60)

def setMinute (c : Clock) (minute : Nat) : Clock :=
  { c with daySecond := minute % minutesPerDay * 60 }

def minuteOfDay (c : Clock) : Nat := c.daySecond / 60

end Clock

end AdaptiveRouting
