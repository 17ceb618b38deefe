import AdaptiveRouting.Scalar

/-!
# Durations and instants

Time is counted in whole nanoseconds: a `Duration` is a length of time, an `Instant` the length
of time since the clock was started. Both are natural numbers, so a difference of instants that
would be negative is zero, which is what every rate limit and every round-trip time here wants.

Neither has an upper end here. The program counts the seconds of a duration in 64 bits, and the
clock of its host has a last instant; a sum of times that goes beyond is not a value but the end
of the program. Where that decides what is claimed, the sums have to be held by a host
(`Instant.Reaches`), and what handling the timers comes to on a given host is told in
`Proofs/Monitor/HostTime`.

Round-trip times enter costs and scores in whole milliseconds (`Duration.wholeMillis`); their
average is the integer quotient (`Duration.average?`).
-/

namespace AdaptiveRouting

/-- The number of values of a 64-bit word, which bounds counts and the seconds of a duration. -/
def wordBound : Nat := 18446744073709551616

/-- A length of time in nanoseconds. -/
abbrev Duration : Type := Nat

/-- A point in time, in nanoseconds since the clock was started. -/
abbrev Instant : Type := Nat

namespace Duration

def ofMillis (n : Nat) : Duration := n * 1000000

def ofSeconds (n : Nat) : Duration := n * 1000000000

def seconds (d : Duration) : Nat := d / 1000000000

def subsecNanos (d : Duration) : Nat := d % 1000000000

/-- The whole milliseconds in a duration, as a number. -/
def wholeMillis {α : Type} [Scalar α] (d : Duration) : α := Scalar.ofCount (d / 1000000)

/-- The time that several durations take one after the other. -/
def total : List Duration → Duration
  | [] => 0
  | d :: rest => d + total rest

/-- The average in whole nanoseconds; there is none without samples. -/
def average? (samples : List Duration) : Option Duration :=
  if samples = [] then none else some (total samples / samples.length)

/-- There is an average unless there are no samples. -/
theorem average?_eq_none_iff {samples : List Duration} :
    average? samples = none ↔ samples = [] := by
  unfold average?; split <;> simp_all

end Duration

/-- A clock that ends at the latest instant can still show the instant that comes a delay after the
present one, and the delay is one that 64 bits of seconds can hold. -/
def Instant.Reaches (latest now : Instant) (delay : Duration) : Prop :=
  delay.seconds < wordBound ∧ now + delay ≤ latest

instance (latest now : Instant) (delay : Duration) : Decidable (Instant.Reaches latest now delay) :=
  inferInstanceAs (Decidable (_ ∧ _))

end AdaptiveRouting
