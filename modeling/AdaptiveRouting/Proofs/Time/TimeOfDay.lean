import AdaptiveRouting.Proofs.Time.Averages
import AdaptiveRouting.Time.Clock
import Mathlib.Algebra.GroupWithZero.Nat
import Mathlib.Data.List.Induction

/-!
# The time of day when time passes in pieces

The instant of a clock does not care how the time that passes is cut into pieces, the time of day
does: the parts of a second at the ends of the pieces do not count towards it. Put together they
make whole seconds that are lost (`lostSeconds`), fewer than there are pieces
(`lostSeconds_lt_length`), and the time of day is the one that the time without them leads to
(`Clock.WithinDay.daySecond_advanceAll`). So time that passes in pieces leads to the same clock as
time that passes at once exactly if the seconds that are lost make whole days, none for instance
(`Clock.WithinDay.advanceAll_eq_iff`).

Setting the time of day makes up for what was lost before. After any calls of a clock its time of
day is behind by the seconds that were lost since it was last set (`Clock.time_of_day_lags`).
-/

namespace AdaptiveRouting

/-! ## Pieces of time -/

/-- The whole seconds that the ends of pieces of time make when they are put together. -/
def lostSeconds (pieces : List Duration) : Nat :=
  (Duration.total (pieces.map Duration.subsecNanos)).seconds

/-- A total is that of the whole seconds and that of what is left of each piece. -/
theorem Duration.total_eq (pieces : List Duration) :
    total pieces = ofSeconds (pieces.map seconds).sum + total (pieces.map subsecNanos) := by
  induction pieces with
  | nil => rfl
  | cons d rest ih =>
    have hd : ofSeconds d.seconds + d.subsecNanos = d := Nat.div_add_mod' d 1000000000
    calc d + total rest
      _ = (ofSeconds d.seconds + d.subsecNanos) +
          (ofSeconds (rest.map seconds).sum + total (rest.map subsecNanos)) := by rw [hd, ih]
      _ = (ofSeconds d.seconds + ofSeconds (rest.map seconds).sum) +
          (d.subsecNanos + total (rest.map subsecNanos)) := Nat.add_add_add_comm ..
      _ = ofSeconds (d.seconds + (rest.map seconds).sum) +
          (d.subsecNanos + total (rest.map subsecNanos)) := by
        rw [ofSeconds, ofSeconds, ofSeconds, Nat.add_mul]

/-- Of the seconds that have passed those in the pieces are not lost. -/
theorem Duration.seconds_total (pieces : List Duration) :
    (total pieces).seconds = (pieces.map seconds).sum + lostSeconds pieces := by
  rw [total_eq, seconds, ofSeconds, Nat.mul_comm, Nat.mul_add_div (by decide)]
  rfl

/-- Taking whole seconds away takes them from the seconds. -/
theorem Duration.seconds_sub_ofSeconds (d : Duration) (n : Nat) :
    (d - ofSeconds n).seconds = d.seconds - n := by
  rw [seconds, seconds, ofSeconds, Nat.mul_comm]
  exact Nat.sub_mul_div ..

/-- No piece loses a whole second. -/
theorem lostSeconds_lt_length {pieces : List Duration} (h : pieces ≠ []) :
    lostSeconds pieces < pieces.length := by
  have hends : ∀ x ∈ pieces.map Duration.subsecNanos, x ≤ (999999999 : Nat) := by
    intro x hx
    obtain ⟨d, -, rfl⟩ := List.mem_map.1 hx
    exact Nat.le_of_lt_succ (Nat.mod_lt d (by decide))
  have hsum := Duration.total_le_length_mul hends
  rw [List.length_map] at hsum
  have hpos : 0 < pieces.length := List.length_pos_of_ne_nil h
  refine (Nat.div_lt_iff_lt_mul (by decide)).2 (Nat.lt_of_le_of_lt hsum ?_)
  exact Nat.mul_lt_mul_of_pos_left (by decide) hpos

/-! ## Clocks -/

/-- What can be done to a clock. -/
inductive ClockCall where
  | advance (elapsed : Duration)
  | setMinute (minute : Nat)

/-- The time that passes in a call. -/
def ClockCall.elapsed : ClockCall → Duration
  | advance elapsed => elapsed
  | setMinute _ => 0

/-- A minute to which the time of day was set, and the pieces in which time has passed since. -/
structure Stretch where
  minute : Nat
  pieces : List Duration

def Stretch.extend (s : Stretch) : ClockCall → Stretch
  | .advance elapsed => { s with pieces := s.pieces ++ [elapsed] }
  | .setMinute minute => ⟨minute, []⟩

/-- The time that counts towards the time of day: what has passed without the lost seconds. -/
def Stretch.counted (s : Stretch) : Duration :=
  .total s.pieces - .ofSeconds (lostSeconds s.pieces)

/-- The stretch at the end of some calls of a clock that starts at a minute. -/
def Stretch.along (minute : Nat) (calls : List ClockCall) : Stretch :=
  calls.foldl extend ⟨minute, []⟩

/-- One more call extends the stretch, or begins a new one. -/
theorem Stretch.along_concat (minute : Nat) (calls : List ClockCall) (call : ClockCall) :
    along minute (calls ++ [call]) = (along minute calls).extend call := by
  rw [along, List.foldl_append]
  rfl

namespace Clock

/-- Lets time pass in pieces. -/
def advanceAll (c : Clock) (pieces : List Duration) : Clock := pieces.foldl advance c

def perform (c : Clock) : ClockCall → Clock
  | .advance elapsed => c.advance elapsed
  | .setMinute minute => c.setMinute minute

/-- A clock that starts at a minute, after some calls. -/
def after (minute : Nat) (calls : List ClockCall) : Clock :=
  calls.foldl perform (startingAt minute)

/-- One more call is performed at the end. -/
theorem after_concat (minute : Nat) (calls : List ClockCall) (call : ClockCall) :
    after minute (calls ++ [call]) = (after minute calls).perform call := by
  rw [after, List.foldl_append]
  rfl

variable {c : Clock}

/-- The instant advances by the total of the pieces. -/
theorem now_advanceAll (c : Clock) (pieces : List Duration) :
    (c.advanceAll pieces).now = c.now + Duration.total pieces := by
  induction pieces generalizing c with
  | nil => rfl
  | cons d rest ih =>
    show ((c.advance d).advanceAll rest).now = c.now + (d + Duration.total rest)
    rw [ih, ← Nat.add_assoc]
    rfl

/-- The seconds of the day are those at the start and those in the pieces. -/
theorem daySecond_advanceAll_mod (c : Clock) (pieces : List Duration) :
    (c.advanceAll pieces).daySecond % (minutesPerDay * 60) =
      (c.daySecond + (pieces.map Duration.seconds).sum) % (minutesPerDay * 60) := by
  induction pieces generalizing c with
  | nil => rfl
  | cons d rest ih =>
    show ((c.advance d).advanceAll rest).daySecond % _ = _
    rw [ih, advance, List.map_cons, List.sum_cons, Nat.mod_add_mod, Nat.add_assoc]

/-! ### Times of day -/

/-- The seconds of the day are those of one day. -/
def WithinDay (c : Clock) : Prop := c.daySecond < minutesPerDay * 60

/-- A clock starts within the day. -/
theorem withinDay_startingAt (minute : Nat) : (startingAt minute).WithinDay :=
  Nat.mul_lt_mul_of_pos_right (Nat.mod_lt _ (by decide)) (by decide)

/-- Advancing leaves a clock within the day. -/
theorem withinDay_advance (c : Clock) (elapsed : Duration) : (c.advance elapsed).WithinDay :=
  Nat.mod_lt _ (by decide)

namespace WithinDay

/-- Advancing in pieces leaves a clock within the day. -/
theorem advanceAll (h : c.WithinDay) (pieces : List Duration) :
    (c.advanceAll pieces).WithinDay := by
  induction pieces generalizing c with
  | nil => exact h
  | cons d rest ih => exact ih (c.withinDay_advance d)

/-- The minute is one of the day. -/
theorem minuteOfDay_lt (h : c.WithinDay) : c.minuteOfDay < minutesPerDay :=
  (Nat.div_lt_iff_lt_mul (by decide)).2 h

/-- The time of day advances by the whole seconds of each piece. -/
theorem daySecond_advanceAll_eq (h : c.WithinDay) (pieces : List Duration) :
    (c.advanceAll pieces).daySecond =
      (c.daySecond + (pieces.map Duration.seconds).sum) % (minutesPerDay * 60) := by
  rw [← c.daySecond_advanceAll_mod pieces, Nat.mod_eq_of_lt (h.advanceAll pieces)]

/-- The time of day is the one that the time without the lost seconds leads to. -/
theorem daySecond_advanceAll (h : c.WithinDay) (pieces : List Duration) :
    (c.advanceAll pieces).daySecond =
      (c.advance (.total pieces - .ofSeconds (lostSeconds pieces))).daySecond := by
  rw [h.daySecond_advanceAll_eq, advance, Duration.seconds_sub_ofSeconds, Duration.seconds_total,
    Nat.add_sub_cancel]

/-- Time in pieces leads to the same clock as time at once exactly if the seconds that are lost make
whole days. -/
theorem advanceAll_eq_iff (h : c.WithinDay) (pieces : List Duration) :
    c.advanceAll pieces = c.advance (.total pieces) ↔ minutesPerDay * 60 ∣ lostSeconds pieces := by
  have hnow : (c.advanceAll pieces).now = (c.advance (.total pieces)).now :=
    c.now_advanceAll pieces
  have hsame : c.advanceAll pieces = c.advance (.total pieces) ↔
      (c.advanceAll pieces).daySecond = (c.advance (.total pieces)).daySecond :=
    ⟨fun heq => heq ▸ rfl, fun heq => congrArg₂ Clock.mk hnow heq⟩
  have hadvance : (c.advance (.total pieces)).daySecond =
      (c.daySecond + (pieces.map Duration.seconds).sum + lostSeconds pieces) %
        (minutesPerDay * 60) := by
    rw [advance, Duration.seconds_total, Nat.add_assoc]
  rw [hsame, hadvance, h.daySecond_advanceAll_eq, minutesPerDay]
  omega

/-- Two pieces lead to the same clock as their sum exactly if their ends do not make a second. -/
theorem advance_advance_iff (h : c.WithinDay) (a b : Duration) :
    (c.advance a).advance b = c.advance (a + b) ↔ a.subsecNanos + b.subsecNanos < 1000000000 := by
  have hlost : minutesPerDay * 60 ∣ lostSeconds [a, b] ↔ lostSeconds [a, b] = 0 := by
    have hlt : lostSeconds [a, b] < 2 := lostSeconds_lt_length (List.cons_ne_nil a [b])
    rw [minutesPerDay]
    omega
  have hzero : lostSeconds [a, b] = 0 ↔ a.subsecNanos + b.subsecNanos < 1000000000 :=
    Nat.div_eq_zero_iff_lt (by decide)
  rw [← hzero, ← hlost, ← h.advanceAll_eq_iff]
  rfl

end WithinDay

/-! ### Runs -/

/-- A clock is within the day after any calls. -/
theorem withinDay_after (minute : Nat) (calls : List ClockCall) :
    (after minute calls).WithinDay := by
  induction calls using List.reverseRecOn with
  | nil => exact withinDay_startingAt minute
  | append_singleton calls call ih =>
    rw [after_concat]
    cases call with
    | advance elapsed => exact withinDay_advance _ elapsed
    | setMinute minute => exact withinDay_startingAt minute

/-- The instant is the total of all time that has passed. -/
theorem now_after (minute : Nat) (calls : List ClockCall) :
    (after minute calls).now = Duration.total (calls.map ClockCall.elapsed) := by
  induction calls using List.reverseRecOn with
  | nil => rfl
  | append_singleton calls call ih =>
    rw [after_concat, List.map_append, List.map_singleton, Duration.total_concat, ← ih]
    cases call with
    | advance elapsed => rfl
    | setMinute minute => rfl

/-- What happened before the time of day was last set does not matter to it. -/
theorem daySecond_after (minute : Nat) (calls : List ClockCall) :
    (after minute calls).daySecond =
      ((startingAt (Stretch.along minute calls).minute).advanceAll
        (Stretch.along minute calls).pieces).daySecond := by
  induction calls using List.reverseRecOn with
  | nil => rfl
  | append_singleton calls call ih =>
    rw [after_concat, Stretch.along_concat]
    cases call with
    | setMinute minute => rfl
    | advance elapsed =>
      show ((after minute calls).daySecond + elapsed.seconds) % (minutesPerDay * 60) = _
      rw [ih, Stretch.extend, advanceAll, advanceAll, List.foldl_append]
      rfl

/-- **The time of day lags behind by the seconds that are lost.** After any calls the instant is the
time that has passed, and the time of day is the one to which the time that counts leads from the
minute to which it was last set. Time that passes from then on in pieces leads to the same clock as
time that passes at once exactly if the seconds that are lost make whole days; for two pieces,
exactly if their ends do not make a second. -/
theorem time_of_day_lags (minute : Nat) (calls : List ClockCall) :
    (after minute calls).now = Duration.total (calls.map ClockCall.elapsed) ∧
    (after minute calls).minuteOfDay < minutesPerDay ∧
    (after minute calls).minuteOfDay =
      ((startingAt (Stretch.along minute calls).minute).advance
        (Stretch.along minute calls).counted).minuteOfDay ∧
    (∀ pieces, (after minute calls).advanceAll pieces =
        (after minute calls).advance (.total pieces) ↔
      minutesPerDay * 60 ∣ lostSeconds pieces) ∧
    ∀ a b, ((after minute calls).advance a).advance b = (after minute calls).advance (a + b) ↔
      a.subsecNanos + b.subsecNanos < 1000000000 := by
  have hday := withinDay_after minute calls
  refine ⟨now_after minute calls, hday.minuteOfDay_lt, ?_, hday.advanceAll_eq_iff,
    hday.advance_advance_iff⟩
  have hstart := withinDay_startingAt (Stretch.along minute calls).minute
  rw [minuteOfDay, daySecond_after, hstart.daySecond_advanceAll]
  rfl

/-- Half a minute and half a second twice do not make a minute and a second. -/
example : (after 0 [.advance (.ofMillis 30500), .advance (.ofMillis 29500)]).minuteOfDay = 0 ∧
    (after 0 [.advance (.ofMillis 60000)]).minuteOfDay = 1 := by decide

end Clock

end AdaptiveRouting
