import AdaptiveRouting.Learning.TimeSlots
import AdaptiveRouting.Proofs.Quantity
import Mathlib.Analysis.Convex.Basic

/-!
# Averages of time slots

What is remembered of a neighbor at a minute of the day comes from the reports that concern it: those
about the neighbor in the same ten minutes of the day. Every other report leaves it alone
(`TimeSlots.slot?_takeIn_of_not_concerns`), so the slot after any reports is put together from those
that concern it, in their order (`TimeSlots.slot?_takeAllIn`). Its average starts at the first of
them and takes in each later one by the smoothing factor (`movingAverage`); being made by mixing two
values at a time, it never leaves the range of what was reported (`exists_around_movingAverage`).
-/

namespace AdaptiveRouting

open Quantity (number)

/-! ## Reports -/

/-- A report of how a neighbor performs. -/
structure SlotReport (α : Type) where
  neighbor : Name
  /-- The minute of the day. -/
  minute : Nat
  performance : α
  time : Instant

namespace SlotReport

/-- The report with its number as an exact quantity. -/
def exact (r : SlotReport ℝ) : SlotReport Quantity := { r with performance := number r.performance }

variable {α : Type}

/-- Whether a report is about a neighbor and falls into the ten minutes around a minute. -/
def Concerns (r : SlotReport α) (n : Name) (minute : Nat) : Prop :=
  r.neighbor = n ∧ r.minute / 10 = minute / 10

instance (r : SlotReport α) (n : Name) (minute : Nat) : Decidable (r.Concerns n minute) :=
  inferInstanceAs (Decidable (_ ∧ _))

/-- The reports about a neighbor in the ten minutes around a minute, in their order. -/
def concerning (n : Name) (minute : Nat) (reports : List (SlotReport α)) : List (SlotReport α) :=
  reports.filter fun r => r.Concerns n minute

/-- Which reports concern a slot does not depend on their values. -/
theorem concerning_exact (n : Name) (minute : Nat) (reports : List (SlotReport ℝ)) :
    concerning n minute (reports.map exact) = (concerning n minute reports).map exact :=
  List.filter_map

end SlotReport

/-! ## Moving averages -/

/-- The exponential moving average of some numbers, begun at the first of them. -/
noncomputable def movingAverage (a first : ℝ) (later : List ℝ) : ℝ :=
  later.foldl (fun average x => a * x + (1 - a) * average) first

/-- A moving average lies between two of the numbers that it is made of. -/
theorem exists_around_movingAverage {a : ℝ} (hpos : 0 ≤ a) (hone : a ≤ 1) (first : ℝ)
    (later : List ℝ) :
    (∃ low ∈ first :: later, low ≤ movingAverage a first later) ∧
    (∃ high ∈ first :: later, movingAverage a first later ≤ high) := by
  -- The first two numbers are replaced by their combination, which lies between them.
  induction later generalizing first with
  | nil => exact ⟨⟨first, by simp, le_rfl⟩, ⟨first, by simp, le_rfl⟩⟩
  | cons x later ih =>
    obtain ⟨⟨low, hlow, hbelow⟩, ⟨high, hhigh, habove⟩⟩ := ih (a * x + (1 - a) * first)
    have hmin : min x first ≤ a * x + (1 - a) * first :=
      Convex.min_le_combo x first hpos (sub_nonneg.2 hone) (add_sub_cancel a 1)
    have hmax : a * x + (1 - a) * first ≤ max x first :=
      Convex.combo_le_max x first hpos (sub_nonneg.2 hone) (add_sub_cancel a 1)
    constructor
    · rcases List.mem_cons.1 hlow with rfl | hmem
      · rcases min_choice x first with h | h
        · exact ⟨x, by simp, h.ge.trans (hmin.trans hbelow)⟩
        · exact ⟨first, by simp, h.ge.trans (hmin.trans hbelow)⟩
      · exact ⟨low, by simp [hmem], hbelow⟩
    · rcases List.mem_cons.1 hhigh with rfl | hmem
      · rcases max_choice x first with h | h
        · exact ⟨x, by simp, habove.trans (hmax.trans h.le)⟩
        · exact ⟨first, by simp, habove.trans (hmax.trans h.le)⟩
      · exact ⟨high, by simp [hmem], habove⟩

/-! ## Slots -/

/-- A slot starts at the last full ten minutes. -/
theorem slotStart_eq (minute : Nat) : slotStart minute = 10 * (minute / 10) := by
  unfold slotStart
  omega

/-- Two minutes are in one slot exactly if they are in the same ten minutes. -/
theorem slotStart_eq_iff {minute other : Nat} :
    slotStart minute = slotStart other ↔ minute / 10 = other / 10 := by
  rw [slotStart_eq, slotStart_eq]
  omega

namespace TimeSlots

section
variable {α : Type} [Scalar α]

/-- A report enters one slot and leaves the others alone. -/
theorem slot?_update (s : TimeSlots α) (n k : Name) (minute other : Nat) (performance : α)
    (now : Instant) :
    (s.update n minute performance now).slot? k other =
      if n = k ∧ slotStart minute = slotStart other then
        some (report s.alpha (slotStart minute) performance now (s.slot? n minute))
      else s.slot? k other := by
  unfold slot? update
  dsimp only
  rw [Std.ExtTreeMap.getElem?_insert]
  by_cases hn : n = k
  · subst hn
    rw [if_pos (by simp), Option.bind_some, Std.ExtTreeMap.getElem?_insert]
    cases s.slots[n]? <;> simp
  · rw [if_neg (by simpa using hn), if_neg fun h => hn h.1]

def takeIn (s : TimeSlots α) (r : SlotReport α) : TimeSlots α :=
  s.update r.neighbor r.minute r.performance r.time

/-- Takes in some reports, one after the other. -/
def takeAllIn (s : TimeSlots α) (reports : List (SlotReport α)) : TimeSlots α :=
  reports.foldl takeIn s

/-- The slot that begins at a minute once a report has entered it. -/
def entered (alpha : α) (start : Nat) (slot : Option (TimeSlot α)) (r : SlotReport α) :
    Option (TimeSlot α) :=
  some (report alpha start r.performance r.time slot)

variable {s : TimeSlots α} {r : SlotReport α} {n : Name} {minute : Nat}

/-- A report is entered in the slot that it concerns. -/
theorem slot?_takeIn_of_concerns (h : r.Concerns n minute) :
    (s.takeIn r).slot? n minute = entered s.alpha (slotStart minute) (s.slot? n minute) r := by
  obtain ⟨rfl, hminute⟩ := h
  have hstart := slotStart_eq_iff.2 hminute
  rw [takeIn, slot?_update, if_pos ⟨rfl, hstart⟩, entered, slot?, slot?, hstart]

/-- A report about another neighbor or at another time of the day changes nothing. -/
theorem slot?_takeIn_of_not_concerns (h : ¬ r.Concerns n minute) :
    (s.takeIn r).slot? n minute = s.slot? n minute := by
  rw [takeIn, slot?_update, if_neg fun hsame => h ⟨hsame.1, slotStart_eq_iff.1 hsame.2⟩]

/-- A slot is put together from the reports that concern it. -/
theorem slot?_takeAllIn (s : TimeSlots α) (reports : List (SlotReport α)) (n : Name)
    (minute : Nat) :
    (s.takeAllIn reports).slot? n minute =
      (SlotReport.concerning n minute reports).foldl (entered s.alpha (slotStart minute))
        (s.slot? n minute) := by
  induction reports generalizing s with
  | nil => rfl
  | cons r reports ih =>
    have hrest := ih (s.takeIn r)
    by_cases h : r.Concerns n minute
    · rw [slot?_takeIn_of_concerns h] at hrest
      rw [SlotReport.concerning, List.filter_cons_of_pos (by simpa using h)]
      exact hrest
    · rw [slot?_takeIn_of_not_concerns h] at hrest
      rw [SlotReport.concerning, List.filter_cons_of_neg (by simpa using h)]
      exact hrest

end

/-- Later reports move the average of a slot, are counted, and leave the time of the last one. -/
theorem foldl_entered {a x : ℝ} {start : Nat} {slot : TimeSlot Quantity}
    (haverage : slot.average = number x) (later : List (SlotReport ℝ)) :
    (later.map SlotReport.exact).foldl (entered (number a) start) (some slot) =
      some { slot with
        average := number (movingAverage a x (later.map (·.performance)))
        count := slot.count + later.length
        lastUpdate := (later.getLast?.map (·.time)).getD slot.lastUpdate } := by
  induction later generalizing x slot with
  | nil => exact congrArg (fun average => some { slot with average }) haverage
  | cons r later ih =>
    have hmoved : (report (number a) start (number r.performance) r.time (some slot)).average =
        number (a * r.performance + (1 - a) * x) := by
      simp [report, haverage, Quantity.one_eq]
    have hlast : (r :: later).getLast?.map (·.time) =
        some ((later.getLast?.map (·.time)).getD r.time) := by
      rw [List.getLast?_cons]
      cases later.getLast? <;> rfl
    refine (ih hmoved).trans ?_
    rw [hlast, List.length_cons, Nat.add_comm later.length, ← Nat.add_assoc]
    rfl

end TimeSlots

/-- What a slot holds, given the reports that concern it, the first of them apart. -/
structure TimeSlot.Averages (a : ℝ) (minute : Nat) (first : SlotReport ℝ)
    (later : List (SlotReport ℝ)) (slot : TimeSlot Quantity) : Prop where
  average : slot.average =
    number (movingAverage a first.performance (later.map (·.performance)))
  /-- The average is not below everything that was reported. -/
  low : ∃ r ∈ first :: later, number r.performance ≤ slot.average
  /-- The average is not above everything that was reported. -/
  high : ∃ r ∈ first :: later, slot.average ≤ number r.performance
  count : slot.count = (first :: later).length
  lastUpdate : (first :: later).getLast?.map (·.time) = some slot.lastUpdate
  minute_lt : slot.minute < 60
  start : slot.hour * 60 + slot.minute = 10 * (minute / 10)

/-- The slot that some reports make, the first of which opens it. -/
theorem TimeSlots.exists_foldl_entered {a : ℝ} (hpos : 0 ≤ a) (hone : a ≤ 1) (minute : Nat)
    (first : SlotReport ℝ) (later : List (SlotReport ℝ)) :
    ∃ slot, ((first :: later).map SlotReport.exact).foldl
        (entered (number a) (slotStart minute)) none = some slot ∧
      slot.Averages a minute first later := by
  obtain ⟨⟨low, hlow, hbelow⟩, ⟨high, hhigh, habove⟩⟩ :=
    exists_around_movingAverage hpos hone first.performance (later.map (·.performance))
  obtain ⟨r, hr, rfl⟩ := List.mem_map.1 (List.map_cons ▸ hlow)
  obtain ⟨r', hr', rfl⟩ := List.mem_map.1 (List.map_cons ▸ hhigh)
  refine ⟨_, foldl_entered (x := first.performance) rfl later, ?_⟩
  exact
    { average := rfl
      low := ⟨r, hr, Quantity.number_le_number.2 hbelow⟩
      high := ⟨r', hr', Quantity.number_le_number.2 habove⟩
      count := Nat.add_comm 1 later.length
      lastUpdate := by
        rw [List.getLast?_cons]
        cases later.getLast? <;> rfl
      minute_lt := Nat.mod_lt _ (by decide)
      start := by rw [← slotStart_eq]; exact Nat.div_add_mod' _ _ }

/-- **Time slots are moving averages of their own reports.** With a smoothing factor between 0,
exclusive, and 1, take in any reports about any neighbors at any minutes. A neighbor has a slot
around a minute exactly if a report concerns it. The slot then holds the average of the reports that
concern it, smoothed from the first of them on, which is within the range of what they say, their
number, the time of the last of them and the time of day at which the slot begins; and a report that
does not concern it changes nothing. -/
theorem slots_average {a : ℝ} (hpos : 0 < a) (hone : a ≤ 1) (reports : List (SlotReport ℝ))
    (n : Name) (minute : Nat) :
    let s := (TimeSlots.empty (number a)).takeAllIn (reports.map SlotReport.exact)
    ((s.slot? n minute).isSome ↔ ∃ r ∈ reports, r.Concerns n minute) ∧
    (∀ slot, s.slot? n minute = some slot → s.feature n minute = slot.average ∧
      ∃ first later, SlotReport.concerning n minute reports = first :: later ∧
        slot.Averages a minute first later) ∧
    ∀ r : SlotReport Quantity, ¬ r.Concerns n minute →
      (s.takeIn r).slot? n minute = s.slot? n minute := by
  intro s
  -- Reports that do not concern the slot drop out, and the others are folded into it.
  have hslot : s.slot? n minute =
      ((SlotReport.concerning n minute reports).map SlotReport.exact).foldl
        (TimeSlots.entered (number a) (slotStart minute)) none := by
    rw [← SlotReport.concerning_exact]
    exact TimeSlots.slot?_takeAllIn _ _ n minute
  have hconcerned : (∃ r ∈ reports, r.Concerns n minute) ↔
      SlotReport.concerning n minute reports ≠ [] := by
    simp [SlotReport.concerning, List.filter_eq_nil_iff]
  rw [hconcerned]
  cases hown : SlotReport.concerning n minute reports with
  | nil =>
    rw [hown] at hslot
    replace hslot : s.slot? n minute = none := hslot
    exact ⟨by simp [hslot], by simp [hslot], fun r => TimeSlots.slot?_takeIn_of_not_concerns⟩
  | cons first later =>
    obtain ⟨slot, hfold, hholds⟩ :=
      TimeSlots.exists_foldl_entered hpos.le hone minute first later
    rw [hown, hfold] at hslot
    refine ⟨by simp [hslot], fun slot' hslot' => ?_,
      fun r => TimeSlots.slot?_takeIn_of_not_concerns⟩
    obtain rfl : slot = slot' := Option.some.inj (hslot.symm.trans hslot')
    exact ⟨by rw [TimeSlots.feature, hslot], first, later, rfl, hholds⟩

namespace Morning

def peer : Name := .ofString "/b"

def other : Name := .ofString "/c"

/-- Reports at about ten o'clock: two for the same slot of one neighbor, with reports for another
slot and another neighbor in between. -/
noncomputable def reports : List (SlotReport ℝ) :=
  [⟨peer, 601, 1, 0⟩, ⟨peer, 610, 0, 5⟩, ⟨other, 605, 0, 7⟩, ⟨peer, 609, 0, 9⟩]

/-- The reports of a neighbor in one slot are averaged apart from those of other slots and
neighbors. -/
theorem slot_of_peer : (0 : ℝ) < 1 / 10 ∧ (1 / 10 : ℝ) ≤ 1 ∧
    let s := (TimeSlots.empty (number (1 / 10))).takeAllIn (reports.map SlotReport.exact)
    s.slot? peer 600 = some ⟨10, 0, number (9 / 10), 2, 9⟩ ∧
    s.feature peer 600 = number (9 / 10) ∧ s.slot? peer 620 = none := by
  have hpos : (0 : ℝ) < 1 / 10 := by norm_num
  have hone : (1 / 10 : ℝ) ≤ 1 := by norm_num
  refine ⟨hpos, hone, ?_⟩
  intro s
  have hother : other ≠ peer := by decide +kernel
  obtain ⟨hsome, hslot, -⟩ := slots_average hpos hone reports peer 600
  obtain ⟨slot, heq⟩ := Option.isSome_iff_exists.1
    (hsome.2 ⟨_, List.mem_cons_self, rfl, rfl⟩)
  obtain ⟨hfeature, first, later, hown, hholds⟩ := hslot slot heq
  have hreports : SlotReport.concerning peer 600 reports =
      [⟨peer, 601, 1, 0⟩, ⟨peer, 609, 0, 9⟩] := by
    simp [SlotReport.concerning, reports, SlotReport.Concerns, hother]
  obtain ⟨rfl, rfl⟩ := List.cons.inj (hreports.symm.trans hown)
  have haverage : slot.average = number (9 / 10) := by
    rw [hholds.average]
    norm_num [movingAverage]
  have hhour : slot.hour = 10 ∧ slot.minute = 0 := by
    have hlt := hholds.minute_lt
    have hstart := hholds.start
    omega
  have hcontents : slot = ⟨10, 0, number (9 / 10), 2, 9⟩ := by
    obtain ⟨hour, minute, average, count, lastUpdate⟩ := slot
    obtain ⟨rfl, rfl⟩ := hhour
    obtain rfl := haverage
    obtain rfl : count = 2 := hholds.count
    obtain rfl : 9 = lastUpdate := Option.some.inj hholds.lastUpdate
    rfl
  refine ⟨heq.trans (congrArg some hcontents), hfeature.trans haverage, ?_⟩
  have hnever : ¬ (s.slot? peer 620).isSome := by
    rw [(slots_average hpos hone reports peer 620).1]
    simp [reports, SlotReport.Concerns]
  exact Option.not_isSome_iff_eq_none.1 hnever

end Morning

end AdaptiveRouting
