import AdaptiveRouting.Time.TimerQueue
import Mathlib.Data.List.Basic

/-!
# The live timers of a queue

A queue keeps its agenda and its payloads apart and drops cancelled timers late. What it means is
its list of live timers in the order in which they fall due (`TimerQueue.timers`). In a queue that
is well formed, the agenda is in order and names no timer twice, and every payload is on it
(`TimerQueue.WellFormed`); the operations keep this and act on the list of live timers as the
operations of `LiveTimers` do.
-/

namespace AdaptiveRouting

namespace Appointment

/-- Appointments are ordered by time and then by number. -/
theorem before_iff {a b : Appointment} : a.before b = true ↔ a.1 < b.1 ∨ a.1 = b.1 ∧ a.2 < b.2 := by
  simp [before]

/-- The order of appointments is transitive. -/
theorem before_trans {a b c : Appointment} (hab : a.before b = true) (hbc : b.before c = true) :
    a.before c = true := by
  rw [before_iff] at *
  grind

/-- Of two appointments of different timers one comes before the other. -/
theorem before_of_not_before {a b : Appointment} (hne : a.2 ≠ b.2) (h : ¬ a.before b = true) :
    b.before a = true := by
  rw [before_iff] at *
  grind

end Appointment

/-- Entering a timer loses and adds nothing else. -/
theorem LiveTimers.mem_enter {τ : Type} {t u : LiveTimer τ} {ts : List (LiveTimer τ)} :
    u ∈ enter t ts ↔ u = t ∨ u ∈ ts := by
  induction ts with
  | nil => simp [enter]
  | cons v rest ih =>
    unfold enter
    split
    · simp
    · simp only [List.mem_cons, ih]
      tauto

/-- What a selection leaves out does not show in it. -/
theorem LiveTimers.filter_enter {τ : Type} {p : LiveTimer τ → Bool} {t : LiveTimer τ}
    (h : p t = false) (ts : List (LiveTimer τ)) : (enter t ts).filter p = ts.filter p := by
  induction ts with
  | nil => simp [enter, h]
  | cons u rest ih =>
    unfold enter
    split
    · rw [List.filter_cons_of_neg (by simp [h])]
    · rw [List.filter_cons, List.filter_cons, ih]

namespace TimerQueue

variable {τ : Type} {q : TimerQueue τ}

/-- The live timer of an appointment, if it has not been cancelled. -/
def liveTimer? (q : TimerQueue τ) (a : Appointment) : Option (LiveTimer τ) :=
  q.live[a.2]?.map fun payload => ⟨a.1, a.2, payload⟩

/-- The live timers in the order in which they fall due. -/
def timers (q : TimerQueue τ) : List (LiveTimer τ) := q.agenda.filterMap q.liveTimer?

/-- The agenda is in order, names each timer once and names every live one; no number on it is
still to be given out. -/
structure WellFormed (q : TimerQueue τ) : Prop where
  /-- The agenda is in order. -/
  ordered : q.agenda.Pairwise fun a b => a.before b = true
  /-- No timer is on the agenda twice. -/
  distinct : (q.agenda.map (·.2)).Nodup
  /-- Every live timer is on the agenda. -/
  entered {id : TimerId} : id ∈ q.live → id ∈ q.agenda.map (·.2)
  /-- The numbers on the agenda have been given out. -/
  numbered {a : Appointment} : a ∈ q.agenda → a.2 < q.nextId

/-! ## The view -/

/-- An appointment stands for a live timer of its number. -/
theorem liveTimer?_eq_some_iff {a : Appointment} {t : LiveTimer τ} :
    q.liveTimer? a = some t ↔ a = (t.deadline, t.id) ∧ q.live[t.id]? = some t.payload := by
  obtain ⟨deadline, id⟩ := a
  obtain ⟨deadline', id', payload⟩ := t
  simp only [liveTimer?, Option.map_eq_some_iff, LiveTimer.mk.injEq, Prod.mk.injEq]
  constructor
  · rintro ⟨p, hp, rfl, rfl, rfl⟩
    exact ⟨⟨rfl, rfl⟩, hp⟩
  · rintro ⟨⟨rfl, rfl⟩, hp⟩
    exact ⟨payload, hp, rfl, rfl, rfl⟩

/-- A timer is live if its appointment is on the agenda and its payload is there. -/
theorem mem_timers {t : LiveTimer τ} :
    t ∈ q.timers ↔ (t.deadline, t.id) ∈ q.agenda ∧ q.live[t.id]? = some t.payload := by
  simp only [timers, List.mem_filterMap, liveTimer?_eq_some_iff]
  constructor
  · rintro ⟨a, ha, rfl, hp⟩
    exact ⟨ha, hp⟩
  · rintro ⟨ha, hp⟩
    exact ⟨_, ha, rfl, hp⟩

/-- Every payload belongs to a live timer. -/
theorem WellFormed.exists_timer (hq : q.WellFormed) {id : TimerId} {payload : τ}
    (h : q.live[id]? = some payload) : ∃ deadline, ⟨deadline, id, payload⟩ ∈ q.timers := by
  have hid : id ∈ q.live := Std.ExtTreeMap.isSome_getElem?_iff_mem.1 (by simp [h])
  obtain ⟨⟨deadline, id'⟩, ha, rfl⟩ := List.mem_map.1 (hq.entered hid)
  exact ⟨deadline, mem_timers.2 ⟨ha, h⟩⟩

/-- No live timer has the next number. -/
theorem WellFormed.getElem?_nextId (hq : q.WellFormed) : q.live[q.nextId]? = none := by
  refine Std.ExtTreeMap.getElem?_eq_none fun h => ?_
  obtain ⟨a, ha, heq⟩ := List.mem_map.1 (hq.entered h)
  exact Nat.ne_of_lt (hq.numbered ha) heq

/-- The live timers fall due in the order in which they are listed. -/
theorem WellFormed.pairwise_timers (hq : q.WellFormed) : q.timers.Pairwise fun t u =>
    Appointment.before (t.deadline, t.id) (u.deadline, u.id) = true := by
  refine List.pairwise_filterMap.2 (hq.ordered.imp fun {a b} hab t ht u hu => ?_)
  obtain ⟨rfl, -⟩ := liveTimer?_eq_some_iff.1 ht
  obtain ⟨rfl, -⟩ := liveTimer?_eq_some_iff.1 hu
  exact hab

/-- No two live timers have the same number. -/
theorem WellFormed.nodup_ids (hq : q.WellFormed) : (q.timers.map (·.id)).Nodup := by
  refine List.pairwise_map.2 (List.pairwise_filterMap.2 ?_)
  refine (List.pairwise_map.1 hq.distinct).imp fun {a b} hab t ht u hu => ?_
  obtain ⟨rfl, -⟩ := liveTimer?_eq_some_iff.1 ht
  obtain ⟨rfl, -⟩ := liveTimer?_eq_some_iff.1 hu
  exact hab

/-- The number of live timers is the length of their list. -/
theorem WellFormed.size_eq (hq : q.WellFormed) : q.size = q.timers.length := by
  have hkeys : (q.timers.map (·.id)).Perm q.live.keys := by
    refine (List.perm_ext_iff_of_nodup hq.nodup_ids Std.ExtTreeMap.nodup_keys).2 fun id => ?_
    rw [Std.ExtTreeMap.mem_keys, List.mem_map]
    constructor
    · rintro ⟨t, ht, rfl⟩
      exact Std.ExtTreeMap.isSome_getElem?_iff_mem.1 (by simp [(mem_timers.1 ht).2])
    · intro hid
      obtain ⟨payload, hp⟩ := Option.isSome_iff_exists.1
        (Std.ExtTreeMap.isSome_getElem?_iff_mem.2 hid)
      obtain ⟨deadline, ht⟩ := hq.exists_timer hp
      exact ⟨_, ht, rfl⟩
  have := hkeys.length_eq
  rw [List.length_map, Std.ExtTreeMap.length_keys] at this
  exact this.symm

/-! ## Scheduling and cancelling -/

/-- Entering an appointment loses and adds nothing else. -/
theorem mem_enter {a b : Appointment} {agenda : List Appointment} :
    b ∈ enter a agenda ↔ b = a ∨ b ∈ agenda := by
  induction agenda with
  | nil => simp [enter]
  | cons c rest ih =>
    unfold enter
    split
    · simp
    · simp only [List.mem_cons, ih]
      tauto

/-- The agenda has one more appointment. -/
theorem perm_enter (a : Appointment) (agenda : List Appointment) :
    (enter a agenda).Perm (a :: agenda) := by
  induction agenda with
  | nil => exact .refl _
  | cons b rest ih =>
    unfold enter
    split
    · exact .refl _
    · exact (ih.cons b).trans (.swap a b rest)

/-- An appointment is entered in its place. -/
theorem pairwise_enter {a : Appointment} {agenda : List Appointment}
    (h : agenda.Pairwise fun a b => a.before b = true) (ha : ∀ b ∈ agenda, b.2 ≠ a.2) :
    (enter a agenda).Pairwise fun a b => a.before b = true := by
  induction agenda with
  | nil => simp [enter]
  | cons b rest ih =>
    obtain ⟨hb, hrest⟩ := List.pairwise_cons.1 h
    obtain ⟨hba, harest⟩ := List.forall_mem_cons.1 ha
    unfold enter
    split
    · next hab =>
      refine List.pairwise_cons.2 ⟨fun c hc => ?_, h⟩
      rcases List.mem_cons.1 hc with rfl | hc
      · exact hab
      · exact Appointment.before_trans hab (hb c hc)
    · next hab =>
      refine List.pairwise_cons.2 ⟨fun c hc => ?_, ih hrest harest⟩
      rcases mem_enter.1 hc with rfl | hc
      · exact Appointment.before_of_not_before (Ne.symm hba) hab
      · exact hb c hc

/-- The empty queue is well formed. -/
theorem wellFormed_empty : (empty : TimerQueue τ).WellFormed where
  ordered := .nil
  distinct := .nil
  entered h := absurd h Std.ExtTreeMap.not_mem_empty
  numbered h := absurd h List.not_mem_nil

/-- Scheduling keeps a queue well formed. -/
theorem WellFormed.schedule (hq : q.WellFormed) (deadline : Instant) (payload : τ) :
    (q.schedule deadline payload).2.WellFormed where
  ordered := pairwise_enter hq.ordered fun b hb => Nat.ne_of_lt (hq.numbered hb)
  distinct := by
    refine ((perm_enter _ _).map _).nodup_iff.2 (List.nodup_cons.2 ⟨fun h => ?_, hq.distinct⟩)
    obtain ⟨b, hb, heq⟩ := List.mem_map.1 h
    exact Nat.ne_of_lt (hq.numbered hb) heq
  entered {id} h := by
    refine ((perm_enter _ _).map _).mem_iff.2 ?_
    rcases Std.ExtTreeMap.mem_insert.1 h with h | h
    · exact List.mem_cons.2 (.inl (Std.LawfulEqCmp.eq_of_compare h).symm)
    · exact List.mem_cons_of_mem _ (hq.entered h)
  numbered h := by
    rcases mem_enter.1 h with rfl | h
    · exact Nat.lt_succ_self _
    · exact Nat.lt_succ_of_lt (hq.numbered h)

/-- Cancelling keeps a queue well formed. -/
theorem WellFormed.cancel (hq : q.WellFormed) (id : TimerId) : (q.cancel id).2.WellFormed where
  ordered := hq.ordered
  distinct := hq.distinct
  entered h := hq.entered (Std.ExtTreeMap.mem_of_mem_erase h)
  numbered h := hq.numbered h

/-- Cancelling everything leaves a well-formed queue. -/
theorem WellFormed.cancelAll (q : TimerQueue τ) : q.cancelAll.WellFormed where
  ordered := .nil
  distinct := .nil
  entered h := absurd h Std.ExtTreeMap.not_mem_empty
  numbered h := absurd h List.not_mem_nil

/-- A timer that comes before all others is put in front. -/
private theorem enter_eq_cons {t : LiveTimer τ} {ts : List (LiveTimer τ)}
    (h : ∀ u ∈ ts, Appointment.before (t.deadline, t.id) (u.deadline, u.id) = true) :
    LiveTimers.enter t ts = t :: ts := by
  cases ts with
  | nil => rfl
  | cons u ts => rw [LiveTimers.enter, if_pos (h u (List.mem_cons_self ..))]

/-- What enters the agenda enters the list of live timers in the same place. -/
private theorem filterMap_enter {a : Appointment} {t : LiveTimer τ} (ha : q.liveTimer? a = some t)
    {agenda : List Appointment} (h : agenda.Pairwise fun a b => a.before b = true) :
    (enter a agenda).filterMap q.liveTimer? =
      LiveTimers.enter t (agenda.filterMap q.liveTimer?) := by
  obtain ⟨rfl, -⟩ := liveTimer?_eq_some_iff.1 ha
  induction agenda with
  | nil => simp [enter, LiveTimers.enter, ha]
  | cons b rest ih =>
    obtain ⟨hb, hrest⟩ := List.pairwise_cons.1 h
    unfold enter
    split
    · next hab =>
      rw [List.filterMap_cons_some ha, enter_eq_cons]
      intro u hu
      obtain ⟨c, hc, hcu⟩ := List.mem_filterMap.1 hu
      obtain ⟨rfl, -⟩ := liveTimer?_eq_some_iff.1 hcu
      rcases List.mem_cons.1 hc with rfl | hc
      · exact hab
      · exact Appointment.before_trans hab (hb _ hc)
    · next hab =>
      cases hbu : q.liveTimer? b with
      | none => rw [List.filterMap_cons_none hbu, List.filterMap_cons_none hbu, ih hrest]
      | some u =>
        obtain ⟨rfl, -⟩ := liveTimer?_eq_some_iff.1 hbu
        rw [List.filterMap_cons_some hbu, List.filterMap_cons_some hbu, ih hrest,
          LiveTimers.enter, if_neg hab]

/-- A timer that is scheduled takes its place among the live ones. -/
theorem WellFormed.timers_schedule (hq : q.WellFormed) (deadline : Instant) (payload : τ) :
    (q.schedule deadline payload).2.timers =
      LiveTimers.enter ⟨deadline, q.nextId, payload⟩ q.timers := by
  have hnew : (q.schedule deadline payload).2.liveTimer? (deadline, q.nextId) =
      some ⟨deadline, q.nextId, payload⟩ :=
    liveTimer?_eq_some_iff.2 ⟨rfl, Std.ExtTreeMap.getElem?_insert_self⟩
  have hold : ∀ a ∈ q.agenda, (q.schedule deadline payload).2.liveTimer? a = q.liveTimer? a := by
    intro a ha
    have hne : q.nextId ≠ a.2 := Ne.symm (Nat.ne_of_lt (hq.numbered ha))
    simp only [liveTimer?, TimerQueue.schedule, Std.ExtTreeMap.getElem?_insert,
      Std.LawfulEqCmp.compare_eq_iff_eq, hne, if_false]
  rw [timers, timers, ← List.filterMap_congr hold]
  exact filterMap_enter hnew hq.ordered

/-- A timer that is cancelled leaves the list of live timers. -/
theorem timers_cancel (q : TimerQueue τ) (id : TimerId) :
    (q.cancel id).2.timers = q.timers.filter (·.id ≠ id) := by
  rw [timers, timers, List.filter_filterMap]
  refine List.filterMap_congr fun a _ => ?_
  by_cases h : id = a.2
  · subst h
    cases hp : q.live[a.2]? <;> simp [liveTimer?, cancel, hp, Option.filter]
  · cases hp : q.live[a.2]? <;>
      simp [liveTimer?, cancel, hp, Std.ExtTreeMap.getElem?_erase, h, Ne.symm h, Option.filter]

/-! ## Taking out what is due -/

/-- Dropping cancelled appointments drops no live timer. -/
private theorem filterMap_dropWhile (q : TimerQueue τ) (agenda : List Appointment) :
    (agenda.dropWhile fun a => !q.live.contains a.2).filterMap q.liveTimer? =
      agenda.filterMap q.liveTimer? := by
  induction agenda with
  | nil => rfl
  | cons a rest ih =>
    rw [List.dropWhile_cons]
    cases hc : q.live.contains a.2 with
    | true => rfl
    | false =>
      have hnone : q.liveTimer? a = none := by
        simp [liveTimer?, Std.ExtTreeMap.getElem?_eq_none_of_contains_eq_false hc]
      rw [Bool.not_false, if_pos rfl, ih, List.filterMap_cons_none hnone]

/-- Dropping cancelled timers leaves the live ones. -/
theorem timers_settle (q : TimerQueue τ) : q.settle.timers = q.timers :=
  filterMap_dropWhile q q.agenda

/-- Settling only drops appointments. -/
theorem agenda_settle_sublist (q : TimerQueue τ) : q.settle.agenda.Sublist q.agenda :=
  List.dropWhile_sublist _

/-- What is left at the front is live. -/
theorem live_of_settle {a : Appointment} {rest : List Appointment}
    (h : q.settle.agenda = a :: rest) : ∃ payload, q.live[a.2]? = some payload := by
  have hhead := List.head?_dropWhile_not (fun a : Appointment => !q.live.contains a.2) q.agenda
  rw [settle] at h
  dsimp only at h
  rw [h] at hhead
  exact Option.isSome_iff_exists.1 (by simpa using hhead)

/-- Settling keeps a queue well formed. -/
theorem WellFormed.settle (hq : q.WellFormed) : q.settle.WellFormed where
  ordered := hq.ordered.sublist q.agenda_settle_sublist
  distinct := (q.agenda_settle_sublist.map (·.2)).nodup hq.distinct
  entered {id} h := by
    obtain ⟨payload, hp⟩ := Option.isSome_iff_exists.1
      (Std.ExtTreeMap.isSome_getElem?_iff_mem.2 h)
    obtain ⟨deadline, ht⟩ := hq.exists_timer hp
    rw [← q.timers_settle] at ht
    exact List.mem_map_of_mem (mem_timers.1 ht).1
  numbered h := hq.numbered (q.agenda_settle_sublist.subset h)

/-- The next deadline is that of the first live timer. -/
theorem nextDeadline?_eq (q : TimerQueue τ) :
    q.nextDeadline? = q.timers.head?.map (·.deadline) := by
  rw [nextDeadline?, ← q.timers_settle]
  cases hagenda : q.settle.agenda with
  | nil => rw [timers, hagenda]; rfl
  | cons a rest =>
    obtain ⟨payload, hp⟩ := live_of_settle hagenda
    have hfirst : q.settle.liveTimer? a = some ⟨a.1, a.2, payload⟩ :=
      liveTimer?_eq_some_iff.2 ⟨rfl, hp⟩
    rw [timers, hagenda, List.filterMap_cons_some hfirst]
    rfl

/-- The first timer is taken out if it is due; the queue is left with the others. -/
theorem WellFormed.popDue?_eq (hq : q.WellFormed) (now : Instant) :
    (q.timers = [] ∧ q.popDue? now = none) ∨ ∃ t q', q.timers = t :: q'.timers ∧
      q'.WellFormed ∧ q'.nextId = q.nextId ∧ q'.live = q.live.erase t.id ∧
      q.popDue? now = if t.deadline ≤ now then some (t.id, t.payload, q') else none := by
  -- The cancelled appointments in front go first, and no live timer with them.
  have hsettled := hq.settle
  unfold popDue?
  rw [← q.timers_settle]
  cases hagenda : q.settle.agenda with
  | nil => exact .inl ⟨by rw [timers, hagenda]; rfl, rfl⟩
  | cons a rest =>
    obtain ⟨payload, hp⟩ := live_of_settle hagenda
    obtain ⟨hordered, hdistinct, hentered, hnumbered⟩ := hsettled
    rw [hagenda] at hordered hdistinct hentered hnumbered
    obtain ⟨deadline, id⟩ := a
    obtain ⟨hnew, hdistinct⟩ := List.nodup_cons.1 hdistinct
    have hrest : ∀ b ∈ rest, q.settle.liveTimer? b =
        (⟨rest, q.live.erase id, q.nextId⟩ : TimerQueue τ).liveTimer? b := by
      intro b hb
      have hne : id ≠ b.2 := by
        rintro rfl
        exact hnew (List.mem_map.2 ⟨b, hb, rfl⟩)
      simp [liveTimer?, TimerQueue.settle, Std.ExtTreeMap.getElem?_erase, hne]
    refine .inr ⟨⟨deadline, id, payload⟩, ⟨rest, q.live.erase id, q.nextId⟩, ?_, ?_, rfl, rfl, ?_⟩
    · have hfirst : q.settle.liveTimer? (deadline, id) = some ⟨deadline, id, payload⟩ :=
        liveTimer?_eq_some_iff.2 ⟨rfl, hp⟩
      rw [timers, hagenda, List.filterMap_cons_some hfirst, List.filterMap_congr hrest]
      rfl
    · refine ⟨(List.pairwise_cons.1 hordered).2, hdistinct, fun {i} hi => ?_,
        fun hb => hnumbered (List.mem_cons_of_mem _ hb)⟩
      obtain ⟨hne, hi⟩ := Std.ExtTreeMap.mem_erase.1 hi
      rcases List.mem_cons.1 (hentered hi) with rfl | hmem
      · exact absurd Std.ReflCmp.compare_self hne
      · exact hmem
    · simp [hp]

/-- The live timers that are due, in the order in which they fall due. -/
def due (q : TimerQueue τ) (now : Instant) : List (LiveTimer τ) :=
  q.timers.filter (·.deadline ≤ now)

/-- A timer is due if it is live and its deadline has come. -/
theorem mem_due {now : Instant} {t : LiveTimer τ} :
    t ∈ q.due now ↔ t ∈ q.timers ∧ t.deadline ≤ now := by
  simp [due]

/-- Nothing can be taken out exactly if nothing is due. -/
theorem WellFormed.popDue?_eq_none_iff (hq : q.WellFormed) {now : Instant} :
    q.popDue? now = none ↔ q.due now = [] := by
  rw [due, List.filter_eq_nil_iff]
  rcases hq.popDue?_eq now with ⟨hnil, hpop⟩ | ⟨t, q', htimers, -, -, -, hpop⟩
  · simp [hnil, hpop]
  · have hfirst := hq.pairwise_timers
    rw [htimers] at hfirst
    rw [hpop, htimers]
    by_cases ht : t.deadline ≤ now
    · simp [ht, Nat.not_lt.2 ht]
    · simp only [ht, if_false, true_iff]
      rintro u (_ | ⟨_, hu⟩)
      · simpa using ht
      · -- the first timer is the earliest, and it is not due
        have := Appointment.before_iff.1 ((List.pairwise_cons.1 hfirst).1 u hu)
        simp only [decide_eq_true_eq]
        grind

/-- What is taken out is the first timer that is due, and the others remain. -/
theorem WellFormed.of_popDue? (hq : q.WellFormed) {now : Instant} {id : TimerId} {payload : τ}
    {q' : TimerQueue τ} (h : q.popDue? now = some (id, payload, q')) :
    ∃ deadline, q.timers = ⟨deadline, id, payload⟩ :: q'.timers ∧
      q.due now = ⟨deadline, id, payload⟩ :: q'.due now ∧
      q'.WellFormed ∧ q'.nextId = q.nextId ∧ q'.live = q.live.erase id := by
  rcases hq.popDue?_eq now with ⟨-, hpop⟩ | ⟨t, q'', htimers, hwf, hid, hlive, hpop⟩
  · rw [hpop] at h
    cases h
  · rw [hpop] at h
    split at h
    · next ht =>
      cases h
      refine ⟨t.deadline, htimers, ?_, hwf, hid, hlive⟩
      rw [due, htimers, List.filter_cons_of_pos (by simpa using ht), due]
    · cases h

/-- A timer that lies in the future is not due. -/
theorem WellFormed.due_schedule (hq : q.WellFormed) {now deadline : Instant}
    (h : now < deadline) (payload : τ) : (q.schedule deadline payload).2.due now = q.due now := by
  rw [due, hq.timers_schedule, LiveTimers.filter_enter (by simpa using h), due]

/-- Scheduling adds one live timer. -/
theorem WellFormed.mem_timers_schedule (hq : q.WellFormed) {deadline : Instant} {payload : τ}
    {t : LiveTimer τ} : t ∈ (q.schedule deadline payload).2.timers ↔
      t = ⟨deadline, q.nextId, payload⟩ ∨ t ∈ q.timers := by
  rw [hq.timers_schedule, LiveTimers.mem_enter]

end TimerQueue

end AdaptiveRouting
