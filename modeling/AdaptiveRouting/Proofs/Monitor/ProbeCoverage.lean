import AdaptiveRouting.Proofs.Monitor.Timers
import Mathlib.Data.List.Nodup

/-!
# Which stable neighbors are probed

A neighbor is probed when a timer for it is armed. The end of the warm-up arms one for every stable
neighbor, and a timer that fires is armed again, so that no neighbor loses its timer until the
monitor is stopped (`TimersKept`). What is left to ask is whether a neighbor that becomes stable
later gets one. A report that it is active arms one, and so does a hello, but only if there are no
round-trip times from earlier; and hellos that are no longer missing make a neighbor stable without
any timer being looked at. These are the ways in which a neighbor is overlooked
(`MonitorState.Overlooks`), and there is no other one (`attended_throughout_iff`).
-/

namespace AdaptiveRouting

namespace MonitorState

variable {α : Type} {m m' m'' : MonitorState α} {n : Name}

/-- The monitor is active and its warm-up has ended. -/
def IsWarm (m : MonitorState α) : Prop :=
  m.active = true ∧ ∀ id : TimerId, m.timers.live[id]? ≠ some .warmUp

/-- After the warm-up every stable neighbor has exactly one live timer for its probes. -/
def Attended (m : MonitorState α) : Prop :=
  m.IsWarm → ∀ n, m.isStable n = true → ∃! t, t ∈ m.timers.timers ∧ t.payload = .probe n

/-- News that makes a neighbor stable without asking whether a timer is armed for it: it answers a
hello and has round-trip times from earlier, or it is active and its hellos are said to be missing
no longer. -/
def Unasked (m : MonitorState α) (e : NeighborEvent) (n : Name) : Prop :=
  ∃ link, m.links[n]? = some link ∧
    (e = .helloReceived n ∧ link.history ≠ [] ∨
      e = .helloTimeout n 0 ∧ link.status = .active ∧ 0 < m.settings.retryThreshold)

/-- After the warm-up, news makes a neighbor stable that has no timer, and none is armed. -/
structure Overlooks (m : MonitorState α) (e : NeighborEvent) (n : Name) : Prop where
  warm : m.IsWarm
  unstable : m.isStable n = false
  unarmed : ∀ t ∈ m.timers.timers, t.payload ≠ .probe n
  unasked : m.Unasked e n

/-! ## Timers that are noted -/

/-- A neighbor has one live timer at most. -/
theorem TimersConsistent.unique (h : TimersConsistent m) {t u : LiveTimer Task}
    (ht : t ∈ m.timers.timers) (hu : u ∈ m.timers.timers) (htn : t.payload = .probe n)
    (hun : u.payload = .probe n) : t = u := by
  have hid : t.id = u.id :=
    Option.some.inj ((h.armed.noted_of_mem ht htn).symm.trans (h.armed.noted_of_mem hu hun))
  exact List.inj_on_of_nodup_map h.armed.wellFormed.nodup_ids ht hu hid

/-- A neighbor has a live timer exactly if one is noted. -/
theorem TimersConsistent.exists_timer_iff (h : TimersConsistent m) :
    (∃ t ∈ m.timers.timers, t.payload = .probe n) ↔ n ∈ m.probeTimers := by
  rw [← Std.ExtTreeMap.isSome_getElem?_iff_mem, Option.isSome_iff_exists]
  constructor
  · rintro ⟨t, ht, htn⟩
    exact ⟨t.id, h.armed.noted_of_mem ht htn⟩
  · rintro ⟨id, hid⟩
    obtain ⟨deadline, ht⟩ := h.armed.wellFormed.exists_timer (h.armed.noted_iff.1 hid)
    exact ⟨_, ht, rfl⟩

/-- After the warm-up every stable neighbor is noted with a timer. -/
def StableArmed (m : MonitorState α) : Prop :=
  m.IsWarm → ∀ n, m.isStable n = true → n ∈ m.probeTimers

/-- A monitor that is not active owes nobody a timer. -/
theorem stableArmed_of_inactive (h : m.active = false) : m.StableArmed := fun hw => by
  rw [hw.1] at h
  cases h

/-- To be noted with a timer is to have exactly one that is live. -/
theorem TimersConsistent.attended_iff (h : TimersConsistent m) : m.Attended ↔ m.StableArmed := by
  refine forall_congr' fun _ => forall_congr' fun n => forall_congr' fun _ => ?_
  rw [← h.exists_timer_iff]
  constructor
  · rintro ⟨t, ⟨ht, htn⟩, -⟩
    exact ⟨t, ht, htn⟩
  · rintro ⟨t, ht, htn⟩
    exact ⟨t, ⟨ht, htn⟩, fun u hu => h.unique hu.1 ht hu.2 htn⟩

/-! ## Timers that are kept -/

/-- From the first state to the second no neighbor is disarmed, and a warm-up goes on. -/
structure TimersKept (m m' : MonitorState α) : Prop where
  active : m'.active = m.active
  armed {n : Name} : n ∈ m.probeTimers → n ∈ m'.probeTimers
  warming {id : TimerId} : m.timers.live[id]? = some .warmUp →
    m'.timers.live[id]? = some .warmUp

/-- Timers that are kept in two steps are kept. -/
theorem TimersKept.trans (h : TimersKept m m') (h' : TimersKept m' m'') : TimersKept m m'' :=
  ⟨h'.active.trans h.active, fun hn => h'.armed (h.armed hn), fun hid => h'.warming (h.warming hid)⟩

/-- Timers are kept where none changes. -/
theorem TimersKept.of_eq (htimers : m'.timers = m.timers) (hprobes : m'.probeTimers = m.probeTimers)
    (hactive : m'.active = m.active) : TimersKept m m' :=
  ⟨hactive, fun hn => hprobes ▸ hn, fun hid => htimers ▸ hid⟩

/-- The same timers are kept. -/
theorem SameTimers.timersKept (h : SameTimers m m') : TimersKept m m' :=
  .of_eq h.timers h.probeTimers h.active

/-- A state keeps its own timers. -/
theorem TimersKept.refl (m : MonitorState α) : TimersKept m m := .of_eq rfl rfl rfl

/-- A warm-up that is over afterwards was over before. -/
theorem TimersKept.isWarm (h : TimersKept m m') (hw : m'.IsWarm) : m.IsWarm :=
  ⟨h.active ▸ hw.1, fun id hid => hw.2 id (h.warming hid)⟩

/-- As long as no neighbor becomes stable, those that are stay armed. -/
theorem TimersKept.stableArmed (h : TimersKept m m') (hm : m.StableArmed)
    (hstable : ∀ n, m'.isStable n = true → m.isStable n = true) : m'.StableArmed :=
  fun hw n hn => h.armed (hm (h.isWarm hw) n (hstable n hn))

/-- A timer that is live stays so when another one is scheduled. -/
theorem getElem?_schedule {q : TimerQueue Task} (hq : q.WellFormed) {id : TimerId} {task : Task}
    (h : q.live[id]? = some task) (deadline : Instant) (task' : Task) :
    (q.schedule deadline task').2.live[id]? = some task := by
  have hne : q.nextId ≠ id := fun heq => by
    rw [← heq, hq.getElem?_nextId] at h
    cases h
  rw [TimerQueue.schedule, Std.ExtTreeMap.getElem?_insert, if_neg (by simpa using hne), h]

/-- To disarm a neighbor disarms no other one, and leaves the warm-up. -/
theorem mem_disarm {k : Name} (hk : k ≠ n) (h : k ∈ m.probeTimers) :
    k ∈ (m.disarm n).probeTimers := by
  unfold disarm
  split
  · exact h
  · exact Std.ExtTreeMap.mem_erase.2 ⟨by simpa using Ne.symm hk, h⟩

/-- To disarm a neighbor does not end the warm-up. -/
theorem TimersConsistent.warming_disarm (h : TimersConsistent m) (n : Name) {id : TimerId}
    (hid : m.timers.live[id]? = some .warmUp) :
    (m.disarm n).timers.live[id]? = some .warmUp := by
  unfold MonitorState.disarm
  split
  · exact hid
  · next id' hid' =>
    have hne : id' ≠ id := fun heq => by
      rw [heq, h.armed.noted_iff, hid] at hid'
      cases hid'
    show (m.timers.live.erase id')[id]? = _
    rw [Std.ExtTreeMap.getElem?_erase, if_neg (by simpa using hne), hid]

/-! ## Arming -/

/-- To schedule a probe disarms nobody for good. -/
theorem timersKept_scheduleProbe (h : TimersConsistent m) (n : Name) :
    TimersKept m (m.scheduleProbe n) := by
  rcases m.scheduleProbe_eq n with ⟨-, heq⟩ | ⟨-, delay, drawn, -, heq⟩
  · rw [heq]
    exact .refl m
  · have hdrawn : TimersConsistent { m with drawn } := h.of_eq rfl rfl rfl
    refine ⟨(timersDiffer_scheduleProbe m n).active, fun {k} hk => ?_, fun {id} hid => ?_⟩
    · rw [heq]
      refine Std.ExtTreeMap.mem_insert.2 ?_
      by_cases hkn : k = n
      · exact .inl (by simpa using hkn.symm)
      · exact .inr (mem_disarm (m := { m with drawn }) hkn hk)
    · rw [heq]
      exact getElem?_schedule (hdrawn.disarm n).armed.wellFormed (hdrawn.warming_disarm n hid) _ _

/-- A neighbor whose probe is scheduled is armed. -/
theorem mem_scheduleProbe (ha : m.active = true) (n : Name) :
    n ∈ (m.scheduleProbe n).probeTimers := by
  rcases m.scheduleProbe_eq n with ⟨hidle, -⟩ | ⟨-, delay, drawn, -, heq⟩
  · rw [ha] at hidle
    cases hidle
  · rw [heq]
    exact Std.ExtTreeMap.mem_insert_self

/-- To ensure that a neighbor is armed disarms nobody. -/
theorem timersKept_ensureProbe (h : TimersConsistent m) (n : Name) :
    TimersKept m (m.ensureProbe n) := by
  unfold ensureProbe
  split
  · exact .refl m
  · exact timersKept_scheduleProbe h n

/-- A neighbor that is ensured to be armed is armed. -/
theorem mem_ensureProbe (ha : m.active = true) (n : Name) : n ∈ (m.ensureProbe n).probeTimers := by
  unfold ensureProbe
  split
  · next hn => exact Std.ExtTreeMap.contains_iff_mem.1 hn
  · exact mem_scheduleProbe ha n

/-- To schedule probes for some neighbors disarms nobody for good. -/
theorem timersKept_foldl_scheduleProbe (h : TimersConsistent m) (ns : List Name) :
    TimersKept m (ns.foldl scheduleProbe m) := by
  induction ns generalizing m with
  | nil => exact .refl m
  | cons n ns ih => exact (timersKept_scheduleProbe h n).trans (ih (h.scheduleProbe n))

/-- All neighbors whose probes are scheduled are armed. -/
theorem mem_foldl_scheduleProbe (h : TimersConsistent m) (ha : m.active = true) {ns : List Name}
    (hn : n ∈ ns) : n ∈ (ns.foldl scheduleProbe m).probeTimers := by
  induction ns generalizing m with
  | nil => cases hn
  | cons k ns ih =>
    have hk := h.scheduleProbe k
    rcases List.mem_cons.1 hn with rfl | hn
    · exact (timersKept_foldl_scheduleProbe hk ns).armed (mem_scheduleProbe ha n)
    · exact ih hk ((timersDiffer_scheduleProbe m k).active.trans ha) hn

/-- To schedule a report disarms nobody. -/
theorem timersKept_scheduleReport (h : TimersConsistent m) : TimersKept m m.scheduleReport :=
  ⟨rfl, id, fun hid => getElem?_schedule h.armed.wellFormed hid _ _⟩

/-! ## Timers that fire -/

/-- Whether a neighbor is stable depends on whether its link is. -/
theorem isStable_congr
    (h : m'.links[n]?.map LinkState.isStable = m.links[n]?.map LinkState.isStable) :
    m'.isStable n = m.isStable n := by
  have hread (s : MonitorState α) :
      s.isStable n = (s.links[n]?.map LinkState.isStable).getD false := by
    unfold isStable
    cases s.links[n]? <;> rfl
  rw [hread, hread, h]

/-- The same links are stable. -/
theorem isStable_eq (h : m'.links = m.links) (n : Name) : m'.isStable n = m.isStable n :=
  isStable_congr (by rw [h])

section
variable [Scalar α]

omit [Scalar α] in
/-- The stable neighbors are listed by name. -/
theorem mem_stableNeighbors (hfiled : Filed m.links) (hn : m.isStable n = true) :
    n ∈ m.stableNeighbors := by
  unfold isStable at hn
  split at hn
  · cases hn
  · next link hlink =>
    refine List.mem_map.2 ⟨(n, link), List.mem_filter.2 ⟨?_, hn⟩, hfiled n link hlink⟩
    exact Std.ExtTreeMap.mem_toList_iff_getElem?_eq_some.2 hlink

/-- A report disarms nobody. -/
theorem timersKept_report (m : MonitorState α) : TimersKept m m.report := by
  obtain ⟨_, heq⟩ := m.report_eq
  rw [heq]
  exact .of_eq rfl rfl rfl

omit [Scalar α] in
/-- Costs have nothing to do with timers. -/
theorem CostsDiffer.timersKept (h : CostsDiffer m m') : TimersKept m m' := by
  obtain ⟨_, _, _, _, _, rfl, -⟩ := h
  exact .of_eq rfl rfl rfl

/-- The end of the warm-up arms every stable neighbor. -/
theorem stableArmed_perform_warmUp (h : TimersConsistent m) (ha : m.active = true)
    (hfiled : Filed m.links) : (m.perform .warmUp).StableArmed := by
  intro _ n hn
  have hstable : m.isStable n = true :=
    (isStable_eq (timersDiffer_foldl_scheduleProbe m m.stableNeighbors).links n).symm.trans hn
  exact mem_foldl_scheduleProbe h ha (mem_stableNeighbors hfiled hstable)

omit [Scalar α] in
/-- The warm-up goes on when another timer is taken out. -/
theorem TimersConsistent.warming_popDue? (h : TimersConsistent m) {now : Instant} {id : TimerId}
    {task : Task} {timers : TimerQueue Task}
    (hpop : m.timers.popDue? now = some (id, task, timers)) (htask : task ≠ .warmUp)
    {id' : TimerId} (hid' : m.timers.live[id']? = some .warmUp) :
    timers.live[id']? = some .warmUp := by
  obtain ⟨deadline, htimers, -, -, -, hlive⟩ := h.armed.wellFormed.of_popDue? hpop
  have hfirst : ⟨deadline, id, task⟩ ∈ m.timers.timers := by
    rw [htimers]
    exact List.mem_cons_self ..
  have hne : id ≠ id' := fun heq => by
    rw [← heq, (TimerQueue.mem_timers.1 hfirst).2] at hid'
    exact htask (Option.some.inj hid')
  rw [hlive, Std.ExtTreeMap.getElem?_erase, if_neg (by simpa using hne), hid']

/-- Every other timer that fires leaves the neighbors armed: a probe is armed again, and a report
arms no probe. -/
theorem timersKept_perform (h : TimersConsistent m) {id : TimerId} {task : Task}
    {timers : TimerQueue Task} (hpop : m.timers.popDue? m.clock.now = some (id, task, timers))
    (htask : task ≠ .warmUp) : TimersKept m ({ m with timers }.perform task) := by
  have ha := h.active_of_popDue? hpop
  have harmed := h.armed.popDue? hpop
  cases task with
  | warmUp => exact absurd rfl htask
  | report =>
    have hpopped : TimersConsistent { m with timers } := ⟨harmed, fun hi => by simp [ha] at hi⟩
    have hkept : TimersKept m { m with timers } :=
      ⟨rfl, fun hn => hn, h.warming_popDue? hpop htask⟩
    exact (hkept.trans (timersKept_report _)).trans (timersKept_scheduleReport hpopped.report)
  | probe k =>
    have hpopped : TimersConsistent { m with timers, probeTimers := m.probeTimers.erase k } :=
      ⟨harmed, fun hi => by simp [ha] at hi⟩
    obtain ⟨_, _, _, _, heq⟩ :=
      probeIfStable_eq { m with timers, probeTimers := m.probeTimers.erase k } k
    have hprobed := hpopped.probeIfStable k
    have hkept : TimersKept { m with timers, probeTimers := m.probeTimers.erase k }
        ({ m with timers }.perform (.probe k)) := by
      refine TimersKept.trans ?_ (timersKept_scheduleProbe hprobed k)
      rw [heq]
      exact .of_eq rfl rfl rfl
    -- the note of the neighbor goes with the timer that fired, and comes back with the next one
    refine ⟨hkept.active, fun {n} hn => ?_,
      fun hid => hkept.warming (h.warming_popDue? hpop htask hid)⟩
    by_cases hnk : n = k
    · subst hnk
      refine mem_scheduleProbe ?_ n
      rw [heq]
      exact ha
    · exact hkept.armed (Std.ExtTreeMap.mem_erase.2 ⟨by simpa using Ne.symm hnk, hn⟩)

/-- Handling a timer leaves no stable neighbor without one. -/
theorem StableArmed.handleNext? (hm : m.StableArmed) (h : TimersConsistent m)
    (hfiled : Filed m.links) {next : MonitorState α} (hnext : m.handleNext? = some next) :
    next.StableArmed := by
  have hlinks := (probingDiffers_handleNext? hnext).links
  obtain ⟨id, task, timers, hpop, rfl⟩ := handleNext?_eq_some_iff.1 hnext
  by_cases htask : task = .warmUp
  · subst htask
    have ha := h.active_of_popDue? hpop
    exact stableArmed_perform_warmUp (m := { m with timers })
      ⟨h.armed.popDue? hpop, fun hi => by simp [ha] at hi⟩ ha hfiled
  · exact (timersKept_perform h hpop htask).stableArmed hm fun n hn =>
      (isStable_eq hlinks n).symm.trans hn

/-- Nor does handling any number of them. -/
theorem StableArmed.handleDue (hm : m.StableArmed) (h : TimersConsistent m)
    (hfiled : Filed m.links) (bound : Nat) : (m.handleDue bound).StableArmed := by
  induction bound generalizing m with
  | zero => exact hm
  | succ bound ih =>
    unfold MonitorState.handleDue
    split
    · exact hm
    · next next hnext =>
      exact ih (hm.handleNext? h hfiled hnext) (h.handleNext? hnext)
        ((probingDiffers_handleNext? hnext).links ▸ hfiled)

end

/-! ## News -/

/-- When at most one neighbor becomes stable, it is the only one to look at. -/
theorem TimersKept.stableArmed_iff (h : TimersKept m m') (hm : m.StableArmed)
    (hothers : ∀ k, k ≠ n → m'.isStable k = m.isStable k) :
    m'.StableArmed ↔ (m'.IsWarm → m'.isStable n = true → n ∈ m'.probeTimers) := by
  refine ⟨fun hm' hw => hm' hw n, fun hn hw k hk => ?_⟩
  by_cases hkn : k = n
  · subst hkn
    exact hn hw hk
  · exact h.armed (hm (h.isWarm hw) k (hothers k hkn ▸ hk))

/-- News of one neighbor does not decide whether another is stable. -/
theorem isStable_handleNews (m : MonitorState α) (e : NeighborEvent) {k : Name}
    (hk : k ≠ e.neighbor) : (m.handleNews e).isStable k = m.isStable k := by
  unfold isStable
  rw [(m.informed_handleNews e).link k, if_neg hk]

/-- News disarms nobody. -/
theorem timersKept_handleNews (h : TimersConsistent m) (e : NeighborEvent) :
    TimersKept m (m.handleNews e) := by
  obtain ⟨heard, htimers, hprobes, hactive, ⟨-, heq⟩ | ⟨-, heq⟩⟩ := m.handleNews_eq e
  · rw [heq]
    exact (TimersKept.of_eq htimers hprobes hactive).trans
      (timersKept_ensureProbe (h.of_eq htimers hprobes hactive) _)
  · rw [heq]
    exact .of_eq htimers hprobes hactive

/-- News on which a neighbor is to be armed arms it. -/
theorem mem_handleNews {e : NeighborEvent} (h : m.Arms e) :
    e.neighbor ∈ (m.handleNews e).probeTimers := by
  obtain ⟨heard, -, -, hactive, ⟨-, heq⟩ | ⟨hnot, -⟩⟩ := m.handleNews_eq e
  · rw [heq]
    exact mem_ensureProbe (hactive.trans h.1) _
  · exact absurd h hnot

/-- After news a neighbor is stable if it was before, if it is armed, or unasked. -/
theorem isStable_handleNews_neighbor {e : NeighborEvent} (ha : m.active = true)
    (hstable : (m.handleNews e).isStable e.neighbor = true) :
    m.isStable e.neighbor = true ∨ m.Arms e ∨ m.Unasked e e.neighbor := by
  unfold isStable at hstable ⊢
  rw [(m.informed_handleNews e).link e.neighbor, if_pos rfl] at hstable
  cases hlink : m.links[e.neighbor]? with
  | none => simp [hlink] at hstable
  | some link =>
    rw [hlink, Option.map_some] at hstable
    -- A link becomes stable by a hello, by hellos that are missing no longer, or by being reported
    -- active.
    cases e with
    | helloSent n => exact .inl hstable
    | helloReceived n =>
      by_cases hhistory : link.history = []
      · exact .inr (.inl ⟨ha, link, hlink, .inl ⟨rfl, hhistory⟩⟩)
      · exact .inr (.inr ⟨link, hlink, .inl ⟨rfl, hhistory⟩⟩)
    | helloTimeout n timeouts =>
      refine .inr (.inr ⟨link, hlink, .inr ?_⟩)
      by_cases ht : m.settings.retryThreshold ≤ timeouts
      · simp [LinkState.informed, ht, LinkState.isStable] at hstable
      · simp only [LinkState.informed, if_neg ht, LinkState.isStable, Bool.and_eq_true,
          decide_eq_true_eq] at hstable
        obtain ⟨hstatus, rfl⟩ := hstable
        exact ⟨rfl, hstatus, Nat.not_le.1 ht⟩
    | statusChanged n status =>
      cases status with
      | inactive => simp [LinkState.informed, LinkState.isStable] at hstable
      | active =>
        by_cases hs : link.status = .active
        · exact .inl (by simpa [LinkState.informed, hs] using hstable)
        · exact .inr (.inl ⟨ha, link, hlink, .inr ⟨rfl, hs⟩⟩)

/-- The neighbor is the one that the news is about. -/
theorem Unasked.neighbor_eq {e : NeighborEvent} (h : m.Unasked e n) : e.neighbor = n := by
  obtain ⟨_, -, ⟨rfl, -⟩ | ⟨rfl, -⟩⟩ := h <;> rfl

/-- Nobody is armed on such news. -/
theorem Unasked.not_arms {e : NeighborEvent} (h : m.Unasked e e.neighbor) : ¬ m.Arms e := by
  rintro ⟨-, link', hlink', harms⟩
  obtain ⟨link, hlink, hnews⟩ := h
  obtain rfl : link = link' := Option.some.inj (hlink.symm.trans hlink')
  rcases hnews with ⟨he, hhistory⟩ | ⟨he, -⟩ <;> rcases harms with ⟨he', hnil⟩ | ⟨he', -⟩
  · exact hhistory hnil
  all_goals cases he.symm.trans he'

/-- The neighbor is stable after such news. -/
theorem Unasked.isStable {e : NeighborEvent} (h : m.Unasked e e.neighbor) :
    (m.handleNews e).isStable e.neighbor = true := by
  obtain ⟨link, hlink, hnews⟩ := h
  unfold MonitorState.isStable
  rw [(m.informed_handleNews e).link e.neighbor, if_pos rfl, hlink]
  rcases hnews with ⟨he, -⟩ | ⟨he, hstatus, hthreshold⟩
  · rw [he]
    rfl
  · have hnot : ¬ m.settings.retryThreshold ≤ 0 := Nat.not_le.2 hthreshold
    rw [he]
    simp [LinkState.informed, hnot, LinkState.isStable, hstatus]

/-- News leaves every stable neighbor armed unless it overlooks one. -/
theorem StableArmed.handleNews_iff (hm : m.StableArmed) (h : TimersConsistent m)
    (e : NeighborEvent) : (m.handleNews e).StableArmed ↔ ∀ n, ¬ m.Overlooks e n := by
  have hkept := timersKept_handleNews h e
  rw [hkept.stableArmed_iff hm fun k hk => m.isStable_handleNews e hk]
  constructor
  · intro harmed n hn
    obtain rfl := hn.unasked.neighbor_eq
    -- the news finds the timers as they are, and leaves them so
    obtain ⟨heard, htimers, hprobes, hactive, ⟨harms, -⟩ | ⟨-, heq⟩⟩ := m.handleNews_eq e
    · exact hn.unasked.not_arms harms
    · have hw : (m.handleNews e).IsWarm := by
        rw [heq]
        exact ⟨hactive.trans hn.warm.1, htimers ▸ hn.warm.2⟩
      have hmem := harmed hw hn.unasked.isStable
      rw [heq, hprobes] at hmem
      obtain ⟨t, ht, htn⟩ := h.exists_timer_iff.2 hmem
      exact hn.unarmed t ht htn
  · intro hlooked hw hstable
    have hw := hkept.isWarm hw
    by_contra hunarmed
    have hbefore : e.neighbor ∉ m.probeTimers := fun hn => hunarmed (hkept.armed hn)
    have hunstable : m.isStable e.neighbor = false := by
      by_contra hs
      exact hbefore (hm hw _ (by simpa using hs))
    rcases isStable_handleNews_neighbor hw.1 hstable with hs | harms | hunasked
    · rw [hunstable] at hs
      cases hs
    · exact hunarmed (mem_handleNews harms)
    · exact hlooked e.neighbor
        ⟨hw, hunstable, fun t ht htn => hbefore (h.exists_timer_iff.1 ⟨t, ht, htn⟩), hunasked⟩

end MonitorState

/-! ## Runs -/

namespace Monitor

variable {α σ : Type} [Scalar α] {m : Monitor α σ} {op : Operation α σ}

/-- An operation that overlooks a neighbor is such news of it. -/
def Overlooks (m : Monitor α σ) (op : Operation α σ) (n : Name) : Prop :=
  ∃ e, op = .news e ∧ m.toMonitorState.Overlooks e n

/-- Only news and taking over neighbors decide which neighbors are stable. -/
theorem isStable_apply (hadopt : op ≠ .adoptNeighbors) (hnews : ∀ e, op ≠ .news e) (n : Name) :
    (m.apply op).isStable n = m.isStable n :=
  MonitorState.isStable_congr
    (m.map_apply hadopt hnews LinkState.isStable (fun _ => rfl) (fun _ _ => rfl) n)

/-- What brings no news leaves every stable neighbor armed. -/
theorem stableArmed_apply (hm : m.StableArmed) (h : m.TimersConsistent) (hfiled : Filed m.links)
    (hadopt : op ≠ .adoptNeighbors) (hnews : ∀ e, op ≠ .news e) : (m.apply op).StableArmed := by
  have hstable : ∀ n, (m.apply op).isStable n = true → m.isStable n = true := fun n hn =>
    isStable_apply hadopt hnews n ▸ hn
  cases op with
  | adoptNeighbors => exact absurd rfl hadopt
  | news e => exact absurd rfl (hnews e)
  | start =>
    show m.start.StableArmed
    unfold MonitorState.start
    split
    · exact hm
    · -- the warm-up has just begun
      exact fun hw => absurd Std.ExtTreeMap.getElem?_insert_self (hw.2 m.timers.nextId)
  | stop =>
    show m.stop.StableArmed
    unfold MonitorState.stop
    split
    · exact MonitorState.stableArmed_of_inactive rfl
    · exact hm
  | poll => exact hm.handleDue h hfiled _
  | scheduleProbe k => exact (MonitorState.timersKept_scheduleProbe h k).stableArmed hm hstable
  | advance elapsed => exact hm
  | _ => exact (m.sameTimers_apply (by exact trivial)).timersKept.stableArmed hm hstable

/-- An operation leaves every stable neighbor armed unless it overlooks one. -/
theorem stableArmed_apply_iff (hm : m.StableArmed) (h : m.TimersConsistent)
    (hfiled : Filed m.links) (hadopt : op ≠ .adoptNeighbors) :
    (m.apply op).StableArmed ↔ ∀ n, ¬ m.Overlooks op n := by
  by_cases hnews : ∃ e, op = .news e
  · obtain ⟨e, rfl⟩ := hnews
    have hiff : (m.apply (.news e)).StableArmed ↔ _ := hm.handleNews_iff h e
    rw [hiff]
    refine forall_congr' fun n => not_congr ⟨fun hn => ⟨e, rfl, hn⟩, ?_⟩
    rintro ⟨_, heq, hn⟩
    cases heq
    exact hn
  · exact iff_of_true (stableArmed_apply hm h hfiled hadopt fun e he => hnews ⟨e, he⟩)
      fun n hn => hnews ⟨hn.choose, hn.choose_spec.1⟩

/-- The first operation that overlooks a neighbor leads to a state that is not attended to. -/
theorem attended_run_iff (hm : m.StableArmed) (h : m.TimersConsistent) (hfiled : Filed m.links)
    {ops : List (Operation α σ)} (hops : ∀ op ∈ ops, op ≠ .adoptNeighbors) :
    (∀ before, before <+: ops → (m.run before).Attended) ↔
      ∀ s ∈ m.steps ops, ∀ n, ¬ s.1.Overlooks s.2 n := by
  refine holds_along_iff (I := fun m => m.TimersConsistent ∧ Filed m.links)
    (P := fun m => m.Attended) ⟨h, hfiled⟩ (h.attended_iff.2 hm) fun s hs hI => ?_
  have hnext := timersConsistent_apply hI.1 s.2
  refine ⟨⟨hnext, filed_apply hI.2 s.2⟩, fun hattended => hnext.attended_iff.trans ?_⟩
  exact stableArmed_apply_iff (hI.1.attended_iff.1 hattended) hI.1 hI.2
    (hops _ (mem_of_mem_steps hs))

/-- A monitor that has taken over its neighbors is one that a run leads to. -/
theorem reachable_adopted (surroundings : Surroundings α) (settings : LinkSettings α)
    (memory : σ) : ((idle surroundings settings memory).apply .adoptNeighbors).Reachable :=
  .apply _ (.idle surroundings settings memory)

/-- Its links are filed under their own names. -/
theorem filed_adopted (surroundings : Surroundings α) (settings : LinkSettings α) (memory : σ) :
    Filed ((idle surroundings settings memory).apply .adoptNeighbors).links :=
  MonitorState.filed_adoptNeighbors fun n link hn => by simp [idle, MonitorState.idle] at hn

end Monitor

/-- **Which stable neighbors are probed.** In a run that adopts its neighbors once, at the
beginning, no neighbor ever has two live timers for its probes; and after the warm-up every stable
neighbor has one in all the states that the run leads through, exactly if none of its operations
overlooks a neighbor. -/
theorem attended_throughout_iff {α σ : Type} [Scalar α] (surroundings : Surroundings α)
    (settings : LinkSettings α) (memory : σ) {ops : List (Operation α σ)}
    (hops : ∀ op ∈ ops, op ≠ .adoptNeighbors) :
    let m := (Monitor.idle surroundings settings memory).apply .adoptNeighbors
    (∀ n, ∀ t ∈ (m.run ops).timers.timers, ∀ u ∈ (m.run ops).timers.timers,
      t.payload = .probe n → u.payload = .probe n → t = u) ∧
    ((∀ before, before <+: ops → (m.run before).Attended) ↔
      ∀ s ∈ m.steps ops, ∀ n, ¬ s.1.Overlooks s.2 n) := by
  intro m
  have hreachable := Monitor.reachable_adopted surroundings settings memory
  exact ⟨fun n t ht u hu htn hun => (hreachable.run ops).timersConsistent.unique ht hu htn hun,
    Monitor.attended_run_iff (MonitorState.stableArmed_of_inactive rfl) hreachable.timersConsistent
      (Monitor.filed_adopted surroundings settings memory) hops⟩

/-! ## A neighbor that is overlooked -/

namespace Restarted

def neighbor : Name := { components := ["neighbor"] }

/-- A router with one neighbor. -/
def surroundings : Surroundings Float :=
  { (Surroundings.quiet : Surroundings Float) with
    neighbors := .ofList [⟨neighbor, .active, 10.0, 10.0, 0⟩] }

/-- A probe is answered, the monitor is stopped, a hello is missed, and the monitor warms up again
in the meantime. -/
def interrupted : List (Operation Float Unit) :=
  [.start, .advance (.ofSeconds 30), .poll, .advance (.ofSeconds 30), .poll,
    .advance (.ofMillis 50), .outcome ⟨neighbor, 1, .data⟩, .stop,
    .news (.helloTimeout neighbor 1), .start, .advance (.ofSeconds 30), .poll]

def monitor : Monitor Float Unit :=
  (Monitor.idle surroundings .standard ()).apply .adoptNeighbors

/-- A hello that comes after the restart overlooks the neighbor. -/
theorem overlooks_hello :
    (monitor.run interrupted).Overlooks (.news (.helloReceived neighbor)) neighbor := by
  have htasks : ((monitor.run interrupted).timers.timers.map (·.payload)) = [.report] := by
    decide +kernel
  have htask : ∀ t ∈ (monitor.run interrupted).timers.timers, t.payload = .report := fun t ht =>
    List.mem_singleton.1 (htasks ▸ List.mem_map_of_mem ht)
  obtain ⟨link, hlink, hhistory⟩ : ∃ link,
      (monitor.run interrupted).links[neighbor]? = some link ∧ link.history = [50000000] :=
    ⟨_, rfl, rfl⟩
  have hreachable : (monitor.run interrupted).Reachable :=
    (Monitor.reachable_adopted surroundings .standard ()).run interrupted
  refine ⟨_, rfl, ⟨rfl, fun id hid => ?_⟩, rfl, fun t ht => ?_, link, hlink, .inl ⟨rfl, ?_⟩⟩
  · obtain ⟨deadline, ht⟩ := hreachable.timersConsistent.armed.wellFormed.exists_timer hid
    cases htask _ ht
  · rw [htask t ht]
    exact Task.noConfusion
  · rw [hhistory]
    exact List.cons_ne_nil _ _

/-- Up to the hello that ends the interruption every stable neighbor is probed, and then one is
not. -/
theorem attended_until_hello :
    (∀ before, before <+: interrupted → (monitor.run before).Attended) ∧
    ¬ (monitor.run (interrupted ++ [.news (.helloReceived neighbor)])).Attended := by
  have hnews : ∀ op ∈ interrupted, ∀ e, op = .news e → e = .helloTimeout neighbor 1 := by
    simp [interrupted]
  have hlooked : ∀ s ∈ monitor.steps interrupted, ∀ n, ¬ s.1.Overlooks s.2 n := by
    rintro s hs n ⟨e, he, hn⟩
    have hmem : s.2 ∈ interrupted :=
      monitor.map_snd_steps interrupted ▸ List.mem_map_of_mem (f := (·.2)) hs
    obtain ⟨link, -, ⟨he', -⟩ | ⟨he', -⟩⟩ := hn.unasked <;> cases (hnews _ hmem e he).symm.trans he'
  have hadopt : ∀ op ∈ interrupted ++ [.news (.helloReceived neighbor)], op ≠ .adoptNeighbors := by
    simp [interrupted]
  have hbefore : ∀ before, before <+: interrupted → (monitor.run before).Attended :=
    (attended_throughout_iff surroundings .standard () fun op hop =>
      hadopt op (List.mem_append_left _ hop)).2.2 hlooked
  refine ⟨hbefore, fun hafter => ?_⟩
  refine (attended_throughout_iff surroundings .standard () hadopt).2.1 (fun before hprefix => ?_)
    (monitor.run interrupted, .news (.helloReceived neighbor)) ?_ neighbor overlooks_hello
  · rcases List.prefix_concat_iff.1 hprefix with rfl | hprefix
    · exact hafter
    · exact hbefore before hprefix
  · rw [Monitor.steps_append]
    exact List.mem_append_right _ (List.mem_singleton_self _)

end Restarted

end AdaptiveRouting
