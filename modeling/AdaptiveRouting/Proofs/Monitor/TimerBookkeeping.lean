import AdaptiveRouting.Proofs.Monitor.Draining
import Mathlib.Data.List.Nodup

/-!
# Every live timer is accounted for

A live timer stands for a probe, or it belongs to the clockwork of the monitor: it ends the warm-up,
or a report is due with it. Whoever handles a timer arms one in its place
(`MonitorState.timers_perform`), so that the clockwork consists of one timer for as long as the
monitor is active (`MonitorState.Ticks`), while arming and disarming neighbors does not touch it.
Together with what is noted about probes this accounts for all timers, whatever has happened since
the beginning (`timers_accounted_for`).
-/

namespace AdaptiveRouting

/-- A timer enters the list at its place. -/
theorem LiveTimers.perm_enter {τ : Type} (t : LiveTimer τ) (ts : List (LiveTimer τ)) :
    (enter t ts).Perm (t :: ts) := by
  induction ts with
  | nil => exact .refl _
  | cons u rest ih =>
    unfold enter
    split
    · exact .refl _
    · exact (ih.cons u).trans (.swap t u rest)

namespace MonitorState

variable {α : Type} {m m' next : MonitorState α}

/-- The live timers that stand for no probe. -/
def clockwork (m : MonitorState α) : List (LiveTimer Task) :=
  m.timers.timers.filter (!·.payload.isProbe)

/-- The notes on timers are right, and the clockwork of an active monitor is one timer. -/
structure Ticks (m : MonitorState α) : Prop where
  consistent : TimersConsistent m
  /-- An active monitor has one timer besides those of the probes. -/
  one : m.active = true → m.clockwork.length = 1

/-- The clockwork consists of the warm-up and the report. -/
theorem mem_clockwork {t : LiveTimer Task} : t ∈ m.clockwork ↔
    t ∈ m.timers.timers ∧ (t.payload = .warmUp ∨ t.payload = .report) := by
  unfold clockwork
  cases hp : t.payload <;> simp [hp, Task.isProbe]

/-- The clockwork stays as it is where no timer changes. -/
theorem Ticks.of_eq (h : Ticks m) (htimers : m'.timers = m.timers)
    (hprobes : m'.probeTimers = m.probeTimers) (hactive : m'.active = m.active) : Ticks m' where
  consistent := h.consistent.of_eq htimers hprobes hactive
  one ha := by
    unfold clockwork
    rw [htimers]
    exact h.one (hactive ▸ ha)

/-- The clockwork is the same in states with the same timers. -/
theorem Ticks.of_sameTimers (h : Ticks m) (hsame : SameTimers m m') : Ticks m' :=
  h.of_eq hsame.timers hsame.probeTimers hsame.active

/-! ## Arming a neighbor -/

/-- Neither the timer that a neighbor is given nor the one that it had belongs to the clockwork. -/
theorem clockwork_scheduleProbe (h : TimersConsistent m) (n : Name) :
    (m.scheduleProbe n).clockwork = m.clockwork := by
  by_cases ha : m.active = true
  · unfold clockwork
    rw [h.timers_scheduleProbe ha, LiveTimers.filter_enter (by rfl), List.filter_filter]
    refine List.filter_congr ?_
    intro t _
    cases t.payload <;> simp [Task.isProbe]
  · have hsame : m.scheduleProbe n = m := by simp [scheduleProbe, ha]
    rw [hsame]

/-- To schedule probes leaves the clockwork alone. -/
theorem clockwork_foldl_scheduleProbe (h : TimersConsistent m) (ns : List Name) :
    (ns.foldl scheduleProbe m).clockwork = m.clockwork := by
  induction ns generalizing m with
  | nil => rfl
  | cons n ns ih => rw [List.foldl_cons, ih (h.scheduleProbe n), clockwork_scheduleProbe h]

/-- To schedule a probe leaves the clockwork one timer. -/
theorem Ticks.scheduleProbe (h : Ticks m) (n : Name) : Ticks (m.scheduleProbe n) where
  consistent := h.consistent.scheduleProbe n
  one ha := by
    rw [clockwork_scheduleProbe h.consistent]
    exact h.one ((timersDiffer_scheduleProbe m n).active.symm.trans ha)

/-- To ensure that a neighbor is armed leaves the clockwork one timer. -/
theorem Ticks.ensureProbe (h : Ticks m) (n : Name) : Ticks (m.ensureProbe n) := by
  unfold MonitorState.ensureProbe
  split
  · exact h
  · exact h.scheduleProbe n

/-! ## Handling a timer -/

/-- The delay depends on the settings and on the next random number. -/
theorem probeDelay_fst (m : MonitorState α) : m.probeDelay.1 =
    if m.settings.probeJitter / 1000000 = 0 then nonzeroDelay m.settings.probeInterval
    else nonzeroDelay (m.settings.probeInterval +
      .ofMillis (m.jitter m.drawn % (m.settings.probeJitter / 1000000))) := by
  unfold probeDelay
  dsimp only
  split <;> rfl

/-- How long the timer that is armed in place of another one is to run. -/
def rearmDelay (m : MonitorState α) : Task → Duration
  | .probe _ => m.probeDelay.1
  | .warmUp | .report => m.settings.reportInterval

section
variable [Scalar α]

/-- The timer of a probe that is handled makes way for one of the same neighbor. -/
theorem timers_perform_probe {n : Name}
    (h : TimersConsistent { m with probeTimers := m.probeTimers.erase n }) (ha : m.active = true) :
    (m.perform (.probe n)).timers.timers =
      LiveTimers.enter ⟨m.clock.now + m.probeDelay.1, m.timers.nextId, .probe n⟩
        m.timers.timers := by
  let taken : MonitorState α := { m with probeTimers := m.probeTimers.erase n }
  have hsent := h.probeIfStable n
  obtain ⟨nextSeq, pending, sent, outbox, heq⟩ := taken.probeIfStable_eq n
  have hdelay : (taken.probeIfStable n).probeDelay.1 = m.probeDelay.1 := by
    rw [probeDelay_fst, probeDelay_fst, heq]
  have hkept : (taken.probeIfStable n).timers = m.timers ∧
      (taken.probeIfStable n).clock = m.clock := by
    rw [heq]
    exact ⟨rfl, rfl⟩
  have hactive : (taken.probeIfStable n).active = true := by
    rw [heq]
    exact ha
  refine (hsent.timers_scheduleProbe hactive n).trans ?_
  rw [hdelay, hkept.1, hkept.2]
  refine congrArg (LiveTimers.enter _) (List.filter_eq_self.2 ?_)
  -- the neighbor has no other timer
  intro t ht
  have hne : t.payload ≠ .probe n := by
    intro hp
    have hnoted := h.armed.noted_of_mem ht hp
    simp at hnoted
  simpa using hne

/-- A report that is made is armed again after its interval, and no other timer changes. -/
theorem timers_perform_report (h : TimersConsistent m) : (m.perform .report).timers.timers =
    LiveTimers.enter ⟨m.clock.now + m.settings.reportInterval, m.timers.nextId, .report⟩
      m.timers.timers := by
  obtain ⟨outbox, heq⟩ := m.report_eq
  have hreported := h.report
  unfold perform
  rw [heq] at hreported ⊢
  exact hreported.armed.wellFormed.timers_schedule _ _

/-- The end of the warm-up arms the first report. -/
theorem length_clockwork_perform_warmUp (h : TimersConsistent m) :
    (m.perform .warmUp).clockwork.length = m.clockwork.length + 1 := by
  have harms := h.foldl_scheduleProbe m.stableNeighbors
  have hkept := clockwork_foldl_scheduleProbe h m.stableNeighbors
  unfold clockwork at hkept ⊢
  unfold perform scheduleReport
  rw [harms.armed.wellFormed.timers_schedule, ((LiveTimers.perm_enter _ _).filter _).length_eq,
    List.filter_cons_of_pos (by rfl), List.length_cons, hkept]

/-- After the warm-up, a timer that is handled is replaced by one for the same task, which has the
next number. -/
theorem timers_perform (h : TimersConsistent m) {id : TimerId} {task : Task}
    {timers : TimerQueue Task} (hpop : m.timers.popDue? m.clock.now = some (id, task, timers))
    (hwarm : task ≠ .warmUp) : (perform { m with timers } task).timers.timers =
      LiveTimers.enter ⟨m.clock.now + m.rearmDelay task, m.timers.nextId, task⟩ timers.timers := by
  have ha := h.active_of_popDue? hpop
  have harmed := h.armed.popDue? hpop
  obtain ⟨-, -, -, -, hid, -⟩ := h.armed.wellFormed.of_popDue? hpop
  rw [← hid]
  cases task with
  | warmUp => exact absurd rfl hwarm
  | probe n =>
    have hrest : TimersConsistent { m with timers, probeTimers := m.probeTimers.erase n } :=
      ⟨harmed, by intro hi; simp [ha] at hi⟩
    have hdelay : (probeDelay { m with timers }).1 = m.probeDelay.1 := by
      rw [probeDelay_fst, probeDelay_fst]
    have hperform := timers_perform_probe (m := { m with timers }) hrest ha
    rwa [hdelay] at hperform
  | report =>
    have hrest : TimersConsistent { m with timers } := ⟨harmed, by intro hi; simp [ha] at hi⟩
    exact timers_perform_report hrest

/-- Whatever timer is handled, the clockwork is as large as it was. -/
theorem length_clockwork_handleNext? (h : TimersConsistent m) (hnext : m.handleNext? = some next) :
    next.clockwork.length = m.clockwork.length := by
  obtain ⟨id, task, timers, hpop, rfl⟩ := handleNext?_eq_some_iff.1 hnext
  obtain ⟨deadline, htimers, -⟩ := h.armed.wellFormed.of_popDue? hpop
  by_cases hwarm : task = .warmUp
  · subst hwarm
    have ha := h.active_of_popDue? hpop
    have hrest : TimersConsistent { m with timers } :=
      ⟨h.armed.popDue? hpop, by intro hi; simp [ha] at hi⟩
    rw [length_clockwork_perform_warmUp hrest]
    unfold clockwork
    rw [htimers, List.filter_cons_of_pos (by rfl), List.length_cons]
  · unfold clockwork
    rw [timers_perform h hpop hwarm, htimers, ((LiveTimers.perm_enter _ _).filter _).length_eq]
    cases task <;> simp [Task.isProbe]

/-- Handling timers leaves the clockwork one timer. -/
theorem Ticks.handleDue (h : Ticks m) (bound : Nat) : Ticks (m.handleDue bound) := by
  induction bound generalizing m with
  | zero => exact h
  | succ bound ih =>
    unfold MonitorState.handleDue
    split
    · exact h
    · next next hnext =>
      refine ih ⟨h.consistent.handleNext? hnext, fun ha => ?_⟩
      rw [length_clockwork_handleNext? h.consistent hnext]
      obtain ⟨_, _, _, _, _, _, _, rfl⟩ := probingDiffers_handleNext? hnext
      exact h.one ha

/-! ## Starting and stopping -/

omit [Scalar α] in
/-- The clockwork starts with the warm-up, since there was no timer before. -/
theorem Ticks.start (h : Ticks m) : Ticks m.start where
  consistent := h.consistent.start
  one _ := by
    unfold MonitorState.start
    split
    · next ha => exact h.one ha
    · next ha =>
      unfold clockwork
      rw [h.consistent.armed.wellFormed.timers_schedule,
        h.consistent.idle (by simpa using ha)]
      rfl

/-- A monitor that is stopped has no clockwork. -/
theorem Ticks.stop (h : Ticks m) : Ticks m.stop where
  consistent := h.consistent.stop
  one ha := by
    have hstopped : m.stop.active = false := by
      unfold MonitorState.stop
      split
      · rfl
      · next hidle => simpa using hidle
    rw [hstopped] at ha
    cases ha

end

/-- News leaves the clockwork alone. -/
theorem Ticks.handleNews (h : Ticks m) (e : NeighborEvent) : Ticks (m.handleNews e) := by
  obtain ⟨heard, htimers, hprobes, hactive, ⟨-, heq⟩ | ⟨-, heq⟩⟩ := m.handleNews_eq e
  · rw [heq]
    exact (h.of_eq htimers hprobes hactive).ensureProbe _
  · rw [heq]
    exact h.of_eq htimers hprobes hactive

end MonitorState

namespace Monitor

variable {α σ : Type} [Scalar α] {m : Monitor α σ}

/-- Whatever happens to a monitor, it keeps one timer besides those of the probes. -/
theorem ticks_apply (h : m.Ticks) (op : Operation α σ) : (m.apply op).Ticks := by
  cases op with
  | start => exact h.start
  | stop => exact h.stop
  | poll => exact h.handleDue _
  | scheduleProbe n => exact h.scheduleProbe n
  | news e => exact h.handleNews e
  | advance elapsed => exact h.of_eq rfl rfl rfl
  | _ => exact h.of_sameTimers (m.sameTimers_apply (by exact trivial))

/-- The clockwork is one timer all along a run. -/
theorem ticks_run (h : m.Ticks) (ops : List (Operation α σ)) : (m.run ops).Ticks :=
  run_keeps (P := fun m => m.Ticks) h fun s _ hs => ticks_apply hs s.2

end Monitor

namespace MonitorState

variable {α : Type} {m : MonitorState α}

/-- A new monitor has no clockwork. -/
theorem ticks_idle (surroundings : Surroundings α) (settings : LinkSettings α) :
    Ticks (.idle surroundings settings) where
  consistent := timersConsistent_idle surroundings settings
  one ha := by cases ha

/-- What is live falls due once. -/
theorem TimersConsistent.existsUnique_deadline (h : TimersConsistent m) {id : TimerId} {task : Task}
    (hid : m.timers.live[id]? = some task) :
    ∃! deadline, (⟨deadline, id, task⟩ : LiveTimer Task) ∈ m.timers.timers := by
  obtain ⟨deadline, ht⟩ := h.armed.wellFormed.exists_timer hid
  refine ⟨deadline, ht, ?_⟩
  intro other hother
  have := List.inj_on_of_nodup_map h.armed.wellFormed.nodup_ids hother ht rfl
  exact congrArg LiveTimer.deadline this

/-- The clockwork of an active monitor, told by the number of its timer. -/
theorem Ticks.existsUnique (h : Ticks m) (ha : m.active = true) :
    ∃! id : TimerId, m.timers.live[id]? = some .warmUp ∨ m.timers.live[id]? = some .report := by
  obtain ⟨t, hone⟩ := List.length_eq_one_iff.1 (h.one ha)
  obtain ⟨ht, htask⟩ := mem_clockwork.1 (hone ▸ List.mem_singleton_self t)
  have hlive := (TimerQueue.mem_timers.1 ht).2
  refine ⟨t.id, by simpa [hlive] using htask, ?_⟩
  have hsame : ∀ {id : TimerId} {task : Task}, m.timers.live[id]? = some task →
      task = .warmUp ∨ task = .report → id = t.id := by
    intro id task hid htask'
    obtain ⟨deadline, hu⟩ := h.consistent.armed.wellFormed.exists_timer hid
    have hmem := mem_clockwork.2 ⟨hu, htask'⟩
    rw [hone, List.mem_singleton] at hmem
    exact congrArg LiveTimer.id hmem
  intro id hid
  rcases hid with hid | hid
  · exact hsame hid (.inl rfl)
  · exact hsame hid (.inr rfl)

end MonitorState

/-- **Every live timer is accounted for.** After whatever has happened since the beginning, starts
and stops included, an active monitor has exactly one live timer that ends the warm-up or brings a
report, and an inactive one has no live timer at all. A neighbor is noted with a timer exactly when
this timer is live and stands for a probe to the neighbor, so that no neighbor has two and none is
forgotten; and whatever is live has one deadline, under which it falls due. -/
theorem timers_accounted_for {α σ : Type} [Scalar α] (surroundings : Surroundings α)
    (settings : LinkSettings α) (memory : σ) (ops : List (Operation α σ)) :
    let m := (Monitor.idle surroundings settings memory).run ops
    (m.active = true → ∃! id : TimerId, m.timers.live[id]? = some .warmUp ∨
      m.timers.live[id]? = some .report) ∧
    (m.active = false → m.timers.size = 0) ∧
    (∀ (n : Name) (id : TimerId),
      m.probeTimers[n]? = some id ↔ m.timers.live[id]? = some (.probe n)) ∧
    (∀ (n : Name) (id id' : TimerId), m.timers.live[id]? = some (.probe n) →
      m.timers.live[id']? = some (.probe n) → id = id') ∧
    ∀ (id : TimerId) task, m.timers.live[id]? = some task →
      ∃! deadline, (⟨deadline, id, task⟩ : LiveTimer Task) ∈ m.timers.timers := by
  intro m
  -- All of it is read off one invariant.
  have h : m.Ticks := Monitor.ticks_run (MonitorState.ticks_idle surroundings settings) ops
  have hc := h.consistent
  refine ⟨h.existsUnique, fun hidle => ?_, fun n id => hc.armed.noted_iff, ?_, fun id task hid =>
    hc.existsUnique_deadline hid⟩
  · rw [hc.armed.wellFormed.size_eq, hc.idle hidle, List.length_nil]
  · intro n id id' hid hid'
    have hnoted := hc.armed.noted_iff.2 hid
    rw [hc.armed.noted_iff.2 hid'] at hnoted
    exact (Option.some.inj hnoted).symm

end AdaptiveRouting
