import AdaptiveRouting.Proofs.Monitor.News
import AdaptiveRouting.Proofs.Time.LiveTimers

/-!
# The timers of the monitor

The monitor notes for each neighbor which of its timers is armed. A queue and such notes belong
together when the notes name exactly the live timers that stand for probes (`ArmedTimers`); then no
neighbor has two timers, and to disarm a neighbor takes every probe of it out of the queue. This is
so in every state that a run leads to, and while the monitor is not active it has no live timer at
all (`TimersConsistent`, `Monitor.Reachable.timersConsistent`).
-/

namespace AdaptiveRouting

/-- The queue is well formed, and a neighbor is noted with a timer exactly when this timer is live
and stands for a probe to the neighbor. -/
structure ArmedTimers (q : TimerQueue Task) (armed : NameMap TimerId) : Prop where
  /-- The queue is well formed. -/
  wellFormed : q.WellFormed
  /-- What is noted is what is live. -/
  noted_iff {n : Name} {id : TimerId} : armed[n]? = some id ↔ q.live[id]? = some (.probe n)

namespace ArmedTimers

variable {q : TimerQueue Task} {armed : NameMap TimerId} {n : Name}

/-- In an empty queue nobody is noted. -/
theorem empty : ArmedTimers .empty ∅ where
  wellFormed := TimerQueue.wellFormed_empty
  noted_iff := by simp [TimerQueue.empty]

/-- Once all timers are cancelled nobody is noted. -/
theorem cancelAll (q : TimerQueue Task) : ArmedTimers q.cancelAll ∅ where
  wellFormed := .cancelAll q
  noted_iff := by simp [TimerQueue.cancelAll]

/-- A live timer that stands for a probe to a neighbor is the one that is noted. -/
theorem noted_of_mem (h : ArmedTimers q armed) {t : LiveTimer Task} (ht : t ∈ q.timers)
    (hp : t.payload = .probe n) : armed[n]? = some t.id :=
  h.noted_iff.2 (hp ▸ (TimerQueue.mem_timers.1 ht).2)

/-- A timer that stands for no probe needs no note. -/
theorem schedule (h : ArmedTimers q armed) (deadline : Instant) {task : Task}
    (htask : ∀ n, task ≠ .probe n) : ArmedTimers (q.schedule deadline task).2 armed where
  wellFormed := h.wellFormed.schedule deadline task
  noted_iff {n id} := by
    have hnew := h.wellFormed.getElem?_nextId
    rw [h.noted_iff, TimerQueue.schedule, Std.ExtTreeMap.getElem?_insert]
    by_cases hid : q.nextId = id
    · subst hid
      simp [hnew, htask n]
    · simp [hid]

/-- A neighbor without a timer can be given one. -/
theorem scheduleProbe (h : ArmedTimers q armed) (hn : armed[n]? = none) (deadline : Instant) :
    ArmedTimers (q.schedule deadline (.probe n)).2 (armed.insert n q.nextId) where
  wellFormed := h.wellFormed.schedule deadline (.probe n)
  noted_iff {k id} := by
    have hnew := h.wellFormed.getElem?_nextId
    rw [TimerQueue.schedule, Std.ExtTreeMap.getElem?_insert, Std.ExtTreeMap.getElem?_insert]
    by_cases hk : n = k <;> by_cases hid : q.nextId = id
    · subst hk hid
      simp
    · subst hk
      simp [hid, ← h.noted_iff, hn]
    · subst hid
      simp [hk, h.noted_iff, hnew]
    · simp [hk, hid, h.noted_iff]

/-- The timer of a neighbor can be taken away. -/
theorem cancel (h : ArmedTimers q armed) {id : TimerId} (hn : armed[n]? = some id) :
    ArmedTimers (q.cancel id).2 (armed.erase n) where
  wellFormed := h.wellFormed.cancel id
  noted_iff {k i} := by
    have hlive := h.noted_iff.1 hn
    rw [TimerQueue.cancel, Std.ExtTreeMap.getElem?_erase, Std.ExtTreeMap.getElem?_erase]
    by_cases hk : n = k <;> by_cases hi : id = i
    · simp [hk, hi]
    · subst hk
      have : q.live[i]? ≠ some (.probe n) := fun hp => by
        have := h.noted_iff.2 hp
        rw [hn] at this
        exact hi (Option.some.inj this)
      simp [hi, this]
    · subst hi
      have : armed[k]? ≠ some id := fun hp => by
        have := h.noted_iff.1 hp
        rw [hlive] at this
        exact hk (Task.probe.inj (Option.some.inj this))
      simp [hk, this]
    · simp [hk, hi, h.noted_iff]

/-- What remains when a timer has been taken out of the queue. -/
theorem popDue? (h : ArmedTimers q armed) {now : Instant} {id : TimerId} {task : Task}
    {q' : TimerQueue Task} (hpop : q.popDue? now = some (id, task, q')) :
    ArmedTimers q' (match task with | .probe n => armed.erase n | _ => armed) := by
  obtain ⟨deadline, htimers, -, hwf, -, hlive⟩ := h.wellFormed.of_popDue? hpop
  have htask : q.live[id]? = some task := by
    have hfirst : ⟨deadline, id, task⟩ ∈ q.timers := by
      rw [htimers]
      exact List.mem_cons_self ..
    exact (TimerQueue.mem_timers.1 hfirst).2
  have hcancel : (q.cancel id).2.live = q'.live := hlive.symm
  cases task with
  | probe n => exact ⟨hwf, fun {k i} => hcancel ▸ (h.cancel (h.noted_iff.2 htask)).noted_iff⟩
  | warmUp | report =>
    refine ⟨hwf, fun {k i} => ?_⟩
    rw [hlive, Std.ExtTreeMap.getElem?_erase, h.noted_iff]
    by_cases hi : id = i
    · subst hi
      simp [htask]
    · simp [hi]

end ArmedTimers

namespace MonitorState

variable {α : Type} {m m' : MonitorState α}

/-- The notes of the monitor belong to its queue, and it has no live timer unless it is active. -/
structure TimersConsistent (m : MonitorState α) : Prop where
  /-- The notes belong to the queue. -/
  armed : ArmedTimers m.timers m.probeTimers
  /-- An inactive monitor has no timers. -/
  idle : m.active = false → m.timers.timers = []

/-- The notes stay right where no timer changes. -/
theorem TimersConsistent.of_eq (h : TimersConsistent m) (htimers : m'.timers = m.timers)
    (hprobes : m'.probeTimers = m.probeTimers) (hactive : m'.active = m.active) :
    TimersConsistent m' :=
  ⟨by rw [htimers, hprobes]; exact h.armed, by rw [htimers, hactive]; exact h.idle⟩

/-- The notes are right in states with the same timers. -/
theorem TimersConsistent.of_sameTimers (h : TimersConsistent m) (hsame : SameTimers m m') :
    TimersConsistent m' := h.of_eq hsame.timers hsame.probeTimers hsame.active

/-! ## Arming -/

/-- A neighbor that has been disarmed has no timer. -/
theorem getElem?_disarm (m : MonitorState α) (n : Name) : (m.disarm n).probeTimers[n]? = none := by
  unfold disarm
  split
  · next h => exact h
  · exact Std.ExtTreeMap.getElem?_erase_self

/-- Whoever is disarmed loses the note with the timer. -/
theorem TimersConsistent.disarm (h : TimersConsistent m) (n : Name) :
    TimersConsistent (m.disarm n) := by
  unfold MonitorState.disarm
  split
  · exact h
  · next id hid =>
    refine ⟨h.armed.cancel hid, fun ha => ?_⟩
    rw [TimerQueue.timers_cancel, h.idle ha, List.filter_nil]

/-- Disarming a neighbor takes the probes to it off the list of live timers. -/
theorem TimersConsistent.timers_disarm (h : TimersConsistent m) (n : Name) :
    (m.disarm n).timers.timers = m.timers.timers.filter (·.payload ≠ .probe n) := by
  unfold MonitorState.disarm
  split
  -- Whoever is not noted has no live timer to take off.
  · next hnone =>
    refine (List.filter_eq_self.2 fun t ht => ?_).symm
    have hne : t.payload ≠ .probe n := fun hp => by
      rw [h.armed.noted_of_mem ht hp] at hnone
      cases hnone
    simpa using hne
  · next id hid =>
    rw [TimerQueue.timers_cancel]
    refine List.filter_congr fun t ht => decide_eq_decide.2 (not_congr ?_)
    constructor
    · rintro rfl
      have hlive := (TimerQueue.mem_timers.1 ht).2
      rw [h.armed.noted_iff.1 hid] at hlive
      exact (Option.some.inj hlive).symm
    · intro hp
      have hnoted := h.armed.noted_of_mem ht hp
      rw [hid] at hnoted
      exact (Option.some.inj hnoted).symm

/-- Whoever has no timer can be armed and noted. -/
theorem TimersConsistent.arm (h : TimersConsistent m) (ha : m.active = true) {n : Name}
    (hn : m.probeTimers[n]? = none) (delay : Duration) : TimersConsistent (m.arm n delay) where
  armed := h.armed.scheduleProbe hn _
  idle hidle := by
    have hactive : m.active = false := hidle
    rw [ha] at hactive
    cases hactive

/-- Scheduling a probe keeps the notes right, as the timer before is cancelled. -/
theorem TimersConsistent.scheduleProbe (h : TimersConsistent m) (n : Name) :
    TimersConsistent (m.scheduleProbe n) := by
  rcases m.scheduleProbe_eq n with ⟨-, heq⟩ | ⟨ha, delay, drawn, -, heq⟩
  · rwa [heq]
  · rw [heq]
    have hdrawn : TimersConsistent { m with drawn } := h.of_eq rfl rfl rfl
    have ha' := (timersDiffer_disarm { m with drawn } n).active.trans ha
    exact (hdrawn.disarm n).arm ha' (getElem?_disarm _ n) delay

/-- What is live once a neighbor has been armed afresh: the timer that it had makes way for one
that has the next number. -/
theorem TimersConsistent.timers_scheduleProbe (h : TimersConsistent m) (ha : m.active = true)
    (n : Name) : (m.scheduleProbe n).timers.timers =
      LiveTimers.enter ⟨m.clock.now + m.probeDelay.1, m.timers.nextId, .probe n⟩
        (m.timers.timers.filter (·.payload ≠ .probe n)) := by
  obtain ⟨delay, drawn, -, hdelay⟩ := m.probeDelay_eq
  have heq : m.scheduleProbe n = (MonitorState.disarm { m with drawn } n).arm n delay := by
    unfold MonitorState.scheduleProbe
    rw [if_pos ha, hdelay]
  have hdrawn : TimersConsistent { m with drawn } := h.of_eq rfl rfl rfl
  have hdisarmed : (MonitorState.disarm { m with drawn } n).timers.timers =
      m.timers.timers.filter (·.payload ≠ .probe n) := hdrawn.timers_disarm n
  have hclock : (MonitorState.disarm { m with drawn } n).clock = m.clock :=
    (timersDiffer_disarm { m with drawn } n).clock
  have hnext : (MonitorState.disarm { m with drawn } n).timers.nextId = m.timers.nextId := by
    unfold MonitorState.disarm
    split <;> rfl
  rw [heq, ← hdisarmed, hdelay, ← hclock, ← hnext]
  exact (hdrawn.disarm n).armed.wellFormed.timers_schedule _ _

/-- Ensuring that a neighbor is armed keeps the notes right. -/
theorem TimersConsistent.ensureProbe (h : TimersConsistent m) (n : Name) :
    TimersConsistent (m.ensureProbe n) := by
  unfold MonitorState.ensureProbe
  split
  · exact h
  · exact h.scheduleProbe n

/-- Scheduling probes for some neighbors keeps the notes right. -/
theorem TimersConsistent.foldl_scheduleProbe (h : TimersConsistent m) (ns : List Name) :
    TimersConsistent (ns.foldl MonitorState.scheduleProbe m) := by
  induction ns generalizing m with
  | nil => exact h
  | cons n ns ih => exact ih (h.scheduleProbe n)

/-- Probing a neighbor does not touch the notes. -/
theorem TimersConsistent.probeIfStable (h : TimersConsistent m) (n : Name) :
    TimersConsistent (m.probeIfStable n) := by
  obtain ⟨_, _, _, _, heq⟩ := m.probeIfStable_eq n
  rw [heq]
  exact h.of_eq rfl rfl rfl

/-- A report can be armed without a note. -/
theorem TimersConsistent.scheduleReport (h : TimersConsistent m) (ha : m.active = true) :
    TimersConsistent m.scheduleReport where
  armed := h.armed.schedule _ fun n => by simp
  idle hidle := by
    have hactive : m.active = false := hidle
    rw [ha] at hactive
    cases hactive

/-! ## The operations -/

/-- Starting keeps the notes right. -/
theorem TimersConsistent.start (h : TimersConsistent m) : TimersConsistent m.start := by
  unfold MonitorState.start
  split
  · exact h
  · exact ⟨h.armed.schedule _ fun n => by simp, fun hidle => by cases hidle⟩

/-- News keeps the notes right. -/
theorem TimersConsistent.handleNews (h : TimersConsistent m) (e : NeighborEvent) :
    TimersConsistent (m.handleNews e) := by
  obtain ⟨heard, htimers, hprobes, hactive, ⟨-, heq⟩ | ⟨-, heq⟩⟩ := m.handleNews_eq e
  · rw [heq]
    exact (h.of_eq htimers hprobes hactive).ensureProbe _
  · rw [heq]
    exact h.of_eq htimers hprobes hactive

/-- Only an active monitor has a timer to take out. -/
theorem TimersConsistent.active_of_popDue? (h : TimersConsistent m) {now : Instant}
    {p : TimerId × Task × TimerQueue Task} (hpop : m.timers.popDue? now = some p) :
    m.active = true := by
  by_contra ha
  have hnil := h.idle (by simpa using ha)
  obtain ⟨deadline, htimers, -⟩ := h.armed.wellFormed.of_popDue? hpop
  rw [hnil] at htimers
  cases htimers

section
variable [Scalar α]

/-- Stopping leaves neither timers nor notes. -/
theorem TimersConsistent.stop (h : TimersConsistent m) : TimersConsistent m.stop := by
  unfold MonitorState.stop
  split
  · exact ⟨.cancelAll _, fun _ => rfl⟩
  · exact h

/-- The end of the warm-up keeps the notes right. -/
theorem TimersConsistent.perform_warmUp (h : TimersConsistent m) (ha : m.active = true) :
    TimersConsistent (m.perform .warmUp) :=
  (h.foldl_scheduleProbe _).scheduleReport ((timersDiffer_foldl_scheduleProbe m _).active.trans ha)

/-- Reporting does not touch the notes. -/
theorem TimersConsistent.report (h : TimersConsistent m) : TimersConsistent m.report := by
  obtain ⟨_, heq⟩ := m.report_eq
  rw [heq]
  exact h.of_eq rfl rfl rfl

/-- A report that is armed again keeps the notes right. -/
theorem TimersConsistent.perform_report (h : TimersConsistent m) (ha : m.active = true) :
    TimersConsistent (m.perform .report) := by
  refine h.report.scheduleReport ?_
  obtain ⟨_, heq⟩ := m.report_eq
  rw [heq]
  exact ha

/-- The neighbor of the probe has no timer when the probe is sent. -/
theorem TimersConsistent.perform_probe {n : Name}
    (h : TimersConsistent { m with probeTimers := m.probeTimers.erase n }) :
    TimersConsistent (m.perform (.probe n)) :=
  (h.probeIfStable n).scheduleProbe n

/-- Handling a timer keeps the notes right. -/
theorem TimersConsistent.handleNext? (h : TimersConsistent m) {next : MonitorState α}
    (hnext : m.handleNext? = some next) : TimersConsistent next := by
  obtain ⟨id, task, timers, hpop, rfl⟩ := handleNext?_eq_some_iff.1 hnext
  have ha := h.active_of_popDue? hpop
  have harmed := h.armed.popDue? hpop
  cases task with
  | warmUp => exact TimersConsistent.perform_warmUp ⟨harmed, fun hi => by simp [ha] at hi⟩ ha
  | probe n => exact .perform_probe ⟨harmed, fun hi => by simp [ha] at hi⟩
  | report => exact TimersConsistent.perform_report ⟨harmed, fun hi => by simp [ha] at hi⟩ ha

/-- Handling timers keeps the notes right. -/
theorem TimersConsistent.handleDue (h : TimersConsistent m) (bound : Nat) :
    TimersConsistent (m.handleDue bound) := by
  induction bound generalizing m with
  | zero => exact h
  | succ bound ih =>
    unfold MonitorState.handleDue
    split
    · exact h
    · next hnext => exact ih (h.handleNext? hnext)

end

/-- A new monitor has neither timers nor notes. -/
theorem timersConsistent_idle (surroundings : Surroundings α) (settings : LinkSettings α) :
    TimersConsistent (.idle surroundings settings) where
  armed := .empty
  idle _ := rfl

end MonitorState

namespace Monitor

variable {α σ : Type} [Scalar α] {m : Monitor α σ}

/-- Every operation leaves the notes of the monitor in agreement with its queue. -/
theorem timersConsistent_apply (h : m.TimersConsistent) (op : Operation α σ) :
    (m.apply op).TimersConsistent := by
  cases op with
  | start => exact h.start
  | stop => exact h.stop
  | poll => exact h.handleDue _
  | scheduleProbe n => exact h.scheduleProbe n
  | news e => exact h.handleNews e
  | advance elapsed => exact h.of_eq rfl rfl rfl
  | _ => exact h.of_sameTimers (m.sameTimers_apply (by exact trivial))

/-- The notes are right in every state that a run leads to. -/
theorem Reachable.timersConsistent (h : m.Reachable) : m.TimersConsistent := by
  induction h with
  | idle surroundings settings memory =>
    exact MonitorState.timersConsistent_idle surroundings settings
  | apply op _ ih => exact timersConsistent_apply ih op

end Monitor

end AdaptiveRouting
