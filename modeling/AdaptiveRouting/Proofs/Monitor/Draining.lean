import AdaptiveRouting.Proofs.Monitor.HostTime
import AdaptiveRouting.Settings.Validation

/-!
# Handling what is due comes to an end

Whatever handles a timer arms another one, so that handling what is due ends only if the new timers
lie in the future. A probe is never armed without a delay; a report is armed without one when the
report interval is zero, and then what is due is never used up (`HasInstantReport.not_drained`).
Otherwise each timer that is due is handled once, in order, and when the last one has been handled
none is due (`exists_drains`).

There is one kind of timer that is due and yet not handled. When the warm-up ends, the stable
neighbors are armed afresh, and a timer that one of them still had is disarmed (`Supersedes`). The
others have their `turn`.

On a host whose time has an end, handling what is due can also end the program, at a sum that the
host cannot hold. As the sums are known in advance, the outcome is (`Drains.drainedOn_iff`), and so
`poll_drains` tells of every reachable state on every host whether `poll` returns.
-/

namespace AdaptiveRouting

namespace MonitorState

variable {α : Type} {m m' next last : MonitorState α}

/-- The live timers that are due, in order. -/
def due (m : MonitorState α) : List (LiveTimer Task) := m.timers.due m.clock.now

/-- Handling the first timer disarms the second one. -/
def Supersedes (m : MonitorState α) (t u : LiveTimer Task) : Prop :=
  t.payload = .warmUp ∧ ∃ n ∈ m.stableNeighbors, u.payload = .probe n

instance (m : MonitorState α) (t u : LiveTimer Task) : Decidable (m.Supersedes t u) :=
  inferInstanceAs (Decidable (_ ∧ _))

/-- The timers that are due and that no other one before them disarms, in order. -/
def turn (m : MonitorState α) : List (LiveTimer Task) :=
  m.due.filter fun u => ∀ t ∈ m.due,
    Appointment.before (t.deadline, t.id) (u.deadline, u.id) = true → ¬ m.Supersedes t u

/-! ## What is due after a timer has been armed -/

/-- Disarming a neighbor takes the probes to it away from what is due. -/
theorem due_disarm (h : TimersConsistent m) (n : Name) :
    (m.disarm n).due = m.due.filter (·.payload ≠ .probe n) := by
  unfold due TimerQueue.due
  rw [(timersDiffer_disarm m n).clock, h.timers_disarm, List.filter_filter, List.filter_filter]
  simp only [Bool.and_comm]

/-- Arming a neighbor afresh has the same effect, since the new timer lies in the future. -/
theorem due_scheduleProbe (h : TimersConsistent m) (ha : m.active = true) (n : Name) :
    (m.scheduleProbe n).due = m.due.filter (·.payload ≠ .probe n) := by
  rcases m.scheduleProbe_eq n with ⟨hidle, -⟩ | ⟨-, delay, drawn, hpos, heq⟩
  · rw [ha] at hidle
    cases hidle
  · have hdrawn : TimersConsistent { m with drawn } := h.of_eq rfl rfl rfl
    have hdisarm : (MonitorState.disarm { m with drawn } n).due =
      m.due.filter (·.payload ≠ .probe n) := due_disarm hdrawn n
    rw [heq, ← hdisarm]
    exact (hdrawn.disarm n).armed.wellFormed.due_schedule (Nat.lt_add_of_pos_right hpos) _

/-- Arming the probes of some neighbors leaves due what is not a probe of theirs. -/
theorem due_foldl_scheduleProbe (h : TimersConsistent m) (ha : m.active = true) (ns : List Name) :
    (ns.foldl scheduleProbe m).due = m.due.filter fun t => ∀ n ∈ ns, t.payload ≠ .probe n := by
  induction ns generalizing m with
  | nil => simp
  | cons n ns ih =>
    have ha' := (timersDiffer_scheduleProbe m n).active.trans ha
    rw [List.foldl_cons, ih (h.scheduleProbe n) ha', due_scheduleProbe h ha, List.filter_filter]
    refine List.filter_congr fun t _ => ?_
    rw [← Bool.decide_and, decide_eq_decide, List.forall_mem_cons, and_comm]

/-- A report lies in the future unless the report interval is zero. -/
theorem due_scheduleReport (h : TimersConsistent m) (hi : m.settings.reportInterval ≠ 0) :
    m.scheduleReport.due = m.due :=
  h.armed.wellFormed.due_schedule (Nat.lt_add_of_pos_right (Nat.pos_of_ne_zero hi)) _

/-- With an interval of zero the next report is due at once. -/
theorem exists_report_due (h : TimersConsistent m) (hi : m.settings.reportInterval = 0) :
    ∃ t ∈ m.scheduleReport.due, t.payload = .report := by
  refine ⟨⟨m.clock.now + m.settings.reportInterval, m.timers.nextId, .report⟩, ?_, rfl⟩
  refine TimerQueue.mem_due.2 ⟨h.armed.wellFormed.mem_timers_schedule.2 (.inl rfl), ?_⟩
  simp [hi, scheduleReport]

/-! ## What is due after a timer has been handled -/

/-- A timer that is not the end of the warm-up disarms no other. -/
theorem filter_not_supersedes {t : LiveTimer Task} (ht : t.payload ≠ .warmUp)
    (ts : List (LiveTimer Task)) : ts.filter (¬ m.Supersedes t ·) = ts :=
  List.filter_eq_self.2 fun _ _ => decide_eq_true fun h => ht h.1

/-- What is not handled has been disarmed by a timer that is: the end of the warm-up, which nothing
disarms. -/
theorem exists_supersedes_of_notMem_turn {u : LiveTimer Task} (hu : u ∈ m.due) (hnot : u ∉ m.turn) :
    ∃ t ∈ m.turn, m.Supersedes t u := by
  unfold turn at hnot
  simp only [List.mem_filter, hu, true_and, decide_eq_true_eq] at hnot
  push Not at hnot
  obtain ⟨t, ht, -, hs⟩ := hnot
  refine ⟨t, List.mem_filter.2 ⟨ht, decide_eq_true fun w _ _ ⟨_, n, _, hp⟩ => ?_⟩, hs⟩
  rw [hs.1] at hp
  cases hp

/-- The first timer that is due has its turn, and then those that it has not disarmed. -/
theorem turn_cons {t : LiveTimer Task} {rest : List (LiveTimer Task)} (h : TimersConsistent m)
    (hdue : m.due = t :: rest) (hnext : next.due = rest.filter (¬ m.Supersedes t ·))
    (hstable : next.stableNeighbors = m.stableNeighbors) : m.turn = t :: next.turn := by
  have hordered : (t :: rest).Pairwise fun t u =>
      Appointment.before (t.deadline, t.id) (u.deadline, u.id) = true :=
    hdue ▸ h.armed.wellFormed.pairwise_timers.sublist List.filter_sublist
  obtain ⟨hfirst, -⟩ := List.pairwise_cons.1 hordered
  have hsame : ∀ w u, next.Supersedes w u ↔ m.Supersedes w u := fun w u => by
    unfold Supersedes
    rw [hstable]
  -- nothing comes before the first one
  have hturn : ∀ w ∈ t :: rest,
      Appointment.before (w.deadline, w.id) (t.deadline, t.id) = true → ¬ m.Supersedes w t := by
    intro w hw hbefore
    have hirrefl : ∀ a : Appointment, ¬ a.before a = true := fun a => by
      simp [Appointment.before_iff]
    rcases List.mem_cons.1 hw with rfl | hw
    · exact absurd hbefore (hirrefl _)
    · exact absurd (Appointment.before_trans hbefore (hfirst w hw)) (hirrefl _)
  unfold turn
  rw [hdue, hnext, List.filter_filter, List.filter_cons,
    if_pos (by simpa only [decide_eq_true_eq] using hturn)]
  congr 1
  refine List.filter_congr fun u hu => ?_
  rw [← Bool.decide_and, decide_eq_decide]
  simp only [hsame, List.mem_filter, decide_eq_true_eq]
  constructor
  · exact fun hall => ⟨fun w ⟨hw, _⟩ => hall w (.tail _ hw), hall t (.head _) (hfirst u hu)⟩
  · rintro ⟨hothers, hnot⟩ w hw hbefore hs
    rcases List.mem_cons.1 hw with rfl | hw
    · exact hnot hs
    · -- the end of the warm-up is not itself disarmed
      refine hothers w ⟨hw, fun ⟨_, n, _, hp⟩ => ?_⟩ hbefore hs
      rw [hs.1] at hp
      cases hp

section
variable [Scalar α]

/-- A probe is armed again for the future. -/
theorem due_perform_probe {n : Name}
    (h : TimersConsistent { m with probeTimers := m.probeTimers.erase n }) (ha : m.active = true) :
    (m.perform (.probe n)).due = m.due := by
  let taken : MonitorState α := { m with probeTimers := m.probeTimers.erase n }
  obtain ⟨nextSeq, pending, sent, outbox, heq⟩ := taken.probeIfStable_eq n
  have hsent := h.probeIfStable n
  have hactive : (taken.probeIfStable n).active = true := by
    rw [heq]
    exact ha
  have hdue : (taken.probeIfStable n).due = m.due := by
    rw [heq]
    rfl
  refine (due_scheduleProbe hsent hactive n).trans ?_
  rw [hdue]
  refine List.filter_eq_self.2 fun t ht => ?_
  have hne : t.payload ≠ .probe n := fun hp => by
    have := h.armed.noted_of_mem (TimerQueue.mem_due.1 ht).1 hp
    simp at this
  simpa using hne

/-- After the warm-up the timers of the stable neighbors are no longer due, and only a report
without an interval is due anew. -/
theorem due_perform_warmUp (h : TimersConsistent m) (ha : m.active = true) :
    if m.settings.reportInterval = 0 then ∃ u ∈ (m.perform .warmUp).due, u.payload = .report
    else (m.perform .warmUp).due =
      m.due.filter fun u => ∀ n ∈ m.stableNeighbors, u.payload ≠ .probe n := by
  have hprobes := h.foldl_scheduleProbe m.stableNeighbors
  have hsettings := (timersDiffer_foldl_scheduleProbe m m.stableNeighbors).settings
  split
  · next hi => exact exists_report_due hprobes (by rw [hsettings]; exact hi)
  · next hi =>
    exact (due_scheduleReport hprobes (by rw [hsettings]; exact hi)).trans
      (due_foldl_scheduleProbe h ha _)

/-- After a report, another one is due if the interval is zero, and else nothing new is. -/
theorem due_perform_report (h : TimersConsistent m) :
    if m.settings.reportInterval = 0 then ∃ u ∈ (m.perform .report).due, u.payload = .report
    else (m.perform .report).due = m.due := by
  obtain ⟨outbox, heq⟩ := m.report_eq
  have hsettings : m.report.settings = m.settings := by rw [heq]
  have hdue : m.report.due = m.due := by
    rw [heq]
    rfl
  split
  · next hi => exact exists_report_due h.report (by rw [hsettings]; exact hi)
  · next hi => exact (due_scheduleReport h.report (by rw [hsettings]; exact hi)).trans hdue

/-- Nothing is due, or the first timer that is due can be handled. Then those are due that it has
not disarmed, unless a report is due anew because the report interval is zero. -/
theorem handleNext?_cases (h : TimersConsistent m) :
    (m.due = [] ∧ m.handleNext? = none) ∨ ∃ t rest timers next, m.due = t :: rest ∧
      m.timers.popDue? m.clock.now = some (t.id, t.payload, timers) ∧
      next = perform { m with timers } t.payload ∧ m.handleNext? = some next ∧
      TimersConsistent next ∧
      if m.settings.reportInterval = 0 ∧ t.payload.isProbe = false then
        ∃ u ∈ next.due, u.payload = .report
      else next.due = rest.filter (¬ m.Supersedes t ·) := by
  cases hpop : m.timers.popDue? m.clock.now with
  | none =>
    refine .inl ⟨h.armed.wellFormed.popDue?_eq_none_iff.1 hpop, ?_⟩
    unfold handleNext?
    rw [hpop]
    rfl
  | some p =>
    obtain ⟨id, task, timers⟩ := p
    have ha := h.active_of_popDue? hpop
    have harmed := h.armed.popDue? hpop
    obtain ⟨deadline, -, hdue, -⟩ := h.armed.wellFormed.of_popDue? hpop
    have hnext : m.handleNext? = some (perform { m with timers } task) :=
      handleNext?_eq_some_iff.2 ⟨id, task, timers, hpop, rfl⟩
    refine .inr ⟨⟨deadline, id, task⟩, timers.due m.clock.now, timers, _, hdue, rfl, rfl, hnext,
      h.handleNext? hnext, ?_⟩
    cases task with
    | warmUp =>
      have hrest : TimersConsistent { m with timers } := ⟨harmed, fun hi => by simp [ha] at hi⟩
      have hperform := due_perform_warmUp hrest ha
      by_cases hi : m.settings.reportInterval = 0
      · rw [if_pos hi] at hperform
        rwa [if_pos ⟨hi, rfl⟩]
      · rw [if_neg hi] at hperform
        rw [if_neg fun hne => hi hne.1, hperform]
        refine List.filter_congr fun u _ => decide_eq_decide.2 ⟨?_, ?_⟩
        · rintro hkept ⟨-, n, hn, hp⟩
          exact hkept n hn hp
        · intro hnot n hn hp
          exact hnot ⟨rfl, n, hn, hp⟩
    | probe n =>
      have hrest : TimersConsistent { m with timers, probeTimers := m.probeTimers.erase n } :=
        ⟨harmed, fun hi => by simp [ha] at hi⟩
      rw [if_neg fun hne => Bool.noConfusion hne.2, filter_not_supersedes (by simp)]
      exact due_perform_probe (m := { m with timers }) hrest ha
    | report =>
      have hrest : TimersConsistent { m with timers } := ⟨harmed, fun hi => by simp [ha] at hi⟩
      have hperform := due_perform_report hrest
      by_cases hi : m.settings.reportInterval = 0
      · rw [if_pos hi] at hperform
        rwa [if_pos ⟨hi, rfl⟩]
      · rw [if_neg hi] at hperform
        rw [if_neg fun hne => hi hne.1, hperform, filter_not_supersedes (by simp)]
        rfl

/-! ## Draining -/

/-- The second state is what handling every timer that is due makes of the first, and these are the
timers that have been handled, in order. -/
inductive Drains : MonitorState α → List (LiveTimer Task) → MonitorState α → Prop where
  | done {m : MonitorState α} : m.handleNext? = none → Drains m [] m
  /-- The first timer that is due is taken out, its task performed, and then come the others. -/
  | step {m last : MonitorState α} {t : LiveTimer Task} {timers : TimerQueue Task}
      {handled : List (LiveTimer Task)} :
      m.timers.popDue? m.clock.now = some (t.id, t.payload, timers) →
      Drains (perform { m with timers } t.payload) handled last → Drains m (t :: handled) last

/-- A report is to be armed that is due at once. -/
def HasInstantReport (m : MonitorState α) : Prop :=
  m.settings.reportInterval = 0 ∧ ∃ t ∈ m.due, t.payload.isProbe = false

omit [Scalar α] in
/-- There is no report at once if the interval is not zero, or if nothing but probes is due. -/
theorem not_hasInstantReport_iff : ¬ HasInstantReport m ↔
    m.settings.reportInterval ≠ 0 ∨ ∀ t ∈ m.due, t.payload.isProbe = true := by
  simp [HasInstantReport, Classical.or_iff_not_imp_left]

/-- When no timer can be handled, none is due. -/
theorem due_eq_nil_of_handleNext? (hm : TimersConsistent m) (hnone : m.handleNext? = none) :
    m.due = [] := by
  rcases handleNext?_cases hm with ⟨hdue, -⟩ | ⟨_, _, _, _, -, -, -, hnext, -⟩
  · exact hdue
  · rw [hnone] at hnext
    cases hnext

/-- Draining step by step ends in a drained state. -/
theorem Drains.drained {handled : List (LiveTimer Task)} (h : Drains m handled last) :
    Drained m last := by
  induction h with
  | done hnone => exact .done hnone
  | step hpop _ ih => exact .step (handleNext?_eq_some_iff.2 ⟨_, _, _, hpop, rfl⟩) ih

/-- What draining leads to, `poll` leads to, since it handles no more timers than there are. -/
theorem Drains.handleDue_eq {handled : List (LiveTimer Task)} (h : Drains m handled last)
    {bound : Nat} (hb : handled.length ≤ bound) : m.handleDue bound = last := by
  induction h generalizing bound with
  | done hnone =>
    cases bound with
    | zero => rfl
    | succ bound => rw [handleDue, hnone]
  | step hpop _ ih =>
    cases bound with
    | zero => simp at hb
    | succ bound =>
      rw [handleDue, handleNext?_eq_some_iff.2 ⟨_, _, _, hpop, rfl⟩]
      exact ih (Nat.le_of_succ_le_succ hb)

/-- There is at most one drained state. -/
theorem Drained.unique (h : Drained m last) {last' : MonitorState α} (h' : Drained m last') :
    last = last' := by
  induction h with
  | done hnone =>
    cases h' with
    | done => rfl
    | step hnext _ => rw [hnone] at hnext; cases hnext
  | step hnext _ ih =>
    cases h' with
    | done hnone => rw [hnone] at hnext; cases hnext
    | step hnext' hrest =>
      rw [hnext] at hnext'
      cases hnext'
      exact ih hrest

/-- When everything that is due has been handled, nothing is due. -/
theorem Drained.due_eq_nil (h : Drained m last) (hm : TimersConsistent m) :
    TimersConsistent last ∧ last.due = [] := by
  induction h with
  | done hnone => exact ⟨hm, due_eq_nil_of_handleNext? hm hnone⟩
  | step hnext _ ih => exact ih (hm.handleNext? hnext)

/-- Draining changes timers, what has been sent and the statistics at most. -/
theorem Drained.probingDiffers (h : Drained m last) : ProbingDiffers m last := by
  induction h with
  | done => exact .refl _
  | step hnext _ ih => exact (probingDiffers_handleNext? hnext).trans ih

/-- A report that is due at once is handled over and over. -/
theorem HasInstantReport.not_drained (h : HasInstantReport m) (hm : TimersConsistent m) :
    ¬ Drained m last := by
  intro hd
  -- Along the steps of draining, one of the timers that are due keeps a report coming.
  induction hd with
  | @done m hnone =>
    obtain ⟨-, t, ht, -⟩ := h
    rw [due_eq_nil_of_handleNext? hm hnone] at ht
    cases ht
  | @step m next last hnext _ ih =>
    obtain ⟨hi, u, hu, hne⟩ := h
    have hsettings := (probingDiffers_handleNext? hnext).settings
    rcases handleNext?_cases hm with
      ⟨-, hnone⟩ | ⟨t, rest, _, next', hdue, -, -, hnext', hm', hcases⟩
    · rw [hnone] at hnext
      cases hnext
    · rw [hnext] at hnext'
      cases hnext'
      refine ih ⟨hsettings.symm ▸ hi, ?_⟩ hm'
      by_cases ht : t.payload.isProbe = false
      · rw [if_pos ⟨hi, ht⟩] at hcases
        obtain ⟨r, hr, hpayload⟩ := hcases
        exact ⟨r, hr, hpayload ▸ rfl⟩
      · -- a probe is handled first, and the other timer remains due
        rw [if_neg fun hboth => ht hboth.2] at hcases
        refine ⟨u, ?_, hne⟩
        rw [hcases, filter_not_supersedes fun hw => ht (hw ▸ rfl)]
        rw [hdue] at hu
        rcases List.mem_cons.1 hu with rfl | hu
        · exact absurd hne ht
        · exact hu

/-- Unless a report is due at once, draining ends, and each timer that has its turn is handled. The
number of timers that are due decreases with each that is handled. -/
theorem exists_drains (hm : TimersConsistent m) (h : ¬ HasInstantReport m) :
    ∃ last, Drains m m.turn last := by
  -- Every timer that is handled takes itself out, and nothing becomes due in its place.
  induction hn : m.due.length using Nat.strongRecOn generalizing m with
  | ind k ih =>
    rcases handleNext?_cases hm with
      ⟨hdue, hnone⟩ | ⟨t, rest, timers, next, hdue, hpop, hperform, hnext, hm', hcases⟩
    · refine ⟨m, ?_⟩
      rw [turn, hdue]
      exact .done hnone
    · have hdiffer := probingDiffers_handleNext? hnext
      have hinterval : ¬ (m.settings.reportInterval = 0 ∧ t.payload.isProbe = false) := fun hboth =>
        h ⟨hboth.1, t, by simp [hdue], hboth.2⟩
      rw [if_neg hinterval] at hcases
      have hsub : next.due.Sublist rest := by
        rw [hcases]
        exact List.filter_sublist
      have h' : ¬ HasInstantReport next := by
        rintro ⟨hi, u, hu, hne⟩
        refine h ⟨hdiffer.settings ▸ hi, u, ?_, hne⟩
        rw [hdue]
        exact List.mem_cons_of_mem _ (hsub.subset hu)
      have hlt : next.due.length < k := by
        have := hsub.length_le
        simp [hdue] at hn
        omega
      have hstable : next.stableNeighbors = m.stableNeighbors := by
        unfold stableNeighbors
        rw [hdiffer.links]
      obtain ⟨last, hdrains⟩ := ih _ hlt hm' h' rfl
      refine ⟨last, ?_⟩
      rw [turn_cons hm hdue hcases hstable]
      subst hperform
      exact .step hpop hdrains

/-! ## Draining on a host -/

variable {host : Host} {outcome : Option (MonitorState α)}

/-- On a host that can hold every sum, draining does what it does elsewhere. -/
theorem DrainedOn.drained (h : DrainedOn host m (some last)) (hm : TimersConsistent m) :
    Drained m last := by
  generalize houtcome : some last = outcome at h
  induction h with
  | done hnone =>
    cases houtcome
    exact .done hnone
  | @step m next id task timers outcome hpop hperform _ ih =>
    have ha := hm.active_of_popDue? hpop
    rw [perform?_eq (m := { m with timers }) ha] at hperform
    split at hperform
    · have hnext : m.handleNext? = some next :=
        handleNext?_eq_some_iff.2 ⟨id, task, timers, hpop, (Option.some.inj hperform).symm⟩
      exact .step hnext (ih (hm.handleNext? hnext) houtcome)
    · cases hperform
  | fault => cases houtcome

/-- What comes after the first timer that is due. -/
theorem drainedOn_iff_of_popDue? {id : TimerId} {task : Task} {timers : TimerQueue Task}
    (hpop : m.timers.popDue? m.clock.now = some (id, task, timers)) : DrainedOn host m outcome ↔
      match perform? host { m with timers } task with
      | none => outcome = none
      | some next => DrainedOn host next outcome := by
  constructor
  · rintro (hnone | ⟨hpop', hperform, hrest⟩ | ⟨hpop', hperform⟩)
    · simp [handleNext?, hpop] at hnone
    · rw [hpop] at hpop'
      cases hpop'
      rw [hperform]
      exact hrest
    · rw [hpop] at hpop'
      cases hpop'
      rw [hperform]
  · split
    · next hperform =>
      rintro rfl
      exact .fault hpop hperform
    · next hperform => exact .step hpop hperform

/-- What draining comes to on a host: the state that it leads to elsewhere if the host can hold the
sums of the timers that are handled, and otherwise the end of the program. -/
theorem Drains.drainedOn_iff {handled : List (LiveTimer Task)} (h : Drains m handled last)
    (hm : TimersConsistent m) : DrainedOn host m outcome ↔
      outcome = if Fits host m (handled.map (·.payload)) then some last else none := by
  induction h with
  | @done m hnone =>
    have hfits : Fits host m [] := ⟨fun i hi => by simp [armings] at hi, by simp, by simp⟩
    rw [List.map_nil, if_pos hfits]
    constructor
    · rintro (_ | ⟨hpop, -, -⟩ | ⟨hpop, -⟩)
      · rfl
      all_goals simp [handleNext?, hpop] at hnone
    · rintro rfl
      exact .done hnone
  | @step m last t timers handled hpop _ ih =>
    have ha := hm.active_of_popDue? hpop
    have hnext := hm.handleNext? (handleNext?_eq_some_iff.2 ⟨_, _, _, hpop, rfl⟩)
    have hcons := fits_cons (m := { m with timers }) host ha t.payload (handled.map (·.payload))
    have hqueue : Fits host { m with timers } ((t :: handled).map (·.payload)) ↔
        Fits host m ((t :: handled).map (·.payload)) :=
      (sameSums_timers m timers).fits_iff
    rw [drainedOn_iff_of_popDue? hpop, perform?_eq (m := { m with timers }) ha]
    by_cases hfirst : Fits host { m with timers } [t.payload]
    · have hrest := hqueue.symm.trans (hcons.trans (and_iff_right hfirst))
      rw [if_pos hfirst]
      refine (ih hnext).trans ?_
      simp only [hrest]
    · rw [if_neg hfirst, if_neg fun hall => hfirst (hcons.1 (hqueue.2 hall)).1]

end

end MonitorState

/-- A monitor that has been started, at the end of its warm-up. -/
def Monitor.warm (settings : LinkSettings Float) : Monitor Float Unit :=
  (Monitor.idle .quiet settings ()).run [.start, .advance settings.warmUp]

namespace Monitor

variable (settings : LinkSettings Float)

/-- The state is one that a run leads to. -/
theorem reachable_warm : (Monitor.warm settings).Reachable :=
  (Reachable.idle .quiet settings ()).run _

/-- Nothing is due but the end of the warm-up. -/
theorem due_warm : (Monitor.warm settings).due = [⟨settings.warmUp, 0, .warmUp⟩] := by
  have hnow : (Monitor.warm settings).clock.now = settings.warmUp := Nat.zero_add _
  have harmed : (Monitor.warm settings).timers =
      (TimerQueue.empty.schedule (0 + settings.warmUp) .warmUp).2 := rfl
  have htimers : (Monitor.warm settings).timers.timers = [⟨settings.warmUp, 0, .warmUp⟩] := by
    rw [harmed, TimerQueue.wellFormed_empty.timers_schedule, Nat.zero_add]
    rfl
  unfold MonitorState.due TimerQueue.due
  rw [htimers, hnow]
  simp

/-- The end of the warm-up is all there is to handle. -/
theorem turn_warm : (Monitor.warm settings).turn = [⟨settings.warmUp, 0, .warmUp⟩] := by
  unfold MonitorState.turn
  rw [due_warm]
  simp [Appointment.before_iff]

/-- As no neighbor is known, the only sum is the deadline of the first report. -/
theorem fits_warm {host : Host} :
    MonitorState.Fits host (Monitor.warm settings).toMonitorState
      ((Monitor.warm settings).turn.map (·.payload)) ↔
    host.latest.Reaches settings.warmUp settings.reportInterval := by
  have hnow : (Monitor.warm settings).clock.now = settings.warmUp := Nat.zero_add _
  have hsettings : (Monitor.warm settings).settings = settings := rfl
  have hstable : (Monitor.warm settings).stableNeighbors = [] := rfl
  rw [turn_warm, List.map_singleton, MonitorState.fits_singleton, hnow, hsettings,
    MonitorState.armedBy, hstable]
  simp [Task.isProbe]

end Monitor

/-- A host that logs reports and whose clock counts seconds in 63 bits. -/
def Host.signed : Host := ⟨Duration.ofSeconds 9223372036854775808 - 1, true⟩

end AdaptiveRouting
