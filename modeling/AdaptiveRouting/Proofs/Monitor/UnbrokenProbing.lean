import AdaptiveRouting.Proofs.Monitor.ProbeCoverage
import AdaptiveRouting.Proofs.Monitor.ProbeMatching

/-!
# Probing without a restart

A hello arms its neighbor only if there are no round-trip times of it, on the assumption that a
neighbor which has been measured has a timer. As long as probes are sent by timers and the monitor
is not stopped, the assumption is right (`MonitorState.MeasuredArmed`): a timer that sends a probe
is armed again, and only the answer to a probe is a measurement. So in such a run every stable
neighbor is probed (`attended_of_unbroken`). Stopping the monitor breaks the assumption, because it
disarms the neighbors and keeps their round-trip times.
-/

namespace AdaptiveRouting

variable {α σ : Type}

namespace MonitorState

variable {m m' : MonitorState α}

/-- Every neighbor that has been measured, or that a probe is under way to, is armed. -/
structure MeasuredArmed (m : MonitorState α) : Prop where
  measured {n : Name} : m.historyOf n ≠ [] → n ∈ m.probeTimers
  probed {seq : UInt32} {p : PendingProbe} : m.pending[seq]? = some p → p.neighbor ∈ m.probeTimers

/-- It remains so when whoever is measured, or has a probe sent to it, was or is armed. -/
theorem MeasuredArmed.of_kept (h : MeasuredArmed m)
    (harmed : ∀ {n : Name}, n ∈ m.probeTimers → n ∈ m'.probeTimers)
    (hmeasured : ∀ {n : Name}, m'.historyOf n ≠ [] → m.historyOf n ≠ [] ∨ n ∈ m.probeTimers)
    (hprobed : ∀ {seq : UInt32} {p : PendingProbe}, m'.pending[seq]? = some p →
      m.pending[seq]? = some p ∨ p.neighbor ∈ m'.probeTimers) : MeasuredArmed m' where
  measured hn := harmed ((hmeasured hn).elim h.measured id)
  probed hp := (hprobed hp).elim (fun hp => harmed (h.probed hp)) id

/-- A probe that is pending was so before, or it is the one that is sent. -/
theorem pending_sendProbe (m : MonitorState α) (n : Name) {seq : UInt32} {p : PendingProbe}
    (hp : (m.sendProbe n).2.pending[seq]? = some p) :
    m.pending[seq]? = some p ∨ p.neighbor = n := by
  rcases m.sendProbe_cases n with heq | heq
  · rw [heq, Std.ExtTreeMap.getElem?_insert] at hp
    split at hp
    · cases hp
      exact .inr rfl
    · exact .inl hp
  · rw [heq] at hp
    refine .inl ?_
    rcases getElem?_erase_or m.pending m.nextSeq seq with hsame | hnone
    · exact hsame.symm.trans hp
    · cases hnone.symm.trans hp

section
variable [Scalar α]

/-- A timer that fires disarms nobody. -/
theorem mem_perform (h : TimersConsistent m) {id : TimerId} {task : Task}
    {timers : TimerQueue Task} (hpop : m.timers.popDue? m.clock.now = some (id, task, timers))
    {n : Name} (hn : n ∈ m.probeTimers) : n ∈ ({ m with timers }.perform task).probeTimers := by
  by_cases htask : task = .warmUp
  · subst htask
    have ha := h.active_of_popDue? hpop
    have hpopped : TimersConsistent { m with timers } :=
      ⟨h.armed.popDue? hpop, fun hi => by simp [ha] at hi⟩
    exact (timersKept_foldl_scheduleProbe hpopped _).armed hn
  · exact (timersKept_perform h hpop htask).armed hn

/-- A task that has a probe sent arms its neighbor. -/
theorem pending_perform (ha : m.active = true) (task : Task) {seq : UInt32} {p : PendingProbe}
    (hp : (m.perform task).pending[seq]? = some p) :
    m.pending[seq]? = some p ∨ p.neighbor ∈ (m.perform task).probeTimers := by
  cases task with
  | warmUp =>
    have hpending := (timersDiffer_foldl_scheduleProbe m m.stableNeighbors).pending
    exact .inl (hpending ▸ hp)
  | report =>
    obtain ⟨_, heq⟩ := m.report_eq
    have hpending : m.report.pending = m.pending := by rw [heq]
    exact .inl (hpending ▸ hp)
  | probe n =>
    set taken : MonitorState α := { m with probeTimers := m.probeTimers.erase n }
    have hsent : (taken.probeIfStable n).pending[seq]? = some p :=
      (timersDiffer_scheduleProbe (taken.probeIfStable n) n).pending ▸ hp
    -- The probe is the one that has just been sent, whose neighbor is armed right after, or it was
    -- pending before.
    by_cases hsends : (taken.active && taken.isStable n) = true
    · rw [probeIfStable, if_pos hsends] at hsent
      refine (taken.pending_sendProbe n hsent).imp_right fun hn => ?_
      obtain ⟨_, _, _, _, heq⟩ := taken.probeIfStable_eq n
      rw [hn]
      exact mem_scheduleProbe ((congrArg (·.active) heq).trans ha) n
    · rw [probeIfStable, if_neg hsends] at hsent
      exact .inl hsent

/-- Handling a timer keeps everyone armed who has been measured or is being so. -/
theorem MeasuredArmed.handleNext? (hm : MeasuredArmed m) (h : TimersConsistent m)
    {next : MonitorState α} (hnext : m.handleNext? = some next) : MeasuredArmed next := by
  have hlinks := (probingDiffers_handleNext? hnext).links
  obtain ⟨id, task, timers, hpop, rfl⟩ := handleNext?_eq_some_iff.1 hnext
  refine hm.of_kept (mem_perform h hpop) (fun {n} hn => .inl ?_)
    (pending_perform (m := { m with timers }) (h.active_of_popDue? hpop) task)
  rwa [← historyOf_congr (n := n) (by rw [hlinks])]

/-- Handling timers keeps them armed. -/
theorem MeasuredArmed.handleDue (hm : MeasuredArmed m) (h : TimersConsistent m) (bound : Nat) :
    MeasuredArmed (m.handleDue bound) := by
  induction bound generalizing m with
  | zero => exact hm
  | succ bound ih =>
    unfold MonitorState.handleDue
    split
    · exact hm
    · next hnext => exact ih (hm.handleNext? h hnext) (h.handleNext? hnext)

end

end MonitorState

/-- The monitor is not stopped, nobody but its timers sends probes, and hellos are not said to be
missing no longer. -/
structure Operation.Unbroken (op : Operation α σ) : Prop where
  adopt : op ≠ .adoptNeighbors
  stop : op ≠ .stop
  send (n : Name) : op ≠ .sendProbe n
  news (n : Name) : op ≠ .news (.helloTimeout n 0)

namespace Monitor

variable [Scalar α] {m : Monitor α σ} {op : Operation α σ}

/-- Whoever gets measured by an outcome was armed when the probe was sent. -/
theorem measuredArmed_outcome (hm : m.MeasuredArmed) (o : ProbeOutcome) :
    (m.handleOutcome o).MeasuredArmed := by
  have hsub : ∀ {seq : UInt32} {p : PendingProbe}, (m.pending.erase o.seq)[seq]? = some p →
      m.pending[seq]? = some p := fun {seq p} hp => by
    rcases MonitorState.getElem?_erase_or m.pending o.seq seq with hsame | hnone
    · exact hsame.symm.trans hp
    · cases hnone.symm.trans hp
  rcases m.handleOutcome_cases o with ⟨-, heq⟩ | ⟨probe, hprobe, heq | ⟨rtt, -, -, -, hcosts⟩⟩
  · rwa [heq]
  · rw [heq]
    exact hm.of_kept id .inl fun hp => .inl (hsub hp)
  · have hpending : (m.handleOutcome o).pending = m.pending.erase o.seq := hcosts.pending
    refine hm.of_kept hcosts.timersKept.armed (fun {n} hn => ?_) fun hp =>
      .inl (hsub (hpending ▸ hp))
    rw [MonitorState.historyOf_of_sameStanding hcosts.sameStanding n] at hn
    rcases m.history_recordRtt probe.neighbor rtt n with hsame | ⟨rfl, -⟩
    · exact .inl (MonitorState.historyOf_congr hsame ▸ hn)
    · exact .inr (hm.probed hprobe)

/-- As long as nothing is broken off, whoever is measured is armed. -/
theorem measuredArmed_apply (hm : m.MeasuredArmed) (h : m.TimersConsistent) (hop : op.Unbroken) :
    (m.apply op).MeasuredArmed := by
  by_cases houtcome : ∃ o, op = .outcome o
  · obtain ⟨o, rfl⟩ := houtcome
    exact measuredArmed_outcome hm o
  -- Without an outcome no history grows, so it is enough to look at the timers and the pending
  -- probes.
  have hmeasured : ∀ {n : Name}, (m.apply op).historyOf n ≠ [] →
      m.historyOf n ≠ [] ∨ n ∈ m.probeTimers := fun {n} hn => by
    rcases historyOf_apply (fun o ho => houtcome ⟨o, ho⟩) n with hsame | hnone
    · exact .inl (hsame ▸ hn)
    · exact absurd hnone hn
  cases op with
  | adoptNeighbors => exact absurd rfl hop.adopt
  | stop => exact absurd rfl hop.stop
  | sendProbe n => exact absurd rfl (hop.send n)
  | outcome o => exact absurd ⟨o, rfl⟩ houtcome
  | poll => exact hm.handleDue h _
  | start =>
    show m.start.MeasuredArmed
    unfold MonitorState.start
    split
    · exact hm
    · exact hm.of_kept id .inl .inl
  | scheduleProbe n =>
    have hpending := (m.timersDiffer_scheduleProbe n).pending
    exact hm.of_kept (MonitorState.timersKept_scheduleProbe h n).armed hmeasured fun hp =>
      .inl (hpending ▸ hp)
  | news e =>
    refine hm.of_kept (MonitorState.timersKept_handleNews h e).armed hmeasured fun {seq p} hp => ?_
    rcases (m.informed_handleNews e).pending seq with hsame | ⟨hnone, -⟩
    · exact .inl (hsame ▸ hp)
    · cases hnone.symm.trans hp
  | updateCost n cost =>
    have hcosts := (m.costsDiffer_updateCost n cost).2
    exact hm.of_kept hcosts.timersKept.armed hmeasured fun hp => .inl (hcosts.pending ▸ hp)
  | report =>
    obtain ⟨_, heq⟩ := m.report_eq
    have hpending : m.report.pending = m.pending := by rw [heq]
    exact hm.of_kept (MonitorState.timersKept_report _).armed hmeasured fun hp =>
      .inl (hpending ▸ hp)
  | setHooks hooks memory | advance elapsed | surround change => exact hm.of_kept id .inl .inl

omit [Scalar α] in
/-- Nobody is overlooked as long as whoever is measured is armed. -/
theorem not_overlooks (hm : m.MeasuredArmed) (h : m.TimersConsistent) (hop : op.Unbroken)
    (n : Name) : ¬ m.Overlooks op n := by
  rintro ⟨e, rfl, hn⟩
  obtain ⟨link, hlink, ⟨rfl, hhistory⟩ | ⟨rfl, -⟩⟩ := hn.unasked
  · have hmeasured : m.historyOf n ≠ [] := by
      unfold MonitorState.historyOf
      rwa [hlink]
    obtain ⟨t, ht, htn⟩ := h.exists_timer_iff.2 (hm.measured hmeasured)
    exact hn.unarmed t ht htn
  · exact hop.news n rfl

/-- Along an unbroken run every stable neighbor is noted with a timer. -/
theorem stableArmed_run (hstable : m.StableArmed) (hm : m.MeasuredArmed) (h : m.TimersConsistent)
    (hfiled : Filed m.links) {ops : List (Operation α σ)} (hops : ∀ op ∈ ops, op.Unbroken) :
    (m.run ops).StableArmed := by
  refine (run_keeps (P := fun m => (m.StableArmed ∧ m.MeasuredArmed) ∧ m.TimersConsistent ∧
    Filed m.links) ⟨⟨hstable, hm⟩, h, hfiled⟩ fun s hs ⟨⟨hstable, hm⟩, h, hfiled⟩ => ?_).1.1
  have hop := hops _ (mem_of_mem_steps hs)
  have harmed := (stableArmed_apply_iff hstable h hfiled hop.adopt).2 (not_overlooks hm h hop)
  exact ⟨⟨harmed, measuredArmed_apply hm h hop⟩, timersConsistent_apply h s.2,
    filed_apply hfiled s.2⟩

end Monitor

/-- **Without a restart no stable neighbor is overlooked.** In a run that adopts its neighbors once,
at the beginning, in which the monitor is not stopped, nobody but its timers sends probes, and
hellos are not said to be missing no longer, every stable neighbor has exactly one live timer for
its probes after the warm-up. -/
theorem attended_of_unbroken [Scalar α] (surroundings : Surroundings α) (settings : LinkSettings α)
    (memory : σ) {ops : List (Operation α σ)} (hops : ∀ op ∈ ops, op.Unbroken) :
    (((Monitor.idle surroundings settings memory).apply .adoptNeighbors).run ops).Attended := by
  set m : Monitor α σ := (Monitor.idle surroundings settings memory).apply .adoptNeighbors
  have hreachable : m.Reachable := Monitor.reachable_adopted surroundings settings memory
  have hmeasured : m.MeasuredArmed := by
    refine ⟨fun {n} hn => absurd ?_ hn, fun hp => ?_⟩
    · refine (MonitorState.history_adoptNeighbors _ n).elim (fun hsame => ?_) id
      exact MonitorState.historyOf_congr (congrArg _ hsame)
    · simp [m, Monitor.apply, Monitor.act, Monitor.idle, MonitorState.idle,
        MonitorState.adoptNeighbors] at hp
  exact (hreachable.run ops).timersConsistent.attended_iff.2
    (Monitor.stableArmed_run (MonitorState.stableArmed_of_inactive rfl) hmeasured
      hreachable.timersConsistent (Monitor.filed_adopted surroundings settings memory) hops)

end AdaptiveRouting
