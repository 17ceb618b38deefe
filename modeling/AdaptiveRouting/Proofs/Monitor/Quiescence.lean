import AdaptiveRouting.Proofs.Monitor.CostAgreement
import AdaptiveRouting.Proofs.Monitor.Reactivation
import AdaptiveRouting.Proofs.Monitor.Timers

/-!
# What is left when the monitor has been stopped

An inactive monitor has no live timer and waits for no answer, unless somebody sends a probe by hand;
this is an invariant of runs that go on without that (`Operation.IsRoutine`), and then a poll or a
late answer does nothing (`poll_of_inactive`, `handleOutcome_of_empty`). When an active monitor is
stopped, the configured costs are in force again, and they stay in force until it is started
(`AtRest`): all that is left that can change a cost is the report that a neighbor is active again,
which restores the configured one. The same is true of the costs in the neighbor table if it takes
costs when the monitor is stopped (`AdvertisesConfigured`).
-/

namespace AdaptiveRouting

variable {α σ : Type}

/-- What happens to a monitor once its neighbors have been taken over. Left out is what can be asked
of it in any state: to take over neighbors again, to send a probe, to apply a cost. -/
def Operation.IsRoutine : Operation α σ → Prop
  | .adoptNeighbors | .sendProbe _ | .updateCost _ _ => False
  | _ => True

/-- Neighbors are not taken over in the course of routine. -/
theorem Operation.IsRoutine.ne_adoptNeighbors {op : Operation α σ} (h : op.IsRoutine) :
    op ≠ .adoptNeighbors := by
  rintro rfl
  exact h

namespace MonitorState

variable {m : MonitorState α} {n : Name}

/-- The configured cost of the link to a neighbor. -/
def configuredCost? (m : MonitorState α) (n : Name) : Option α :=
  m.links[n]?.map (·.configuredCost)

/-- The configured costs are in force. -/
def AtConfigured (m : MonitorState α) : Prop := ∀ n, m.currentCost? n = m.configuredCost? n

/-- The configured costs are in the table. -/
def AdvertisesConfigured [Scalar α] (m : MonitorState α) : Prop :=
  ∀ n cost, m.configuredCost? n = some cost →
    ∃ advertised, m.neighbors.linkCost? n = some advertised ∧ SameCost advertised cost

/-- Every link is that of a neighbor in the table. -/
def Listed (m : MonitorState α) : Prop :=
  ∀ n cost, m.configuredCost? n = some cost → ∃ advertised, m.neighbors.linkCost? n = some advertised

/-- An inactive monitor whose timers are consistent has nothing armed. -/
theorem TimersConsistent.isEmpty (h : TimersConsistent m) (ha : m.active = false) :
    m.timers.isEmpty = true := by
  have hsize : m.timers.live.size = 0 := by
    rw [← TimerQueue.size, h.armed.wellFormed.size_eq, h.idle ha, List.length_nil]
  rw [TimerQueue.isEmpty, Std.ExtTreeMap.isEmpty_iff]
  exact Std.ExtTreeMap.eq_empty_iff_size_eq_zero.2 hsize

/-- A monitor that is not active has no timer to handle. -/
theorem poll_of_inactive [Scalar α] (h : TimersConsistent m) (ha : m.active = false) :
    m.poll = m := by
  rw [poll, h.armed.wellFormed.size_eq, h.idle ha]
  rfl

/-- Stopping a monitor that is not active does nothing. -/
theorem stop_of_inactive [Scalar α] (ha : m.active = false) : m.stop = m := by
  unfold stop
  rw [ha, if_neg Bool.false_ne_true]

/-- The monitor is not active, nothing is under way, and the configured costs are in force. -/
structure AtRest (m : MonitorState α) : Prop where
  /-- The monitor has been stopped. -/
  inactive : m.active = false
  /-- The timers are consistent, and so there are none. -/
  timers : TimersConsistent m
  /-- No answer is waited for. -/
  pending : m.pending = ∅
  /-- The configured costs are in force. -/
  restored : m.AtConfigured

/-- An active monitor that is stopped is at rest. -/
theorem atRest_stop [Scalar α] (h : TimersConsistent m) (ha : m.active = true) : m.stop.AtRest where
  inactive := by rw [stop, if_pos ha]
  timers := h.stop
  pending := by rw [stop, if_pos ha]
  restored n := by
    rw [currentCost?_stop ha, stop, if_pos ha, configuredCost?, Std.ExtTreeMap.getElem?_map,
      Option.map_map]
    rfl

end MonitorState

namespace Monitor

variable [Scalar α] {m : Monitor α σ} {op : Operation α σ} {n : Name}

/-- Starting and stopping alone decide whether a monitor is active. -/
theorem active_apply (m : Monitor α σ) (op : Operation α σ) :
    (m.apply op).active = match op with
      | .start => true
      | .stop => false
      | _ => m.active := by
  cases op with
  | start =>
    show m.start.active = true
    unfold MonitorState.start
    split
    · assumption
    · rfl
  | stop =>
    show m.stop.active = false
    unfold MonitorState.stop
    split
    · rfl
    · next ha => simpa using ha
  | poll => exact m.probingDiffers_poll.active
  | scheduleProbe k => exact (m.timersDiffer_scheduleProbe k).active
  | news e =>
    obtain ⟨_, _, _, _, _, _, heq⟩ := (m.informed_handleNews e).rest
    exact congrArg (·.active) heq
  | advance elapsed => rfl
  | _ => exact (m.sameTimers_apply (by exact trivial)).active

/-- The configured costs stay what they are until the neighbors are taken over again. -/
theorem configuredCost?_apply (hadopt : op ≠ .adoptNeighbors) (n : Name) :
    (m.apply op).configuredCost? n = m.configuredCost? n := by
  by_cases hnews : ∃ e, op = .news e
  · obtain ⟨e, rfl⟩ := hnews
    have hlink := (m.informed_handleNews e).link n
    rw [MonitorState.configuredCost?, show (m.apply (.news e)).links = (m.handleNews e).links from rfl,
      hlink]
    split
    · rw [Option.map_map]
      exact congrArg (fun f => Option.map f _)
        (funext fun l => l.informed_configuredCost m.settings m.clock.now e)
    · rfl
  · exact m.map_apply hadopt (fun e he => hnews ⟨e, he⟩) (·.configuredCost) (fun _ => rfl)
      (fun _ _ => rfl) n

/-- No outcome counts when no probe is pending. -/
theorem handleOutcome_of_empty (h : m.pending = ∅) (o : ProbeOutcome) : m.handleOutcome o = m := by
  rcases m.handleOutcome_cases o with ⟨-, heq⟩ | ⟨probe, hprobe, -⟩
  · exact heq
  · rw [h, Std.ExtTreeMap.getElem?_empty] at hprobe
    cases hprobe

/-- Nothing but its own timers makes the monitor wait for an answer. -/
theorem pending_apply_of_inactive (h : m.TimersConsistent) (ha : m.active = false)
    (hpending : m.pending = ∅) (hop : op.IsRoutine) : (m.apply op).pending = ∅ := by
  -- Of the operations that send probes only `poll` is routine, and it has no timers to handle.
  cases op with
  | sendProbe k => exact hop.elim
  | updateCost k cost => exact hop.elim
  | start =>
    show m.start.pending = ∅
    unfold MonitorState.start
    split
    · exact hpending
    · exact hpending
  | stop =>
    show m.stop.pending = ∅
    rwa [MonitorState.stop_of_inactive ha]
  | poll =>
    show m.poll.pending = ∅
    rwa [MonitorState.poll_of_inactive h ha]
  | scheduleProbe k => exact (m.timersDiffer_scheduleProbe k).pending.trans hpending
  | outcome o =>
    show (m.handleOutcome o).pending = ∅
    rwa [handleOutcome_of_empty hpending]
  | news e =>
    refine Std.ExtTreeMap.ext_getElem? fun seq => ?_
    rw [Std.ExtTreeMap.getElem?_empty]
    rcases (m.informed_handleNews e).pending seq with hsame | ⟨hnone, -⟩
    · rw [show (m.apply (.news e)).pending = (m.handleNews e).pending from rfl, hsame, hpending,
        Std.ExtTreeMap.getElem?_empty]
    · exact hnone
  | report =>
    obtain ⟨_, heq⟩ := m.report_eq
    show m.report.pending = ∅
    rwa [heq]
  | adoptNeighbors | setHooks hooks memory | advance elapsed | surround change => exact hpending

/-- Whenever the monitor is not active, no probe is pending. -/
theorem pending_apply (h : m.TimersConsistent) (hpending : m.active = false → m.pending = ∅)
    (hop : op.IsRoutine) (ha : (m.apply op).active = false) : (m.apply op).pending = ∅ := by
  by_cases hactive : m.active = true
  · -- only a stop ends the activity
    have hstop : op = .stop := by
      rw [m.active_apply op] at ha
      cases op with
      | stop => rfl
      | start => cases ha
      | _ => rw [hactive] at ha; cases ha
    subst hstop
    exact (MonitorState.atRest_stop h hactive).pending
  · have hinactive : m.active = false := by simpa using hactive
    exact pending_apply_of_inactive h hinactive (hpending hinactive) hop

/-- Along a routine run no probe is pending while the monitor is not active. -/
theorem pending_run {ops : List (Operation α σ)} (h : m.TimersConsistent)
    (hpending : m.active = false → m.pending = ∅) (hops : ∀ op ∈ ops, op.IsRoutine)
    (ha : (m.run ops).active = false) : (m.run ops).pending = ∅ := by
  have hrun := run_keeps (P := fun m => m.TimersConsistent ∧ (m.active = false → m.pending = ∅))
    ⟨h, hpending⟩ fun s hs hm => ⟨timersConsistent_apply hm.1 s.2,
      pending_apply hm.1 hm.2 (hops _ (mem_of_mem_steps hs))⟩
  exact hrun.2 ha

/-! ## After a stop -/

/-- What an operation can still do to the costs when the monitor is at rest: nothing, unless a
neighbor that had been given up is reported active. -/
theorem costs_apply_of_atRest (h : m.AtRest) (hop : op.IsRoutine)
    (hothers : ∀ change, op ≠ .surround change) :
    MonitorState.KeepsCosts m.toMonitorState (m.apply op).toMonitorState ∨
    ∃ n link, op = .news (.statusChanged n .active) ∧ m.links[n]? = some link ∧
      link.status = .inactive := by
  rcases m.costs_apply hop.ne_adoptNeighbors hothers with
    hkeep | ⟨⟨o, rfl⟩ | ⟨k, cost, rfl⟩, -⟩ | ⟨rfl, ha⟩ | hreactivated
  · exact .inl hkeep
  · refine .inl ?_
    show MonitorState.KeepsCosts _ (m.handleOutcome o).toMonitorState
    rw [handleOutcome_of_empty h.pending]
    exact .refl _
  · exact hop.elim
  · rw [h.inactive] at ha
    cases ha
  · exact .inr hreactivated

/-- At rest, no routine operation puts another cost in force than the configured one. -/
theorem atConfigured_apply (h : m.AtRest) (hop : op.IsRoutine) : (m.apply op).AtConfigured := by
  rcases op.surround_or_ne with ⟨change, rfl⟩ | hothers
  · exact h.restored
  intro n
  rw [configuredCost?_apply hop.ne_adoptNeighbors]
  rcases costs_apply_of_atRest h hop hothers with hkeep | ⟨k, link, rfl, hlink, hinactive⟩
  · exact (hkeep.1 n).trans (h.restored n)
  · refine ((MonitorState.copies_reactivated hlink hinactive).1 n).trans ?_
    split
    · next hk => rw [hk, MonitorState.configuredCost?, hlink, Option.map_some]
    · exact h.restored n

/-- A monitor at rest stays at rest until it is started. -/
theorem atRest_apply (h : m.AtRest) (hop : op.IsRoutine) (hstart : op ≠ .start) :
    (m.apply op).AtRest where
  inactive := by
    rw [m.active_apply op]
    split
    · exact absurd rfl hstart
    · rfl
    · exact h.inactive
  timers := timersConsistent_apply h.timers op
  pending := pending_apply_of_inactive h.timers h.inactive h.pending hop
  restored := atConfigured_apply h hop

/-- At rest, the table goes on advertising the configured costs. -/
theorem advertisesConfigured_apply (h : m.AtRest) (htable : m.AdvertisesConfigured)
    (hop : op.IsRoutine) (hkeeps : m.KeepsEntries op) : (m.apply op).AdvertisesConfigured := by
  intro n cost hcost
  rw [configuredCost?_apply hop.ne_adoptNeighbors] at hcost
  obtain ⟨advertised, hadvertised, hsame⟩ := htable n cost hcost
  rcases op.surround_or_ne with ⟨change, rfl⟩ | hothers
  · exact ⟨advertised, hkeeps.2 n advertised hadvertised, hsame⟩
  rcases costs_apply_of_atRest h hop hothers with hkeep | ⟨k, link, rfl, hlink, hinactive⟩
  · exact ⟨advertised, by rw [hkeep.2, hadvertised], hsame⟩
  · have hwritten := (MonitorState.copies_reactivated hlink hinactive).2
    by_cases hk : n = k
    · subst hk
      rw [MonitorState.configuredCost?, hlink, Option.map_some] at hcost
      cases hcost
      -- a locked table keeps the cost that it had, which was the configured one already
      refine ⟨_, hwritten.self.trans (by rw [hadvertised, Option.map_some]), ?_⟩
      split
      · exact hsame
      · exact .refl _
    · exact ⟨advertised, (hwritten.of_ne hk).trans hadvertised, hsame⟩

/-- A monitor at rest stays so until it is started. -/
theorem atRest_run {ops : List (Operation α σ)} (h : m.AtRest) (hops : ∀ op ∈ ops, op.IsRoutine)
    (hstart : .start ∉ ops) : (m.run ops).AtRest := by
  refine run_keeps (P := fun m => m.AtRest) h fun s hs hrest => ?_
  have hmem := mem_of_mem_steps hs
  exact atRest_apply hrest (hops _ hmem) fun heq => hstart (heq ▸ hmem)

/-- Until the monitor is started the table advertises the configured costs. -/
theorem advertisesConfigured_run {ops : List (Operation α σ)} (h : m.AtRest)
    (htable : m.AdvertisesConfigured) (hops : ∀ op ∈ ops, op.IsRoutine) (hstart : .start ∉ ops)
    (hkeeps : ∀ s ∈ m.steps ops, s.1.KeepsEntries s.2) : (m.run ops).AdvertisesConfigured := by
  refine (run_keeps (P := fun m => m.AtRest ∧ m.AdvertisesConfigured) ⟨h, htable⟩
    fun s hs hm => ?_).2
  have hmem := mem_of_mem_steps hs
  exact ⟨atRest_apply hm.1 (hops _ hmem) fun heq => hstart (heq ▸ hmem),
    advertisesConfigured_apply hm.1 hm.2 (hops _ hmem) (hkeeps s hs)⟩

/-! ## The table -/

/-- Every link is that of a neighbor in the table after a routine operation too. -/
theorem listed_apply (h : m.Listed) (hop : op.IsRoutine) (hkeeps : m.KeepsEntries op) :
    (m.apply op).Listed := by
  intro n cost hcost
  rw [configuredCost?_apply hop.ne_adoptNeighbors] at hcost
  obtain ⟨advertised, hadvertised⟩ := h n cost hcost
  rcases op.surround_or_ne with ⟨change, rfl⟩ | hothers
  · exact ⟨advertised, hkeeps.2 n advertised hadvertised⟩
  · have hsame := m.sameNeighbors_apply hothers n
    obtain ⟨a, ha, -⟩ := Option.map_eq_some_iff.1 hadvertised
    rw [ha, Option.map_some] at hsame
    obtain ⟨a', ha', -⟩ := Option.map_eq_some_iff.1 hsame
    exact ⟨a'.linkCost, by rw [AdjacencyTable.linkCost?, ha', Option.map_some]⟩

/-- Every link is that of a neighbor in the table along a routine run. -/
theorem listed_run {ops : List (Operation α σ)} (h : m.Listed) (hops : ∀ op ∈ ops, op.IsRoutine)
    (hkeeps : ∀ s ∈ m.steps ops, s.1.KeepsEntries s.2) : (m.run ops).Listed :=
  run_keeps (P := fun m => m.Listed) h fun s hs hlisted =>
    listed_apply hlisted (hops _ (mem_of_mem_steps hs)) (hkeeps s hs)

/-- Neighbors are taken over from the table. -/
theorem listed_adopted {surroundings : Surroundings α} (settings : LinkSettings α) (memory : σ)
    (hfiled : surroundings.neighbors.Filed) :
    ((idle surroundings settings memory).apply .adoptNeighbors).Listed := by
  intro n cost hcost
  obtain ⟨link, hlink, -⟩ := Option.map_eq_some_iff.1 hcost
  have hagree := MonitorState.costsAgree_adoptNeighbors
    (m := (MonitorState.idle surroundings settings)) hfiled (costsAgree_idle surroundings settings)
  obtain ⟨advertised, hadvertised, -⟩ := hagree n link.currentCost
    (by rw [MonitorState.currentCost?]; exact Option.map_eq_some_iff.2 ⟨link, hlink, rfl⟩)
  exact ⟨advertised, hadvertised⟩

/-- A table that takes costs when the monitor is stopped has the configured ones then. -/
theorem advertisesConfigured_stop (h : m.Listed) (ha : m.active = true)
    (hopen : m.costsLocked = false) : (m.apply .stop).AdvertisesConfigured := by
  intro n cost hcost
  rw [configuredCost?_apply (by simp)] at hcost
  obtain ⟨advertised, hadvertised⟩ := h n cost hcost
  obtain ⟨link, hlink, rfl⟩ := Option.map_eq_some_iff.1 hcost
  have hrestores : m.Restores .stop n link := ⟨hlink, .inl ⟨rfl, ha⟩⟩
  obtain ⟨-, f, htable, -, hsame⟩ := hrestores.copies
  exact ⟨f advertised, by rw [htable, hadvertised, Option.map_some], hsame hopen advertised⟩

end Monitor

/-- **A stopped monitor is quiescent and restored.** Let the neighbors be taken over once, at the
beginning, and no probe be sent and no cost be applied by hand. In every state in which the monitor
is not active, no timer is live and no probe is pending, and stopping it once more changes nothing.
From the stop of an active monitor until the next start the configured cost of every link is in
force, whatever news and outcomes arrive; and it is in the table, too, if the table takes costs at
the stop, and others keep its entries and leave their costs to the monitor. -/
theorem stopped_quiescent [Scalar α] (surroundings : Surroundings α) (settings : LinkSettings α)
    (memory : σ) {ops : List (Operation α σ)} (hops : ∀ op ∈ ops, op.IsRoutine) :
    let m := (Monitor.idle surroundings settings memory).apply .adoptNeighbors
    ((m.run ops).active = false → (m.run ops).timers.isEmpty = true ∧ (m.run ops).pending = ∅ ∧
      (m.run ops).apply .stop = m.run ops) ∧
    ∀ before after, ops = before ++ .stop :: after → (m.run before).active = true →
      .start ∉ after → ∀ (n : Name) link, (m.run ops).links[n]? = some link →
        link.currentCost = link.configuredCost ∧
        (surroundings.neighbors.Filed → (∀ s ∈ m.steps ops, s.1.KeepsEntries s.2) →
          (m.run before).costsLocked = false →
          ∃ advertised, (m.run ops).neighbors.linkCost? n = some advertised ∧
            SameCost advertised link.configuredCost) := by
  intro m
  have hreachable : m.Reachable := .apply _ (.idle surroundings settings memory)
  refine ⟨fun ha => ⟨(hreachable.run ops).timersConsistent.isEmpty ha,
    Monitor.pending_run hreachable.timersConsistent (fun _ => rfl) hops ha, ?_⟩,
    fun before after hsplit ha hstart n link hlink => ?_⟩
  · show (m.run ops).act (·.stop) = m.run ops
    rw [Monitor.act, MonitorState.stop_of_inactive ha]
  · subst hsplit
    obtain ⟨hbefore, hafter⟩ := List.forall_mem_append.1 hops
    -- the stop brings the monitor to rest, and what follows it leaves it there
    have hrest : ((m.run before).apply .stop).AtRest :=
      MonitorState.atRest_stop (hreachable.run before).timersConsistent ha
    have hafter := (List.forall_mem_cons.1 hafter).2
    rw [Monitor.run_append, Monitor.run_cons] at hlink ⊢
    have hrestored := (Monitor.atRest_run hrest hafter hstart).restored n
    rw [MonitorState.currentCost?, MonitorState.configuredCost?, hlink, Option.map_some,
      Option.map_some] at hrestored
    refine ⟨Option.some.inj hrestored, fun hfiled hkeeps hopen => ?_⟩
    rw [Monitor.steps_append] at hkeeps
    obtain ⟨hkeepsBefore, hkeepsAfter⟩ := List.forall_mem_append.1 hkeeps
    have hlisted := Monitor.listed_run (Monitor.listed_adopted settings memory hfiled) hbefore
      hkeepsBefore
    exact Monitor.advertisesConfigured_run hrest
      (Monitor.advertisesConfigured_stop hlisted ha hopen) hafter hstart
      (List.forall_mem_cons.1 hkeepsAfter).2 n _
      (by rw [MonitorState.configuredCost?, hlink, Option.map_some])

namespace Retired

def neighbor : Name := { components := ["friend"] }

/-- A router with one neighbor, which does not have its configured cost. -/
def surroundings : Surroundings Float :=
  { (Surroundings.quiet : Surroundings Float) with
    neighbors := .ofList [⟨neighbor, .active, 14.0, 10.0, 0⟩] }

def monitor : Monitor Float Unit :=
  (Monitor.idle surroundings .standard ()).apply .adoptNeighbors

/-- A probe is on its way. -/
def before : List (Operation Float Unit) :=
  [.start, .advance (.ofSeconds 30), .poll, .advance (.ofSeconds 31), .poll]

/-- It is answered too late, and the neighbor is lost and comes back. -/
def after : List (Operation Float Unit) :=
  [.advance (.ofMillis 50), .outcome ⟨neighbor, 1, .data⟩, .news (.helloTimeout neighbor 3),
    .news (.statusChanged neighbor .active), .poll, .news (.helloReceived neighbor)]

/-- Stopped while a probe is on its way, the monitor is at rest whatever follows. -/
theorem retired_quiescent :
    (monitor.run before).currentCost? neighbor = some 14.0 ∧
    (monitor.run before).pending.contains 1 = true ∧
    (monitor.run (before ++ .stop :: after)).timers.isEmpty = true ∧
    (monitor.run (before ++ .stop :: after)).pending = ∅ ∧
    ∃ link, (monitor.run (before ++ .stop :: after)).links[neighbor]? = some link ∧
      link.currentCost = link.configuredCost ∧
      ∃ advertised,
        (monitor.run (before ++ .stop :: after)).neighbors.linkCost? neighbor = some advertised ∧
        SameCost advertised link.configuredCost := by
  have hops : ∀ op ∈ before ++ .stop :: after, op.IsRoutine := by
    simp [before, after, Operation.IsRoutine]
  have hkeeps : ∀ s ∈ monitor.steps (before ++ .stop :: after), s.1.KeepsEntries s.2 :=
    Monitor.keepsEntries_steps fun change hmem => by simp [before, after] at hmem
  obtain ⟨hquiet, hrestored⟩ := stopped_quiescent surroundings .standard () hops
  have hinactive : (monitor.run (before ++ .stop :: after)).active = false := by decide +kernel
  obtain ⟨htimers, hpending, -⟩ := hquiet hinactive
  obtain ⟨link, hlink⟩ : ∃ link,
      (monitor.run (before ++ .stop :: after)).links[neighbor]? = some link :=
    Option.isSome_iff_exists.1 (by decide +kernel)
  obtain ⟨hcurrent, htable⟩ := hrestored before after rfl (by decide +kernel) (by simp [after])
    neighbor link hlink
  refine ⟨by decide +kernel, by decide +kernel, htimers, hpending, link, hlink, hcurrent, ?_⟩
  exact htable (AdjacencyTable.filed_ofList _) hkeeps (by decide +kernel)

end Retired

end AdaptiveRouting
