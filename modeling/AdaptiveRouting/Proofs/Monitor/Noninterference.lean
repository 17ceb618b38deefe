import AdaptiveRouting.Proofs.Monitor.CostWrites
import AdaptiveRouting.Proofs.Monitor.ProbeMatching
import AdaptiveRouting.Proofs.Monitor.TimerBookkeeping

/-!
# Neighbors do not interfere

The monitor keeps what it knows of its neighbors in maps that they share, by name, by the number of
a probe or of a timer. `MonitorState.SameFor` says that two states have the same to say of one
neighbor: its link, its entry in the neighbor table, the pending probes to it and its timer. What
is done on account of one neighbor leaves this alone for every other one.

The one thing that could get into the way is the number of a new probe, if it were that of a pending
one. It is not, as long as no more than 2³² numbers have been given out, which the books of the
probes tell (`MonitorState.Ledger.free`).
-/

namespace AdaptiveRouting

variable {α σ : Type}

/-! ## What is known of one neighbor -/

namespace MonitorState

variable {m m' m'' next : MonitorState α} {n k : Name}

/-- Nothing about a neighbor differs between the two states. -/
structure SameFor (n : Name) (m m' : MonitorState α) : Prop where
  link : m'.links[n]? = m.links[n]?
  /-- Its cost in the neighbor table is the same. -/
  cost : m'.neighbors.linkCost? n = m.neighbors.linkCost? n
  /-- The probes to it that are pending are the same. -/
  pending (seq : UInt32) :
    m'.pending[seq]?.filter (·.neighbor = n) = m.pending[seq]?.filter (·.neighbor = n)
  noted : m'.probeTimers[n]? = m.probeTimers[n]?
  /-- It has the same timer, which falls due at the same time. -/
  timers : m'.timers.timers.filter (·.payload = .probe n) =
    m.timers.timers.filter (·.payload = .probe n)

namespace SameFor

/-- A state differs in nothing from itself. -/
theorem refl (n : Name) (m : MonitorState α) : SameFor n m m :=
  ⟨rfl, rfl, fun _ => rfl, rfl, rfl⟩

/-- What two steps leave alone is left alone by both together. -/
theorem trans (h : SameFor n m m') (h' : SameFor n m' m'') : SameFor n m m'' where
  link := h'.link.trans h.link
  cost := h'.cost.trans h.cost
  pending seq := (h'.pending seq).trans (h.pending seq)
  noted := h'.noted.trans h.noted
  timers := h'.timers.trans h.timers

/-- Two states that share their maps have the same to say of every neighbor. -/
theorem of_eq (hlinks : m'.links = m.links) (hneighbors : m'.neighbors = m.neighbors)
    (hpending : m'.pending = m.pending) (hnoted : m'.probeTimers = m.probeTimers)
    (htimers : m'.timers = m.timers) : SameFor n m m' :=
  ⟨by rw [hlinks], by rw [hneighbors], fun seq => by rw [hpending], by rw [hnoted], by rw [htimers]⟩

end SameFor

/-! ## Timers -/

/-- To disarm a neighbor disarms no other one. -/
theorem getElem?_disarm_of_ne (m : MonitorState α) (h : n ≠ k) :
    (m.disarm k).probeTimers[n]? = m.probeTimers[n]? := by
  unfold disarm
  split
  · rfl
  · rw [Std.ExtTreeMap.getElem?_erase, if_neg]
    simpa using Ne.symm h

/-- To schedule a probe leaves the other neighbors alone. -/
theorem sameFor_scheduleProbe (hm : TimersConsistent m) (h : n ≠ k) :
    SameFor n m (m.scheduleProbe k) := by
  have hnoted : (m.scheduleProbe k).probeTimers[n]? = m.probeTimers[n]? := by
    rcases m.scheduleProbe_eq k with ⟨-, heq⟩ | ⟨-, delay, drawn, -, heq⟩
    · rw [heq]
    · rw [heq]
      show ((disarm { m with drawn } k).probeTimers.insert k _)[n]? = _
      rw [Std.ExtTreeMap.getElem?_insert, if_neg (by simpa using Ne.symm h)]
      exact getElem?_disarm_of_ne { m with drawn } h
  have htimers : (m.scheduleProbe k).timers.timers.filter (·.payload = .probe n) =
      m.timers.timers.filter (·.payload = .probe n) := by
    by_cases ha : m.active = true
    · rw [hm.timers_scheduleProbe ha, LiveTimers.filter_enter (by simpa using Ne.symm h),
        List.filter_filter]
      refine List.filter_congr ?_
      intro t _
      by_cases ht : t.payload = .probe n
      · simp [ht, h]
      · simp [ht]
    · rw [show m.scheduleProbe k = m from if_neg ha]
  obtain ⟨_, _, _, heq⟩ := m.timersDiffer_scheduleProbe k
  rw [heq] at hnoted htimers ⊢
  exact ⟨rfl, rfl, fun _ => rfl, hnoted, htimers⟩

/-- To ensure that a neighbor is armed leaves the others alone. -/
theorem sameFor_ensureProbe (hm : TimersConsistent m) (h : n ≠ k) :
    SameFor n m (m.ensureProbe k) := by
  unfold ensureProbe
  split
  · exact .refl n m
  · exact sameFor_scheduleProbe hm h

/-! ## Probes -/

/-- The number of the next probe is not that of a pending one. -/
theorem Ledger.free {calls : Nat} {sent : List SentProbe} {answered : List UInt32}
    (h : Ledger m calls sent answered) (hcalls : calls < 2 ^ 32) :
    m.pending[m.nextSeq]? = none := by
  cases hp : m.pending[m.nextSeq]? with
  | none => rfl
  | some probe =>
    exact absurd (List.mem_map_of_mem (h.pending hp)) (h.nextSeq_notMem hcalls)

/-- To send a probe under a free number leaves the other neighbors alone. -/
theorem sameFor_sendProbe (hfree : m.pending[m.nextSeq]? = none) (h : n ≠ k) :
    SameFor n m (m.sendProbe k).2 := by
  rcases m.sendProbe_cases k with heq | heq
  · rw [heq]
    refine ⟨rfl, rfl, ?_, rfl, rfl⟩
    intro seq
    rw [Std.ExtTreeMap.getElem?_insert]
    split
    · next hseq =>
      obtain rfl := Std.LawfulEqCmp.eq_of_compare hseq
      simp [hfree, Ne.symm h]
    · rfl
  · rw [heq]
    refine ⟨rfl, rfl, ?_, rfl, rfl⟩
    intro seq
    rw [Std.ExtTreeMap.getElem?_erase]
    split
    · next hseq =>
      obtain rfl := Std.LawfulEqCmp.eq_of_compare hseq
      simp [hfree]
    · rfl

/-- So does a probe that is sent only to a stable neighbor. -/
theorem sameFor_probeIfStable
    (hfree : m.callsOf (.probe k) ≠ 0 → m.pending[m.nextSeq]? = none) (h : n ≠ k) :
    SameFor n m (m.probeIfStable k) := by
  unfold probeIfStable
  split
  · next hprobed => exact sameFor_sendProbe (hfree (by simp [callsOf, hprobed])) h
  · exact .refl n m

/-! ## News -/

/-- The table is written for the neighbor that the news is about and for no other one. -/
theorem linkCost?_informedTable_of_ne {e : NeighborEvent} (h : n ≠ e.neighbor) :
    (m.informedTable e).linkCost? n = m.neighbors.linkCost? n := by
  unfold informedTable
  split
  · split
    · rfl
    · split
      · rfl
      · exact (m.repriced_tryWriteCost m.neighbors _ _).of_ne h
  · rfl

/-- News leaves all neighbors alone but the one that it is about. -/
theorem sameFor_handleNews {e : NeighborEvent} (hm : TimersConsistent m) (h : n ≠ e.neighbor) :
    SameFor n m (m.handleNews e) := by
  have hinformed := m.informed_handleNews e
  have htimers : (m.handleNews e).probeTimers[n]? = m.probeTimers[n]? ∧
      (m.handleNews e).timers.timers.filter (·.payload = .probe n) =
        m.timers.timers.filter (·.payload = .probe n) := by
    obtain ⟨heard, hqueue, hnotes, hactive, ⟨-, heq⟩ | ⟨-, heq⟩⟩ := m.handleNews_eq e
    · have hensured := sameFor_ensureProbe (hm.of_eq hqueue hnotes hactive) h
      rw [heq, ← hqueue, ← hnotes]
      exact ⟨hensured.noted, hensured.timers⟩
    · rw [heq, hqueue, hnotes]
      exact ⟨rfl, rfl⟩
  refine ⟨?_, ?_, ?_, htimers.1, htimers.2⟩
  · rw [hinformed.link, if_neg h]
  · rw [hinformed.neighbors]
    exact linkCost?_informedTable_of_ne h
  · intro seq
    rcases hinformed.pending seq with hsame | ⟨hgone, -, probe, hprobe, hneighbor⟩
    · rw [hsame]
    · -- only probes to the neighbor that is given up are
      rw [hgone, hprobe]
      rw [Option.filter_some_neg (by simpa [hneighbor] using Ne.symm h), Option.filter_none]

/-! ## Outcomes and costs -/

/-- To give up a pending probe leaves alone whoever it was not sent to. -/
theorem sameFor_erase {seq : UInt32}
    (h : ∀ probe, m.pending[seq]? = some probe → probe.neighbor ≠ n) :
    SameFor n m { m with pending := m.pending.erase seq } := by
  refine ⟨rfl, rfl, ?_, rfl, rfl⟩
  intro k
  rw [Std.ExtTreeMap.getElem?_erase]
  split
  · next hk =>
    obtain rfl := Std.LawfulEqCmp.eq_of_compare hk
    cases hp : m.pending[seq]? with
    | none => rfl
    | some probe => rw [Option.filter_some_neg (by simpa using h probe hp), Option.filter_none]
  · rfl

/-- To replace a link leaves the other neighbors alone. -/
theorem sameFor_insert {link : LinkState α} (h : n ≠ k) :
    SameFor n m { m with links := m.links.insert k link } := by
  refine ⟨?_, rfl, fun _ => rfl, rfl, rfl⟩
  rw [Std.ExtTreeMap.getElem?_insert, if_neg (by simpa using Ne.symm h)]

/-- To record a round-trip time leaves the other neighbors alone. -/
theorem sameFor_recordRtt (h : n ≠ k) (rtt : Duration) :
    SameFor n m { m with links := (m.recordRtt k rtt).2.links } := by
  rcases m.links_recordRtt k rtt with heq | ⟨link, -, heq⟩
  · rw [heq]
    exact .refl n m
  · rw [heq]
    exact sameFor_insert h

/-- An outcome is taken on account of the neighbor that the probe was sent to. -/
theorem sameFor_take {o : ProbeOutcome}
    (h : ∀ probe, m.pending[o.seq]? = some probe → probe.neighbor ≠ n) :
    SameFor n m (m.take o) := by
  unfold take
  split
  · rcases m.measure_cases o.seq with ⟨-, heq⟩ | ⟨probe, hprobe, ⟨-, heq⟩ | ⟨rtt, -, heq⟩⟩
    · rw [heq]
      exact .refl n m
    · rw [heq]
      exact sameFor_erase h
    · rw [heq]
      have hrecorded := sameFor_recordRtt (m := m) (h probe hprobe).symm rtt
      have herased := sameFor_erase h
      exact ⟨hrecorded.link, rfl, herased.pending, rfl, rfl⟩
  · exact sameFor_erase h
  · exact sameFor_erase h

/-- To request a rebuild leaves the other neighbors alone. -/
theorem sameFor_trigger {link : LinkState α} (h : n ≠ k) : SameFor n m (m.trigger k link) := by
  unfold trigger
  split
  · exact .refl n m
  · let noted : LinkState α := { link with lastTrigger := some m.clock.now }
    have hnoted : SameFor n m { m with links := m.links.insert k noted } := sameFor_insert h
    dsimp only
    split
    · exact ⟨hnoted.link, rfl, fun _ => rfl, rfl, rfl⟩
    · exact ⟨hnoted.link, rfl, fun _ => rfl, rfl, rfl⟩

/-- To put a cost in force leaves the other neighbors alone. -/
theorem sameFor_adoptCost {cost : α} (h : n ≠ k) : SameFor n m (m.adoptCost k cost) := by
  unfold adoptCost
  split
  · exact .refl n m
  · exact (sameFor_insert h).trans (sameFor_trigger h)

/-! ## Timers that fall due -/

/-- Neither a timer of the neighbor is due nor the end of the warm-up. -/
def NothingDue (n : Name) (m : MonitorState α) : Prop :=
  ∀ t ∈ m.timers.due m.clock.now, t.payload ≠ .probe n ∧ t.payload ≠ .warmUp

section
variable {id : TimerId} {task : Task} {timers : TimerQueue Task}

/-- A timer that is taken out and not of the neighbor leaves the neighbor's where it is. -/
theorem sameFor_popDue? (hm : TimersConsistent m)
    (hpop : m.timers.popDue? m.clock.now = some (id, task, timers)) (htask : task ≠ .probe n) :
    SameFor n m { m with timers } := by
  obtain ⟨deadline, htimers, -⟩ := hm.armed.wellFormed.of_popDue? hpop
  refine ⟨rfl, rfl, fun _ => rfl, rfl, ?_⟩
  rw [htimers, List.filter_cons_of_neg (by simpa using htask)]

/-- The report belongs to no neighbor. -/
theorem sameFor_scheduleReport (hm : TimersConsistent m) : SameFor n m m.scheduleReport := by
  refine ⟨rfl, rfl, fun _ => rfl, rfl, ?_⟩
  unfold scheduleReport
  rw [hm.armed.wellFormed.timers_schedule, LiveTimers.filter_enter (by simp)]

variable [Scalar α]

/-- A timer of another neighbor, or the one for the next report, is handled. -/
theorem sameFor_perform (hm : TimersConsistent m)
    (hpop : m.timers.popDue? m.clock.now = some (id, task, timers)) (htask : task ≠ .probe n)
    (hwarm : task ≠ .warmUp) (hfree : m.callsOf task ≠ 0 → m.pending[m.nextSeq]? = none) :
    SameFor n m ({ m with timers }.perform task) := by
  have ha := hm.active_of_popDue? hpop
  have harmed := hm.armed.popDue? hpop
  have hpopped := sameFor_popDue? hm hpop htask
  cases task with
  | warmUp => exact absurd rfl hwarm
  | probe k =>
    have hk : n ≠ k := fun hnk => htask (by rw [hnk])
    -- The timer has been taken out and its note erased before the neighbor is probed.
    let taken : MonitorState α := { m with timers, probeTimers := m.probeTimers.erase k }
    have htaken : SameFor n m taken := by
      refine ⟨hpopped.link, hpopped.cost, hpopped.pending, ?_, hpopped.timers⟩
      rw [Std.ExtTreeMap.getElem?_erase, if_neg (by simpa using Ne.symm hk)]
    have hconsistent : TimersConsistent taken := ⟨harmed, by intro hi; simp [taken, ha] at hi⟩
    exact (htaken.trans (sameFor_probeIfStable hfree hk)).trans
      (sameFor_scheduleProbe (hconsistent.probeIfStable k) hk)
  | report =>
    have hconsistent : TimersConsistent { m with timers } :=
      ⟨harmed, by intro hi; simp [ha] at hi⟩
    obtain ⟨outbox, heq⟩ := report_eq { m with timers }
    have hreported : SameFor n { m with timers } (report { m with timers }) := by
      rw [heq]
      exact .of_eq rfl rfl rfl rfl rfl
    exact (hpopped.trans hreported).trans (sameFor_scheduleReport hconsistent.report)

/-- The timer that is armed in place of one that has been handled is for the same task. -/
theorem NothingDue.perform (hdue : NothingDue n m) (hm : TimersConsistent m)
    (hpop : m.timers.popDue? m.clock.now = some (id, task, timers)) :
    NothingDue n ({ m with timers }.perform task) := by
  obtain ⟨deadline, -, hfirst, -⟩ := hm.armed.wellFormed.of_popDue? hpop
  have htask := hdue ⟨deadline, id, task⟩ (by rw [hfirst]; exact List.mem_cons_self ..)
  have hclock : ({ m with timers }.perform task).clock = m.clock := by
    obtain ⟨_, _, _, _, _, _, _, heq⟩ := probingDiffers_perform { m with timers } task
    exact congrArg (·.clock) heq
  intro t ht
  rw [hclock, TimerQueue.mem_due, timers_perform hm hpop htask.2, LiveTimers.mem_enter] at ht
  obtain ⟨rfl | ht, hdeadline⟩ := ht
  · exact htask
  · refine hdue t ?_
    rw [hfirst]
    exact List.mem_cons_of_mem _ (TimerQueue.mem_due.2 ⟨ht, hdeadline⟩)

/-- As long as the numbers of the probes differ, handling the timers of others does nothing to a
neighbor. -/
theorem sameFor_handleDue {calls : Nat} {sent : List SentProbe} {answered : List UInt32}
    (hm : TimersConsistent m) (hdue : NothingDue n m) (hledger : Ledger m calls sent answered)
    (bound : Nat) (hcalls : calls + m.callsDue bound ≤ 2 ^ 32) :
    SameFor n m (m.handleDue bound) := by
  induction bound generalizing m calls sent with
  | zero => exact .refl n m
  | succ bound ih =>
    unfold handleDue
    cases hnext : m.handleNext? with
    | none => exact .refl n m
    | some next =>
      have hconsistent := hm.handleNext? hnext
      obtain ⟨id, task, timers, hpop, rfl⟩ := handleNext?_eq_some_iff.1 hnext
      obtain ⟨deadline, -, hfirst, -⟩ := hm.armed.wellFormed.of_popDue? hpop
      have htask := hdue ⟨deadline, id, task⟩ (by rw [hfirst]; exact List.mem_cons_self ..)
      rw [callsDue, hpop] at hcalls
      dsimp only at hcalls
      have hperformed : SameFor n m ({ m with timers }.perform task) := by
        refine sameFor_perform hm hpop htask.1 htask.2 fun hcall => hledger.free ?_
        have : callsOf { m with timers } task ≠ 0 := hcall
        omega
      have htaken : TimersDiffer m { m with timers } := ⟨_, _, _, rfl⟩
      obtain ⟨new, hsends⟩ := sends_perform { m with timers } task
      have hbooks := (htaken.sends.trans hsends).ledger hledger (by omega)
      exact hperformed.trans (ih hconsistent (hdue.perform hm hpop) hbooks (by omega))

end

end MonitorState

/-! ## Revisions -/

section
variable [Scalar α] {n : Name}

/-- A revision is made on account of the neighbor whose cost it revises. -/
theorem Revision.sameFor_result {r : Revision α σ} (h : n ≠ r.neighbor) :
    r.monitor.SameFor n r.result.toMonitorState := by
  cases hw : r.written? with
  | none =>
    rw [result_of_unwritten hw]
    exact .refl n _
  | some w =>
    obtain ⟨cost, neighbors⟩ := w
    obtain ⟨_, _, -, -, -, -, hrepriced⟩ := of_written hw
    have hwritten : r.monitor.SameFor n { r.monitor.toMonitorState with neighbors } :=
      ⟨rfl, hrepriced.of_ne h, fun _ => rfl, rfl, rfl⟩
    rw [result_of_written hw]
    exact hwritten.trans (MonitorState.sameFor_adoptCost h)

/-- An outcome leads to the revision of a cost of the neighbor that its probe was sent to. -/
theorem Monitor.exists_probe_of_revision? {m : Monitor α σ} {o : ProbeOutcome} {r : Revision α σ}
    (h : m.revision? (.outcome o) = some r) :
    ∃ probe, m.pending[o.seq]? = some probe ∧ probe.neighbor = r.neighbor := by
  obtain ⟨-, h⟩ := Option.ite_none_right_eq_some.1 h
  obtain ⟨⟨k, x⟩, hmeasured, h⟩ := Option.bind_eq_some_iff.1 h
  obtain ⟨cost, -, rfl⟩ := Option.map_eq_some_iff.1 h
  rcases m.measure_cases o.seq with ⟨-, heq⟩ | ⟨probe, hprobe, ⟨-, heq⟩ | ⟨rtt, -, heq⟩⟩
  · rw [heq] at hmeasured
    cases hmeasured
  · rw [heq] at hmeasured
    cases hmeasured
  · rw [heq] at hmeasured
    obtain ⟨y, -, hpair⟩ := Option.map_eq_some_iff.1 hmeasured
    exact ⟨probe, hprobe, congrArg (·.1) hpair⟩

/-- An outcome leaves alone whoever its probe was not sent to. -/
theorem Monitor.sameFor_outcome {m : Monitor α σ} {o : ProbeOutcome}
    (h : ∀ probe, m.pending[o.seq]? = some probe → probe.neighbor ≠ n) :
    m.SameFor n (m.apply (.outcome o)).toMonitorState := by
  have htaken := MonitorState.sameFor_take h
  cases hrevision : m.revision? (.outcome o) with
  | none =>
    rw [apply_of_unrevised hrevision]
    exact htaken
  | some r =>
    obtain ⟨probe, hprobe, hneighbor⟩ := exists_probe_of_revision? hrevision
    rw [apply_of_revision? hrevision]
    rw [← (stable_of_revision? hrevision).1] at htaken
    exact htaken.trans (Revision.sameFor_result (hneighbor ▸ (h probe hprobe).symm))

end

/-! ## Runs -/

namespace Monitor

variable [Scalar α] {m : Monitor α σ}

/-- The books after a run, with whatever has been sent and answered along it. -/
theorem exists_ledger_run {calls : Nat} {sent : List SentProbe} {answered : List UInt32}
    (h : MonitorState.Ledger m.toMonitorState calls sent answered) (ops : List (Operation α σ))
    (hcalls : calls + m.callsAlong ops ≤ 2 ^ 32) : ∃ sent answered,
      MonitorState.Ledger (m.run ops).toMonitorState (calls + m.callsAlong ops) sent answered := by
  induction ops generalizing m calls sent answered with
  | nil => exact ⟨sent, answered, h⟩
  | cons op ops ih =>
    rw [callsAlong_cons, ← Nat.add_assoc] at hcalls ⊢
    obtain ⟨new, hentered⟩ := exists_entered h (show calls + m.callsIn op ≤ 2 ^ 32 by omega)
    exact ih hentered.ledger hcalls

/-- One more operation adds its calls. -/
theorem callsAlong_concat (m : Monitor α σ) (ops : List (Operation α σ)) (op : Operation α σ) :
    m.callsAlong (ops ++ [op]) = m.callsAlong ops + (m.run ops).callsIn op := by
  unfold callsAlong
  rw [steps_append, List.map_append, List.sum_append]
  simp [steps]

/-- The operation is on account of a neighbor. An outcome is on account of the one that the probe of
its number was sent to, whichever it claims to be from, and of any if no such probe is pending. -/
def Concerns (m : Monitor α σ) (n : Name) : Operation α σ → Prop
  | .news e => e.neighbor = n
  | .outcome o => ∀ probe, m.pending[o.seq]? = some probe → probe.neighbor = n
  | .sendProbe k | .scheduleProbe k | .updateCost k _ => k = n
  | _ => False

/-- What an operation leaves alone. -/
structure KeepsApart (m : Monitor α σ) (op : Operation α σ) : Prop where
  /-- On account of one neighbor nothing happens to another one. -/
  others {a b : Name} : m.Concerns a op → b ≠ a → m.SameFor b (m.apply op).toMonitorState
  /-- Nothing happens to a neighbor while the timers of others are handled. -/
  poll {b : Name} : op = .poll → MonitorState.NothingDue b m.toMonitorState →
    m.SameFor b (m.apply op).toMonitorState

/-- An operation keeps to the neighbors that it concerns, as long as the numbers suffice. -/
theorem keepsApart {calls : Nat} {sent : List SentProbe} {answered : List UInt32}
    (hm : m.TimersConsistent) (h : MonitorState.Ledger m.toMonitorState calls sent answered)
    {op : Operation α σ} (hcalls : calls + m.callsIn op ≤ 2 ^ 32) : m.KeepsApart op where
  others {a b} hop hb := by
    cases op with
    | news e => exact MonitorState.sameFor_handleNews hm fun heq => hb (heq.trans hop)
    | outcome o => exact sameFor_outcome fun probe hp heq => hb (heq.symm.trans (hop probe hp))
    | sendProbe k =>
      refine MonitorState.sameFor_sendProbe (h.free ?_) fun heq => hb (heq.trans hop)
      exact Nat.lt_of_lt_of_le (Nat.lt_succ_self calls) hcalls
    | scheduleProbe k => exact MonitorState.sameFor_scheduleProbe hm fun heq => hb (heq.trans hop)
    | updateCost k cost =>
      exact Revision.sameFor_result (r := ⟨m, k, cost⟩) fun heq => hb (heq.trans hop)
    | adoptNeighbors | start | stop | poll | report | setHooks _ _ | advance _ | surround _ =>
      exact hop.elim
  poll hop hdue := by
    subst hop
    exact MonitorState.sameFor_handleDue hm hdue h _ hcalls

end Monitor

/-- **Neighbors do not interfere.** After any run, an operation on account of one neighbor leaves
the link of every other neighbor as it is, with its cost in the table, the probes to it that are
pending and its timer; and so does a call of `poll` for every neighbor of which no timer is due,
provided that the warm-up is not about to end. The calls to send a probe must not be so many that a
number is given out twice. -/
theorem neighbors_do_not_interfere [Scalar α] (surroundings : Surroundings α)
    (settings : LinkSettings α) (memory : σ) (ops : List (Operation α σ)) (op : Operation α σ)
    (hcalls : (Monitor.idle surroundings settings memory).callsAlong (ops ++ [op]) ≤ 2 ^ 32) :
    ((Monitor.idle surroundings settings memory).run ops).KeepsApart op := by
  rw [Monitor.callsAlong_concat] at hcalls
  have hidle : MonitorState.Ledger (Monitor.idle surroundings settings memory).toMonitorState 0 []
      [] := MonitorState.ledger_idle surroundings settings
  obtain ⟨sent, answered, hledger⟩ := Monitor.exists_ledger_run hidle ops (by omega)
  rw [Nat.zero_add] at hledger
  have hreachable := (Monitor.Reachable.idle surroundings settings memory).run ops
  exact Monitor.keepsApart hreachable.timersConsistent hledger hcalls

namespace TwoNeighbors

/-- Two neighbors of a monitor. -/
def left : Name := { components := ["left"] }

/-- The other one. -/
def right : Name := { components := ["right"] }

/-- What a monitor acts on that is to look after both. -/
def surroundings : Surroundings Float :=
  { (Surroundings.quiet : Surroundings Float) with
    neighbors := .ofList [⟨left, .active, 10.0, 10.0, 0⟩, ⟨right, .active, 10.0, 10.0, 0⟩] }

/-- Such a monitor. -/
def monitor : Monitor Float Unit := .idle surroundings .standard ()

/-- Both are to be probed after the warm-up, but then the right one is put off. -/
def before : List (Operation Float Unit) :=
  [.adoptNeighbors, .start, .advance (.ofSeconds 30), .poll, .advance (.ofSeconds 15),
    .scheduleProbe right, .advance (.ofSeconds 15)]

/-- The left neighbor is probed. -/
def probed : List (Operation Float Unit) := before ++ [.poll]

/-- What becomes of a probe is reported under the name of the right neighbor. -/
def outcome : Operation Float Unit := .outcome ⟨right, 1, .timeout⟩

/-- The probe was sent to the left neighbor. -/
theorem right_left_alone :
    (monitor.callsAlong (before ++ [.poll]) ≤ 2 ^ 32 ∧
      monitor.callsAlong (probed ++ [outcome]) ≤ 2 ^ 32) ∧
    (MonitorState.NothingDue right (monitor.run before).toMonitorState ∧
      (monitor.run before).SameFor right ((monitor.run before).apply .poll).toMonitorState) ∧
    (monitor.run probed).pending[(1 : UInt32)]? = some ⟨left, 60000000000⟩ ∧
    (monitor.run probed).SameFor right
      ((monitor.run probed).apply outcome).toMonitorState := by
  have hcalls : monitor.callsAlong (before ++ [.poll]) ≤ 2 ^ 32 := by decide +kernel
  have hlater : monitor.callsAlong (probed ++ [outcome]) ≤ 2 ^ 32 := by decide +kernel
  have hdue : MonitorState.NothingDue right (monitor.run before).toMonitorState := by
    unfold MonitorState.NothingDue
    decide +kernel
  have hprobe : (monitor.run probed).pending[(1 : UInt32)]? =
      some ⟨left, 60000000000⟩ := by decide +kernel
  have hconcerns : (monitor.run probed).Concerns left outcome := by
    intro probe hp
    cases hprobe.symm.trans hp
    rfl
  have hpoll : (monitor.run before).KeepsApart .poll :=
    neighbors_do_not_interfere surroundings .standard () before .poll hcalls
  have houtcome : (monitor.run probed).KeepsApart outcome :=
    neighbors_do_not_interfere surroundings .standard () probed outcome hlater
  exact ⟨⟨hcalls, hlater⟩, ⟨hdue, hpoll.poll rfl hdue⟩, hprobe,
    houtcome.others hconcerns (by decide)⟩

end TwoNeighbors

end AdaptiveRouting
