import AdaptiveRouting.Proofs.Monitor.Ledger
import AdaptiveRouting.Proofs.Settings.Checks
import Mathlib.Algebra.GroupWithZero.Nat

/-!
# Each probe is matched with one answer

An outcome is matched with a probe by its number alone. Along every run with fewer than 2³² calls to
send a probe, whatever outcomes arrive, in whatever order and however often, each probe that is sent
has a number of its own, a round-trip time enters a history only with the answer to a pending probe,
for the neighbor that the probe was sent to and counted from when it was sent, and no number counts
twice (`probes_matched_once`).

The books carry the argument. One operation extends them (`Monitor.exists_entered`), and
`Monitor.MatchesProbes` says what it makes of the histories meanwhile; `Monitor.ledger_run` is the
induction over the operations of a run.
-/

namespace AdaptiveRouting

variable {α σ : Type}

/-! ## What a step does with probes -/

namespace MonitorState

/-- The round-trip times of a neighbor. -/
def historyOf (m : MonitorState α) (n : Name) : List Duration :=
  (m.links[n]?.map (·.history)).getD []

/-- The round-trip times of a neighbor depend on the history of its link only. -/
theorem historyOf_congr {m m' : MonitorState α} {n : Name}
    (h : m'.links[n]?.map (·.history) = m.links[n]?.map (·.history)) :
    m'.historyOf n = m.historyOf n := by
  unfold historyOf
  rw [h]

/-- A round-trip time that counts is at least the floor, and none that was measured is above the
ceiling. -/
theorem countedRtt?_eq_some {settings : LinkSettings α} {elapsed rtt : Duration}
    (hbounds : settings.rttFloor < settings.rttCeiling)
    (h : countedRtt? settings elapsed = some rtt) :
    rtt = max settings.rttFloor elapsed ∧ elapsed ≤ settings.rttCeiling := by
  unfold countedRtt? at h
  split at h
  · next hlow =>
    cases h
    exact ⟨(Nat.max_eq_left (Nat.le_of_lt hlow)).symm, Nat.le_of_lt (Nat.lt_trans hlow hbounds)⟩
  · next hlow =>
    split at h
    · cases h
    · next hhigh =>
      cases h
      exact ⟨(Nat.max_eq_right (Nat.le_of_not_lt hlow)).symm, Nat.le_of_not_lt hhigh⟩

/-- A round-trip time enters the history of its neighbor, or none. -/
theorem history_recordRtt (m : MonitorState α) (k : Name) (rtt : Duration) (n : Name) :
    (m.recordRtt k rtt).2.links[n]?.map (·.history) = m.links[n]?.map (·.history) ∨
    k = n ∧ ∃ link, m.links[n]? = some link ∧
      (m.recordRtt k rtt).2.links[n]?.map (·.history) = some (link.record rtt).history := by
  rcases m.links_recordRtt k rtt with heq | ⟨link, h, heq⟩
  · exact .inl (by rw [heq])
  · rw [heq, Std.ExtTreeMap.getElem?_insert]
    split
    · next hn =>
      obtain rfl := Std.LawfulEqCmp.eq_of_compare hn
      exact .inr ⟨rfl, link, h, rfl⟩
    · exact .inl rfl

/-- Links of the same standing have the same histories. -/
theorem historyOf_of_sameStanding {m m' : MonitorState α} (h : SameStanding m.links m'.links)
    (n : Name) : m'.historyOf n = m.historyOf n :=
  historyOf_congr (h.map_eq (·.history) (fun _ => rfl) n)

/-- A neighbor that is taken over begins without round-trip times. -/
theorem history_adoptNeighbors (m : MonitorState α) (n : Name) :
    m.adoptNeighbors.links[n]? = m.links[n]? ∨ m.adoptNeighbors.historyOf n = [] := by
  have hfold : ∀ (as : List (Adjacency α)) (links : NameMap (LinkState α)),
      links[n]? = m.links[n]? ∨ (links[n]?.map (·.history)).getD [] = [] →
      (as.foldl (fun links a => links.insert a.name (m.configuredLink a)) links)[n]? = m.links[n]? ∨
      (((as.foldl (fun links a => links.insert a.name (m.configuredLink a)) links)[n]?).map
        (·.history)).getD [] = [] := by
    intro as
    induction as with
    | nil => exact fun _ h => h
    | cons a as ih =>
      intro links h
      refine ih _ ?_
      rw [Std.ExtTreeMap.getElem?_insert]
      split
      · exact .inr rfl
      · exact h
  exact hfold m.neighbors.toList m.links (.inl rfl)

end MonitorState

/-- What news makes of a history: it is left alone or cleared. -/
theorem LinkState.informed_history (l : LinkState α) (settings : LinkSettings α) (now : Instant)
    (e : NeighborEvent) :
    (l.informed settings now e).history = l.history ∨ (l.informed settings now e).history = [] := by
  unfold informed
  split
  · exact .inl rfl
  · exact .inl rfl
  · split
    · exact .inr rfl
    · exact .inl rfl
  · exact .inr rfl
  · split
    · exact .inl rfl
    · exact .inl rfl

namespace Monitor

variable [Scalar α]

/-- The calls to send a probe that an operation makes. -/
def callsIn (m : Monitor α σ) : Operation α σ → Nat
  | .sendProbe _ => 1
  | .poll => m.callsDue m.timers.size
  | _ => 0

/-- The requests that leave the monitor in an operation, with the time at which they do. -/
def dispatched (m : Monitor α σ) (op : Operation α σ) : List (ProbeRequest × Instant) :=
  ((m.apply op).requests.drop m.requests.length).map (·, m.clock.now)

/-- The number of the probe whose answer counts in an operation. -/
def answered (m : Monitor α σ) : Operation α σ → List UInt32
  | .outcome o => if (m.handleOutcome o).stats.measured = m.stats.measured then [] else [o.seq]
  | _ => []

/-- The outcome is the answer to one of the probes sent, which is pending until then and has not
taken too long. Its neighbor may claim to be any. -/
structure Answers (m : Monitor α σ) (sent : List SentProbe) (o : ProbeOutcome) (p : SentProbe) :
    Prop where
  kind : o.kind = .data
  seq : o.seq = p.seq
  sent : p ∈ sent
  pending : m.pending[p.seq]? = some ⟨p.neighbor, p.sentAt⟩
  timely : m.clock.now - p.sentAt ≤ m.settings.rttCeiling

/-- What an operation has to do with the probes that a run sends. A history is left alone or
cleared, or it gets the round-trip time of the probe that is just answered; only an answer counts as
one; and an outcome whose number is not pending does nothing at all. -/
structure MatchesProbes (sent : List SentProbe) (m : Monitor α σ) (op : Operation α σ) : Prop where
  history (n : Name) : (m.apply op).historyOf n = m.historyOf n ∨ (m.apply op).historyOf n = [] ∨
    ∃ o p link, op = .outcome o ∧ m.Answers sent o p ∧ m.answered op = [p.seq] ∧ p.neighbor = n ∧
      m.links[n]? = some link ∧ (m.apply op).historyOf n =
        (link.record (max m.settings.rttFloor (m.clock.now - p.sentAt))).history
  answer {seq : UInt32} : seq ∈ m.answered op →
    ∃ o p, op = .outcome o ∧ m.Answers sent o p ∧ p.seq = seq
  ignored {o : ProbeOutcome} : op = .outcome o → m.pending[o.seq]? = none → m.apply op = m

variable {m : Monitor α σ} {op : Operation α σ} {calls : Nat} {sent : List SentProbe}
  {answered : List UInt32}

/-- An operation other than an outcome and the passing of time makes calls and sends probes. -/
theorem sends_apply (houtcome : ∀ o, op ≠ .outcome o) (hadvance : ∀ d, op ≠ .advance d) :
    ∃ new, MonitorState.Sends m.toMonitorState (m.callsIn op) new (m.apply op).toMonitorState := by
  have hquiet : ∀ {m' : MonitorState α}, m'.nextSeq = m.nextSeq → m'.stats.sent = m.stats.sent →
      m'.stats.measured = m.stats.measured → m'.pending = m.pending → m'.outbox = m.outbox →
      m'.settings = m.settings → m'.clock.now = m.clock.now →
      MonitorState.Sends m.toMonitorState 0 [] m' := by
    intro m' hnext hsent hmeasured hpending houtbox hsettings hclock
    refine .of_pending_sub hnext hsent hmeasured (fun _ => .inl ?_) ?_ hsettings hclock
    · rw [hpending]
    · rw [MonitorState.requests, houtbox, MonitorState.requests]
  cases op with
  | outcome o => exact absurd rfl (houtcome o)
  | advance d => exact absurd rfl (hadvance d)
  | sendProbe n => exact MonitorState.sends_sendProbe _ n
  | poll => exact MonitorState.sends_handleDue _ _
  | scheduleProbe n => exact ⟨[], (MonitorState.timersDiffer_scheduleProbe _ n).sends⟩
  | report => exact ⟨[], MonitorState.sends_report _⟩
  | start =>
    refine ⟨[], ?_⟩
    show MonitorState.Sends _ 0 [] m.start
    unfold MonitorState.start
    split
    · exact hquiet rfl rfl rfl rfl rfl rfl rfl
    · exact hquiet rfl rfl rfl rfl rfl rfl rfl
  | stop =>
    refine ⟨[], ?_⟩
    show MonitorState.Sends _ 0 [] m.stop
    unfold MonitorState.stop
    split
    · exact .of_pending_sub rfl rfl rfl (fun _ => .inr Std.ExtTreeMap.getElem?_empty) rfl rfl rfl
    · exact hquiet rfl rfl rfl rfl rfl rfl rfl
  | news e =>
    refine ⟨[], ?_⟩
    obtain ⟨-, -, hpending, _, _, _, _, _, _, heq⟩ := m.informed_handleNews e
    have hsub : ∀ seq : UInt32, (m.handleNews e).pending[seq]? = m.pending[seq]? ∨
        (m.handleNews e).pending[seq]? = none := fun seq => (hpending seq).imp_right (·.1)
    show MonitorState.Sends _ 0 [] (m.handleNews e)
    rw [heq] at hsub ⊢
    exact .of_pending_sub rfl rfl rfl hsub rfl rfl rfl
  | updateCost n cost =>
    refine ⟨[], ?_⟩
    obtain ⟨-, _, _, _, _, _, heq, -⟩ := m.costsDiffer_updateCost n cost
    show MonitorState.Sends _ 0 [] (m.updateCost n cost).toMonitorState
    rw [heq]
    exact hquiet rfl rfl rfl rfl rfl rfl rfl
  | adoptNeighbors | setHooks hooks memory | surround change =>
    exact ⟨[], hquiet rfl rfl rfl rfl rfl rfl rfl⟩

/-- Outcomes apart, an operation leaves a history alone or clears it. -/
theorem historyOf_apply (houtcome : ∀ o, op ≠ .outcome o) (n : Name) :
    (m.apply op).historyOf n = m.historyOf n ∨ (m.apply op).historyOf n = [] := by
  cases op with
  | outcome o => exact absurd rfl (houtcome o)
  | adoptNeighbors =>
    exact (m.history_adoptNeighbors n).imp_left fun h => MonitorState.historyOf_congr (congrArg _ h)
  | news e =>
    have hlink := (m.informed_handleNews e).link n
    show (m.handleNews e).historyOf n = _ ∨ (m.handleNews e).historyOf n = _
    unfold MonitorState.historyOf
    rw [hlink]
    split
    · cases m.links[n]? with
      | none => exact .inl rfl
      | some link => exact link.informed_history m.settings m.clock.now e
    · exact .inl rfl
  | _ =>
    refine .inl (MonitorState.historyOf_of_sameStanding (m.sameStanding_apply ?_ ?_ houtcome) n)
    · nofun
    · nofun

/-! ## What an outcome does -/

/-- Where nothing is measured, no answer counts. -/
theorem answered_eq_nil {o : ProbeOutcome}
    (h : (m.handleOutcome o).stats.measured = m.stats.measured) : m.answered (.outcome o) = [] :=
  if_pos h

/-- Where something is measured, the answer of the outcome counts. -/
theorem answered_eq_singleton {o : ProbeOutcome}
    (h : (m.handleOutcome o).stats.measured = m.stats.measured + 1) :
    m.answered (.outcome o) = [o.seq] :=
  if_neg (by omega)

/-- Only outcomes bring answers. -/
theorem answered_of_ne (houtcome : ∀ o, op ≠ .outcome o) : m.answered op = [] := by
  unfold answered
  split
  · next o => exact absurd rfl (houtcome o)
  · rfl

/-- An outcome that counts is the answer to a probe in the books. -/
theorem matchesProbes_outcome (h : MonitorState.Ledger m.toMonitorState calls sent answered)
    (hbounds : m.settings.rttFloor < m.settings.rttCeiling) (o : ProbeOutcome) :
    m.MatchesProbes sent (.outcome o) := by
  have hignored : ∀ probe, m.pending[o.seq]? = some probe → ∀ {o' : ProbeOutcome},
      Operation.outcome o = .outcome (α := α) (σ := σ) o' → m.pending[o'.seq]? = none →
      m.apply (.outcome o) = m := by
    intro probe hprobe o' ho hnone
    cases ho
    rw [hprobe] at hnone
    cases hnone
  rcases m.handleOutcome_cases o with ⟨-, heq⟩ | ⟨probe, hprobe, hcases⟩
  · refine ⟨fun n => .inl ?_, fun hseq => ?_, fun _ _ => heq⟩
    · show (m.handleOutcome o).historyOf n = _
      rw [heq]
    · rw [answered_eq_nil (by rw [heq])] at hseq
      cases hseq
  rcases hcases with heq | ⟨rtt, hkind, hrtt, -, hcosts⟩
  · refine ⟨fun n => .inl ?_, fun hseq => ?_, hignored probe hprobe⟩
    · show (m.handleOutcome o).historyOf n = _
      rw [heq]
      rfl
    · rw [answered_eq_nil (by rw [heq]; rfl)] at hseq
      cases hseq
  · obtain ⟨rfl, htimely⟩ := MonitorState.countedRtt?_eq_some hbounds hrtt
    have hanswers : m.Answers sent o ⟨o.seq, probe.neighbor, probe.sentAt⟩ :=
      ⟨hkind, rfl, h.pending hprobe, hprobe, htimely⟩
    have hanswered : m.answered (.outcome o) = [o.seq] := by
      obtain ⟨_, _, _, _, _, heq, -⟩ := hcosts
      exact answered_eq_singleton (by rw [heq]; rfl)
    refine ⟨fun n => ?_, fun {seq} hseq => ?_, hignored probe hprobe⟩
    · have hhistory := MonitorState.historyOf_of_sameStanding hcosts.sameStanding n
      rcases m.history_recordRtt probe.neighbor _ n with hsame | ⟨hn, link, hlink, hrecord⟩
      · exact .inl (hhistory.trans (MonitorState.historyOf_congr hsame))
      · refine .inr (.inr ⟨o, _, link, rfl, hanswers, hanswered, hn, hlink, ?_⟩)
        exact hhistory.trans (congrArg (·.getD []) hrecord)
    · rw [hanswered, List.mem_singleton] at hseq
      exact ⟨o, _, rfl, hanswers, hseq.symm⟩

/-- Every operation matches the probes in the ledger. -/
theorem matchesProbes_apply (h : MonitorState.Ledger m.toMonitorState calls sent answered)
    (hbounds : m.settings.rttFloor < m.settings.rttCeiling) (op : Operation α σ) :
    m.MatchesProbes sent op := by
  by_cases houtcome : ∃ o, op = .outcome o
  · obtain ⟨o, rfl⟩ := houtcome
    exact matchesProbes_outcome h hbounds o
  · have hother : ∀ o, op ≠ .outcome o := fun o ho => houtcome ⟨o, ho⟩
    refine ⟨fun n => ?_, fun hseq => ?_, fun ho => absurd ho (hother _)⟩
    · exact (historyOf_apply hother n).imp_right .inl
    · rw [answered_of_ne hother] at hseq
      cases hseq

/-- What matches some probes matches more of them. -/
theorem MatchesProbes.mono {more : List SentProbe} (h : m.MatchesProbes sent op)
    (hsub : sent ⊆ more) : m.MatchesProbes more op := by
  have hanswers : ∀ {o p}, m.Answers sent o p → m.Answers more o p := fun h =>
    ⟨h.kind, h.seq, hsub h.sent, h.pending, h.timely⟩
  refine ⟨fun n => ?_, fun hseq => ?_, h.ignored⟩
  · refine (h.history n).imp_right (.imp_right ?_)
    rintro ⟨o, p, link, ho, ha, hrest⟩
    exact ⟨o, p, link, ho, hanswers ha, hrest⟩
  · obtain ⟨o, p, ho, ha, hp⟩ := h.answer hseq
    exact ⟨o, p, ho, hanswers ha, hp⟩

/-! ## Runs -/

/-- What an operation enters into the books, and what of it is seen from outside. -/
structure Entered (m : Monitor α σ) (op : Operation α σ) (calls : Nat) (sent new : List SentProbe)
    (answered : List UInt32) : Prop where
  /-- The books after the operation. -/
  ledger : MonitorState.Ledger (m.apply op).toMonitorState (calls + m.callsIn op) (sent ++ new)
    (answered ++ m.answered op)
  settings : (m.apply op).settings = m.settings
  /-- The requests that leave the monitor are those for the new probes. -/
  dispatched : m.dispatched op =
    new.map fun p => (p.request m.settings.probeLifetime, p.sentAt)

/-- Where the outbox stays as it is, nothing leaves the monitor. -/
theorem dispatched_eq_nil (h : (m.apply op).outbox = m.outbox) : m.dispatched op = [] := by
  unfold dispatched MonitorState.requests
  rw [h, List.drop_length, List.map_nil]

/-- The requests that leave the monitor are those for the probes that are sent. -/
theorem dispatched_of_sends {calls : Nat} {new : List SentProbe}
    (h : MonitorState.Sends m.toMonitorState calls new (m.apply op).toMonitorState) :
    m.dispatched op = new.map fun p => (p.request m.settings.probeLifetime, p.sentAt) := by
  unfold dispatched
  rw [h.requests, List.drop_left, List.map_map]
  exact List.map_congr_left fun p hp => by rw [Function.comp_apply, h.now hp]

/-- An outcome enters its number into the books if it counts. -/
theorem entered_outcome (h : MonitorState.Ledger m.toMonitorState calls sent answered)
    (o : ProbeOutcome) : m.Entered (.outcome o) calls sent [] answered := by
  have hentered : MonitorState.Ledger (m.handleOutcome o).toMonitorState calls sent
      (answered ++ m.answered (.outcome o)) → (m.handleOutcome o).settings = m.settings →
      (m.handleOutcome o).outbox = m.outbox → m.Entered (.outcome o) calls sent [] answered := by
    intro hledger hsettings houtbox
    exact ⟨by rwa [List.append_nil], hsettings, dispatched_eq_nil houtbox⟩
  rcases m.handleOutcome_cases o with ⟨-, heq⟩ | ⟨probe, hprobe, heq | ⟨rtt, -, -, -, hcosts⟩⟩
  · rw [answered_eq_nil (by rw [heq]), List.append_nil, heq] at hentered
    exact hentered h rfl rfl
  · rw [answered_eq_nil (by rw [heq]; rfl), List.append_nil, heq] at hentered
    exact hentered (h.of_pending_sub rfl rfl rfl (MonitorState.getElem?_erase_or _ o.seq)) rfl rfl
  · obtain ⟨_, _, _, _, _, heq, -⟩ := hcosts
    rw [answered_eq_singleton (by rw [heq]; rfl), heq] at hentered
    exact hentered (h.answer hprobe rfl rfl rfl rfl) rfl rfl

/-- Every operation extends the books. -/
theorem exists_entered (h : MonitorState.Ledger m.toMonitorState calls sent answered)
    (hcalls : calls + m.callsIn op ≤ 2 ^ 32) : ∃ new, m.Entered op calls sent new answered := by
  by_cases houtcome : ∃ o, op = .outcome o
  · obtain ⟨o, rfl⟩ := houtcome
    exact ⟨[], entered_outcome h o⟩
  by_cases hadvance : ∃ d, op = .advance d
  · obtain ⟨d, rfl⟩ := hadvance
    refine ⟨[], ?_, rfl, dispatched_eq_nil rfl⟩
    rw [List.append_nil, show m.answered (.advance d) = [] from rfl, List.append_nil]
    exact h.of_pending_sub rfl rfl rfl fun _ => .inl rfl
  · have hother : ∀ o, op ≠ .outcome o := fun o ho => houtcome ⟨o, ho⟩
    obtain ⟨new, hsends⟩ := sends_apply hother fun d hd => hadvance ⟨d, hd⟩
    refine ⟨new, ?_, hsends.settings, dispatched_of_sends hsends⟩
    rw [answered_of_ne hother, List.append_nil]
    exact hsends.ledger h hcalls

/-- The calls to send a probe along a run. -/
def callsAlong (m : Monitor α σ) (ops : List (Operation α σ)) : Nat :=
  ((m.steps ops).map fun s => s.1.callsIn s.2).sum

/-- The requests that leave the monitor along a run, with the times at which they do. -/
def dispatchedAlong (m : Monitor α σ) (ops : List (Operation α σ)) :
    List (ProbeRequest × Instant) :=
  (m.steps ops).flatMap fun s => s.1.dispatched s.2

/-- The numbers of the probes whose answers count along a run. -/
def answeredAlong (m : Monitor α σ) (ops : List (Operation α σ)) : List UInt32 :=
  (m.steps ops).flatMap fun s => s.1.answered s.2

/-- A run makes the calls of its first operation, and then those of the rest. -/
theorem callsAlong_cons (m : Monitor α σ) (op : Operation α σ) (ops : List (Operation α σ)) :
    m.callsAlong (op :: ops) = m.callsIn op + (m.apply op).callsAlong ops :=
  List.sum_cons

/-- What leaves the monitor in the first operation comes first. -/
theorem dispatchedAlong_cons (m : Monitor α σ) (op : Operation α σ) (ops : List (Operation α σ)) :
    m.dispatchedAlong (op :: ops) = m.dispatched op ++ (m.apply op).dispatchedAlong ops :=
  List.flatMap_cons

/-- The answer that counts in the first operation comes first. -/
theorem answeredAlong_cons (m : Monitor α σ) (op : Operation α σ) (ops : List (Operation α σ)) :
    m.answeredAlong (op :: ops) = m.answered op ++ (m.apply op).answeredAlong ops :=
  List.flatMap_cons

/-- The books after a run, in which every operation matches its probes. -/
theorem ledger_run (h : MonitorState.Ledger m.toMonitorState calls sent answered)
    (hbounds : m.settings.rttFloor < m.settings.rttCeiling) (ops : List (Operation α σ))
    (hcalls : calls + m.callsAlong ops ≤ 2 ^ 32) : ∃ new : List SentProbe,
    MonitorState.Ledger (m.run ops).toMonitorState (calls + m.callsAlong ops) (sent ++ new)
      (answered ++ m.answeredAlong ops) ∧
    m.dispatchedAlong ops =
      new.map (fun p => (p.request m.settings.probeLifetime, p.sentAt)) ∧
    ∀ s ∈ m.steps ops, s.1.MatchesProbes (sent ++ new) s.2 := by
  -- The induction is on the rest of the run, which begins with whatever has been entered so far.
  induction ops generalizing m calls sent answered with
  | nil =>
    refine ⟨[], ?_, rfl, fun s hs => absurd hs List.not_mem_nil⟩
    rw [List.append_nil, show m.answeredAlong [] = [] from rfl, List.append_nil]
    exact h
  | cons op ops ih =>
    rw [callsAlong_cons, ← Nat.add_assoc] at hcalls
    obtain ⟨new, hledger, hsettings, hdispatched⟩ :=
      exists_entered h (show calls + m.callsIn op ≤ 2 ^ 32 by omega)
    obtain ⟨later, hlater, hrest, hmatches⟩ := ih hledger (hsettings ▸ hbounds) hcalls
    refine ⟨new ++ later, ?_, ?_, fun s hs => ?_⟩
    · rw [callsAlong_cons, answeredAlong_cons, ← Nat.add_assoc, ← List.append_assoc,
        ← List.append_assoc]
      exact hlater
    · rw [dispatchedAlong_cons, hdispatched, hrest, hsettings, List.map_append]
    · rw [← List.append_assoc]
      rcases List.mem_cons.1 hs with rfl | hs
      · refine (matchesProbes_apply h hbounds op).mono ?_
        rw [List.append_assoc]
        exact List.subset_append_left _ _
      · exact hmatches s hs

/-- What a run has to do with the probes that it sends, of which there are as many as leave the
monitor. -/
structure RunMatches (m : Monitor α σ) (ops : List (Operation α σ)) (sent : List SentProbe) :
    Prop where
  /-- No two probes have the same number. -/
  numbers : (sent.map (·.seq)).Nodup
  /-- They are the probes that leave the monitor, when they do. -/
  dispatched : m.dispatchedAlong ops =
    sent.map fun p => (p.request m.settings.probeLifetime, p.sentAt)
  /-- Every operation matches them. -/
  operations : ∀ s ∈ m.steps ops, s.1.MatchesProbes sent s.2
  /-- No number is answered twice. -/
  once : (m.answeredAlong ops).Nodup
  count_sent : (m.run ops).stats.sent = sent.length
  count_measured : (m.run ops).stats.measured = (m.answeredAlong ops).length
  /-- The answered probes and the pending ones are different probes. -/
  account : (m.run ops).stats.measured + (m.run ops).pending.size ≤ (m.run ops).stats.sent

end Monitor

/-- The bounds on round-trip times leave room in sound settings. -/
theorem LinkSettings.rttFloor_lt_rttCeiling [Scalar α] {settings : LinkSettings α}
    (h : settings.violation? = none) : settings.rttFloor < settings.rttCeiling :=
  (violation?_eq_none_iff.1 h).rttBounds

/-- **Each probe is matched with one answer.** Along a run under sound settings, with fewer than 2³²
calls to send a probe, the probes that leave the monitor have numbers of their own; a round-trip
time enters a history only with the answer to one of them that is still pending, for the neighbor
that it was sent to; no number is answered twice; an outcome whose number is not pending does
nothing; and at least as many probes were sent as there are answered and pending ones. -/
theorem probes_matched_once [Scalar α] {settings : LinkSettings α}
    (hsettings : settings.violation? = none) (surroundings : Surroundings α) (memory : σ)
    (ops : List (Operation α σ))
    (hcalls : (Monitor.idle surroundings settings memory).callsAlong ops < 2 ^ 32) :
    ∃ sent, (Monitor.idle surroundings settings memory).RunMatches ops sent := by
  obtain ⟨sent, hledger, hdispatched, hmatches⟩ := Monitor.ledger_run
    (m := .idle surroundings settings memory) (MonitorState.ledger_idle surroundings settings)
    (LinkSettings.rttFloor_lt_rttCeiling hsettings) ops (by omega)
  rw [List.nil_append, List.nil_append, Nat.zero_add] at hledger
  exact ⟨sent, hledger.nodup (Nat.le_of_lt hcalls), hdispatched, hmatches, hledger.answered_once,
    hledger.count_sent, hledger.count_measured, hledger.measured_add_pending_le⟩

/-- A neighbor for the example below. -/
def Name.nearby : Name := { components := ["nearby"] }

/-- A monitor that is to look after one neighbor. -/
def Monitor.attentive : Monitor Float Unit :=
  .idle
    { (Surroundings.quiet : Surroundings Float) with
      neighbors := .ofList [⟨.nearby, .active, 10.0, 10.0, 0⟩] }
    .standard ()

/-- A probe is sent to the neighbor and answered twice, the second time under another name. -/
def Operation.echoes : List (Operation Float Unit) :=
  [.adoptNeighbors, .sendProbe .nearby, .advance (.ofMillis 20), .outcome ⟨.nearby, 1, .data⟩,
    .outcome ⟨{ components := ["faraway"] }, 1, .data⟩]

/-- The second answer does not count. -/
theorem echoes_matched_once :
    LinkSettings.violation? (.standard : LinkSettings Float) = none ∧
    Monitor.attentive.callsAlong Operation.echoes = 1 ∧
    Monitor.attentive.answeredAlong Operation.echoes = [1] ∧
    (Monitor.attentive.run Operation.echoes).historyOf .nearby = [.ofMillis 20] ∧
    ∃ sent, Monitor.attentive.RunMatches Operation.echoes sent :=
  ⟨rfl, rfl, rfl, rfl, probes_matched_once rfl _ () Operation.echoes (by decide)⟩

end AdaptiveRouting
