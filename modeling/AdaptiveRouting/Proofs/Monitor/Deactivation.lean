import AdaptiveRouting.Proofs.Monitor.ProbeMatching

/-!
# What is left of a neighbor that is given up

A neighbor is given up when it is reported inactive, or when so many of its hellos are missing that
the threshold is reached. Either way its round-trip times are forgotten. The probes that it has not
answered are forgotten in the first case only; in the second they stay pending, and when the
neighbor is back before they have taken too long, a late answer to one of them is recorded as a
round-trip time across the outage. So the past of the neighbor is over for good exactly if it was
reported inactive, or no answer to an earlier probe would count any more
(`deactivation_forgets_iff`).

Whether the past of a neighbor is over is a matter of all that may happen afterwards
(`Monitor.ForgetsProbes`). It can be told from the present state: the probes that are pending are
the only ones that can be answered, and time alone decides whether the answers count
(`Monitor.forgetsProbes_iff`).
-/

namespace AdaptiveRouting

variable {α σ : Type}

namespace MonitorState

variable {m : MonitorState α} {n : Name} {o : ProbeOutcome}

/-- An outcome adds a round-trip time to the history of a neighbor. -/
def Samples (m : MonitorState α) (o : ProbeOutcome) (n : Name) : Prop :=
  o.kind = .data ∧ ∃ x, (m.measure o.seq).1 = some (n, x)

/-- No answer to a pending probe of a neighbor would count any more. -/
def Spent (m : MonitorState α) (n : Name) : Prop :=
  ∀ (seq : UInt32) probe, m.pending[seq]? = some probe → probe.neighbor = n →
    countedRtt? m.settings (m.clock.now - probe.sentAt) = none

/-- A round-trip time that is too long becomes no shorter. -/
theorem countedRtt?_eq_none_of_le {settings : LinkSettings α} {d d' : Duration}
    (h : countedRtt? settings d = none) (hle : d ≤ d') : countedRtt? settings d' = none := by
  unfold countedRtt? at h ⊢
  split at h
  · cases h
  · next hlow =>
    split at h
    · next hhigh =>
      rw [if_neg fun hlow' => hlow (Nat.lt_of_le_of_lt hle hlow'),
        if_pos (Nat.lt_of_lt_of_le hhigh hle)]
    · cases h

/-- A round-trip time is recorded exactly if the neighbor is stable. -/
theorem isSome_recordRtt (m : MonitorState α) (n : Name) (rtt : Duration) :
    (m.recordRtt n rtt).1.isSome = m.isStable n := by
  unfold recordRtt isStable
  cases m.links[n]? with
  | none => rfl
  | some link => cases hs : link.isStable <;> simp [hs]

/-- A round-trip time is recorded when the probe is pending, it counts and the link is stable. -/
theorem samples_iff : m.Samples o n ↔ o.kind = .data ∧ ∃ probe, m.pending[o.seq]? = some probe ∧
    probe.neighbor = n ∧ countedRtt? m.settings (m.clock.now - probe.sentAt) ≠ none ∧
    m.isStable n = true := by
  unfold Samples
  refine and_congr_right fun _ => ?_
  rcases m.measure_cases o.seq with ⟨hp, hm⟩ | ⟨probe, hp, ⟨hr, hm⟩ | ⟨rtt, hr, hm⟩⟩
  · simp [hp, hm]
  · simp [hp, hm, hr]
  · have hstable := m.isSome_recordRtt probe.neighbor rtt
    rw [hm, hp]
    simp only [Option.map_eq_some_iff, Prod.mk.injEq, Option.some.injEq]
    constructor
    · rintro ⟨x, y, hy, rfl, -⟩
      refine ⟨probe, rfl, rfl, by simp [hr], ?_⟩
      rw [← hstable, hy, Option.isSome_some]
    · rintro ⟨_, rfl, rfl, -, hs⟩
      rw [hs] at hstable
      obtain ⟨y, hy⟩ := Option.isSome_iff_exists.1 hstable
      exact ⟨y, y, hy, rfl, rfl⟩

end MonitorState

namespace Monitor

variable [Scalar α] {m : Monitor α σ} {n : Name}

/-- Whatever happens from now on, a round-trip time of the neighbor is recorded only for a probe
that was sent to it in the meantime. -/
def ForgetsProbes (m : Monitor α σ) (n : Name) : Prop :=
  ∀ ops o, (m.run ops).Samples o n → ∃ time,
    (ProbeRequest.of ⟨n, o.seq⟩ m.settings.probeLifetime, time) ∈ m.dispatchedAlong ops

/-- A pending probe of the neighbor is among those sent, or its answer would not count. -/
def Accounted (m : Monitor α σ) (n : Name) (sent : List (ProbeRequest × Instant)) : Prop :=
  ∀ (seq : UInt32) probe, m.pending[seq]? = some probe → probe.neighbor = n →
    (ProbeRequest.of ⟨n, seq⟩ m.settings.probeLifetime, probe.sentAt) ∈ sent ∨
      MonitorState.countedRtt? m.settings (m.clock.now - probe.sentAt) = none

/-- What is pending after an operation was pending before, or has just been sent; and the clock
does not go back. -/
theorem pending_of_apply (m : Monitor α σ) (op : Operation α σ) :
    (∀ (seq : UInt32) probe, (m.apply op).pending[seq]? = some probe →
      m.pending[seq]? = some probe ∨
      (ProbeRequest.of ⟨probe.neighbor, seq⟩ m.settings.probeLifetime, probe.sentAt) ∈
        m.dispatched op) ∧
    m.clock.now ≤ (m.apply op).clock.now := by
  -- Outcomes are the only operations that take an answer in, and time passes in one kind of
  -- operation; all others send probes or do not, and `sends_apply` says which.
  by_cases houtcome : ∃ o, op = .outcome o
  · obtain ⟨o, rfl⟩ := houtcome
    have herase : ∀ (seq : UInt32) probe, (m.pending.erase o.seq)[seq]? = some probe →
        m.pending[seq]? = some probe := by
      intro seq probe hp
      rcases MonitorState.getElem?_erase_or m.pending o.seq seq with hsame | hnone
      · rwa [← hsame]
      · rw [hnone] at hp
        cases hp
    show (∀ (seq : UInt32) probe, (m.handleOutcome o).pending[seq]? = some probe → _) ∧
      m.clock.now ≤ (m.handleOutcome o).clock.now
    rcases m.handleOutcome_cases o with
      ⟨-, heq⟩ | ⟨_, -, heq | ⟨_, -, -, -, _, _, _, _, _, heq, -⟩⟩ <;> rw [heq]
    · exact ⟨fun seq probe hp => .inl hp, Nat.le_refl _⟩
    · exact ⟨fun seq probe hp => .inl (herase seq probe hp), Nat.le_refl _⟩
    · exact ⟨fun seq probe hp => .inl (herase seq probe hp), Nat.le_refl _⟩
  by_cases hadvance : ∃ elapsed, op = .advance elapsed
  · obtain ⟨elapsed, rfl⟩ := hadvance
    exact ⟨fun seq probe hp => .inl hp, Nat.le_add_right _ _⟩
  · obtain ⟨new, hsends⟩ := sends_apply (fun o ho => houtcome ⟨o, ho⟩) fun d hd => hadvance ⟨d, hd⟩
    refine ⟨fun seq probe hp => (hsends.pending hp).imp_right fun hnew => ?_,
      Nat.le_of_eq hsends.clock.symm⟩
    rw [dispatched_of_sends hsends]
    exact List.mem_map_of_mem hnew

/-- Every operation keeps the account of the probes that are pending for a neighbor. -/
theorem accounted_apply {sent : List (ProbeRequest × Instant)} (h : m.Accounted n sent)
    (op : Operation α σ) : (m.apply op).Accounted n (sent ++ m.dispatched op) := by
  intro seq probe hp hn
  obtain ⟨hpending, hclock⟩ := m.pending_of_apply op
  rw [m.settings_apply op]
  rcases hpending seq probe hp with hold | hnew
  · refine (h seq probe hold hn).imp (List.mem_append_left _) fun hlate => ?_
    exact MonitorState.countedRtt?_eq_none_of_le hlate (Nat.sub_le_sub_right hclock _)
  · rw [hn] at hnew
    exact .inl (List.mem_append_right _ hnew)

/-- A run keeps the account, and the settings. -/
theorem accounted_run {sent : List (ProbeRequest × Instant)} (h : m.Accounted n sent)
    (ops : List (Operation α σ)) : (m.run ops).Accounted n (sent ++ m.dispatchedAlong ops) ∧
      (m.run ops).settings = m.settings := by
  induction ops generalizing m sent with
  | nil => exact ⟨by simpa [dispatchedAlong, steps] using h, rfl⟩
  | cons op ops ih =>
    obtain ⟨hrun, hsettings⟩ := ih (accounted_apply h op)
    refine ⟨?_, hsettings.trans (m.settings_apply op)⟩
    rwa [dispatchedAlong_cons, ← List.append_assoc]

/-- News leaves what has left the monitor, the time and the settings as they are. -/
theorem kept_news (m : Monitor α σ) (e : NeighborEvent) :
    (m.apply (.news e)).outbox = m.outbox ∧ (m.apply (.news e)).clock = m.clock ∧
      (m.apply (.news e)).settings = m.settings := by
  obtain ⟨_, _, _, _, _, _, heq⟩ := (m.informed_handleNews e).rest
  exact ⟨congrArg (·.outbox) heq, congrArg (·.clock) heq, congrArg (·.settings) heq⟩

/-- The past of a known neighbor is over exactly if no answer to a pending probe would count any
more; for if one does, a hello makes the link stable, and the answer is recorded. -/
theorem forgetsProbes_iff {link : LinkState α} (hlink : m.links[n]? = some link) :
    m.ForgetsProbes n ↔ m.Spent n := by
  constructor
  · intro h seq probe hp hn
    by_contra hcounts
    -- The neighbor says hello and answers in time: this makes a sample of a probe from before.
    let hello : Operation α σ := .news (.helloReceived n)
    have hinformed := m.informed_handleNews (.helloReceived n)
    obtain ⟨houtbox, hclock, hsettings⟩ := m.kept_news (.helloReceived n)
    have hpending : (m.apply hello).pending[seq]? = some probe := by
      rcases hinformed.pending seq with hsame | ⟨-, he, -⟩
      · exact hsame.trans hp
      · cases he
    have hstable : (m.apply hello).isStable n = true := by
      have hback := hinformed.link n
      rw [if_pos (by rfl), hlink] at hback
      unfold MonitorState.isStable
      rw [show (m.apply hello).links[n]? = _ from hback]
      rfl
    have hsamples : (m.run [hello]).Samples ⟨n, seq, .data⟩ n := by
      refine MonitorState.samples_iff.2 ⟨rfl, probe, hpending, hn, ?_, hstable⟩
      rwa [run_cons, run_nil, hclock, hsettings]
    obtain ⟨time, hsent⟩ := h [hello] ⟨n, seq, .data⟩ hsamples
    rw [dispatchedAlong_cons, dispatched_eq_nil houtbox] at hsent
    cases hsent
  · intro h ops o hsamples
    obtain ⟨-, probe, hp, hn, hcounts, -⟩ := MonitorState.samples_iff.1 hsamples
    -- At first the account holds with nothing sent, and it is kept along the run.
    have hbegin : m.Accounted n [] := fun seq probe hp hn => .inr (h seq probe hp hn)
    obtain ⟨hrun, hsettings⟩ := accounted_run hbegin ops
    refine ⟨probe.sentAt, ?_⟩
    rw [← hsettings]
    exact (hrun o.seq probe hp hn).resolve_right hcounts

end Monitor

/-- No probe to a neighbor that is reported inactive stays pending. -/
theorem MonitorState.ne_of_pending_deactivated {m : MonitorState α} {n : Name} {link : LinkState α}
    (h : m.links[n]? = some link) {seq : UInt32} {probe : PendingProbe}
    (hp : (m.statusChanged n .inactive).pending[seq]? = some probe) : probe.neighbor ≠ n := by
  have heq : m.statusChanged n .inactive = m.deactivate n link := by
    unfold statusChanged
    rw [h]
  rw [heq, getElem?_pending_deactivate, Option.filter_eq_some_iff] at hp
  simpa using hp.2

/-- News that makes an active link inactive says that its neighbor is inactive, or that too many of
its hellos are missing. The round-trip times are forgotten then. -/
theorem LinkState.informed_inactive {l : LinkState α} {settings : LinkSettings α} {now : Instant}
    {e : NeighborEvent} (h : l.status = .active)
    (h' : (l.informed settings now e).status = .inactive) :
    (e = .statusChanged e.neighbor .inactive ∨
      ∃ timeouts, e = .helloTimeout e.neighbor timeouts ∧ settings.retryThreshold ≤ timeouts) ∧
    (l.informed settings now e).history = [] := by
  cases e with
  | helloSent n => simp [informed, h] at h'
  | helloReceived n => simp [informed] at h'
  | helloTimeout n timeouts =>
    by_cases ht : settings.retryThreshold ≤ timeouts
    · exact ⟨.inr ⟨timeouts, rfl, ht⟩, by simp [informed, ht]⟩
    · simp [informed, ht, h] at h'
  | statusChanged n status =>
    cases status with
    | inactive => exact ⟨.inl rfl, rfl⟩
    | active => simp [informed, h] at h'

/-- **What is forgotten of a neighbor that is given up.** News that makes an active neighbor
inactive is a report that it is inactive, or says that as many hellos are missing as the threshold
allows for. Its history is empty afterwards. No probe to it is pending any more exactly if it was
reported inactive, or none was pending before. And whatever happens later, no answer to a probe from
before is recorded as a round-trip time of the neighbor, exactly if it was reported inactive, or the
answers to all its pending probes would have come too late at that moment. -/
theorem deactivation_forgets_iff [Scalar α] {m : Monitor α σ} {e : NeighborEvent} {n : Name}
    {link link' : LinkState α} (h : m.links[n]? = some link)
    (h' : (m.apply (.news e)).links[n]? = some link') (hactive : link.status = .active)
    (hinactive : link'.status = .inactive) :
    (e = .statusChanged n .inactive ∨
      ∃ timeouts, e = .helloTimeout n timeouts ∧ m.settings.retryThreshold ≤ timeouts) ∧
    (m.apply (.news e)).historyOf n = [] ∧
    ((∀ (seq : UInt32) probe, (m.apply (.news e)).pending[seq]? = some probe → probe.neighbor ≠ n) ↔
      e = .statusChanged n .inactive ∨
        ∀ (seq : UInt32) probe, m.pending[seq]? = some probe → probe.neighbor ≠ n) ∧
    ((m.apply (.news e)).ForgetsProbes n ↔ e = .statusChanged n .inactive ∨ m.Spent n) := by
  have hlink := (m.informed_handleNews e).link n
  rw [show (m.handleNews e).links[n]? = some link' from h', h] at hlink
  split at hlink
  · next hn =>
    obtain rfl := Option.some.inj hlink
    obtain ⟨hevent, hhistory⟩ := LinkState.informed_inactive hactive hinactive
    have hempty : (m.apply (.news e)).historyOf n = [] := by
      unfold MonitorState.historyOf
      rw [h', Option.map_some, hhistory, Option.getD_some]
    rw [← hn] at hevent
    rw [Monitor.forgetsProbes_iff h']
    refine ⟨hevent, hempty, ?_⟩
    rcases hevent with rfl | ⟨timeouts, rfl, -⟩
    · have hdropped : ∀ (seq : UInt32) probe,
          (m.apply (.news (.statusChanged n .inactive))).pending[seq]? = some probe →
          probe.neighbor ≠ n := fun seq probe =>
            m.ne_of_pending_deactivated h
      refine ⟨iff_of_true hdropped (.inl rfl), iff_of_true ?_ (.inl rfl)⟩
      intro seq probe hp hn
      exact absurd hn (hdropped seq probe hp)
    · -- missing hellos leave the pending probes, the time and the settings as they are
      have hother : NeighborEvent.helloTimeout n timeouts ≠ .statusChanged n .inactive := by simp
      exact ⟨(or_iff_right hother).symm, (or_iff_right hother).symm⟩
  · cases hlink
    rw [hactive] at hinactive
    cases hinactive

/-- A monitor that waits for the answer to a probe. -/
def Monitor.expectant : Monitor Float Unit :=
  Monitor.attentive.run [.adoptNeighbors, .sendProbe .nearby]

/-- The neighbor comes back and answers the probe. -/
def Operation.lateAnswer : List (Operation Float Unit) :=
  [.news (.helloReceived .nearby), .advance (.ofMillis 50), .outcome ⟨.nearby, 1, .data⟩]

/-- The late answer is recorded when the neighbor has missed too many hellos, and not when it has
been reported inactive. -/
theorem deactivation_forgets_expectant :
    let missing := Monitor.expectant.apply (.news (.helloTimeout .nearby 3))
    let reported := Monitor.expectant.apply (.news (.statusChanged .nearby .inactive))
    (¬ missing.ForgetsProbes .nearby ∧
      (missing.run Operation.lateAnswer).historyOf .nearby = [.ofMillis 50]) ∧
    reported.ForgetsProbes .nearby ∧
      (reported.run Operation.lateAnswer).historyOf .nearby = [] := by
  intro missing reported
  obtain ⟨link, hlink, hactive⟩ : ∃ link, Monitor.expectant.links[Name.nearby]? = some link ∧
      link.status = .active := ⟨_, rfl, rfl⟩
  obtain ⟨link₁, hlink₁, hinactive₁⟩ : ∃ link, missing.links[Name.nearby]? = some link ∧
      link.status = .inactive := ⟨_, rfl, rfl⟩
  obtain ⟨link₂, hlink₂, hinactive₂⟩ : ∃ link, reported.links[Name.nearby]? = some link ∧
      link.status = .inactive := ⟨_, rfl, rfl⟩
  have hmissing := deactivation_forgets_iff hlink hlink₁ hactive hinactive₁
  have hreported := deactivation_forgets_iff hlink hlink₂ hactive hinactive₂
  refine ⟨⟨fun hforgets => ?_, by decide +kernel⟩, hreported.2.2.2.2 (.inl rfl), by decide +kernel⟩
  rcases hmissing.2.2.2.1 hforgets with he | hspent
  · cases he
  · have hpending : Monitor.expectant.pending[(1 : UInt32)]? = some ⟨.nearby, 0⟩ := rfl
    have hlate := hspent 1 _ hpending rfl
    revert hlate
    decide

end AdaptiveRouting
