import AdaptiveRouting.Proofs.Monitor.News
import Mathlib.Algebra.Group.Nat.Defs
import Mathlib.Data.List.Nodup
import Mathlib.Data.List.Perm.Subperm

/-!
# The books of the probes

Every probe takes the next number, whether it can be sent or not. A `Ledger` states what the monitor
knows of its probes in terms of the history that led to it: how often a probe was to be sent, which
probes were sent, and which of their numbers have been answered with a round-trip time that counts.
The pending probes are some of those sent, and none of those answered. As long as there are no more
than 2³² calls, no number comes twice, so that there are at least as many probes sent as there are
answered and pending ones (`Ledger.measured_add_pending_le`).

The operations of the monitor extend the books: a call of `poll` sends some probes (`Sends`), and
the outcome of a pending probe takes it off the pending ones, with or without an answer.
-/

namespace AdaptiveRouting

/-- A probe that was sent. -/
structure SentProbe where
  seq : UInt32
  neighbor : Name
  sentAt : Instant

def SentProbe.request (p : SentProbe) (lifetime : Duration) : ProbeRequest :=
  .of ⟨p.neighbor, p.seq⟩ lifetime

/-- The request that a signal stands for. -/
def Signal.request? {α : Type} : Signal α → Option ProbeRequest
  | .request r => some r
  | .report _ => none

/-- The number of the probe of a call, counted from zero. -/
def seqOfCall (k : Nat) : UInt32 := .ofNat (1 + k)

/-- Fewer than 2³² calls have different numbers. -/
theorem seqOfCall_inj {j k : Nat} (hj : j < 2 ^ 32) (hk : k < 2 ^ 32)
    (h : seqOfCall j = seqOfCall k) : j = k := by
  have := congrArg UInt32.toNat h
  simp only [seqOfCall, UInt32.toNat_ofNat'] at this
  omega

/-- The next call has the next number, which wraps around. -/
theorem seqOfCall_add_one (k : Nat) : seqOfCall k + 1 = seqOfCall (k + 1) := by
  apply UInt32.toNat_inj.1
  simp only [seqOfCall, UInt32.toNat_add, UInt32.toNat_ofNat', UInt32.toNat_one]
  omega

namespace MonitorState

variable {α : Type} {m m' m'' : MonitorState α}

/-- The requests that have left the monitor, oldest first. -/
def requests (m : MonitorState α) : List ProbeRequest := m.outbox.filterMap Signal.request?

/-- The books after `calls` calls to send a probe, of which those in `sent` were sent and those
numbered in `answered` were answered. -/
structure Ledger (m : MonitorState α) (calls : Nat) (sent : List SentProbe)
    (answered : List UInt32) : Prop where
  /-- The next number is that of the next call. -/
  next : m.nextSeq = seqOfCall calls
  /-- The probes sent have the numbers of their calls, in order. -/
  numbered : (sent.map (·.seq)).Sublist ((List.range calls).map seqOfCall)
  /-- The pending probes were sent. -/
  pending {seq : UInt32} {probe : PendingProbe} : m.pending[seq]? = some probe →
    ⟨seq, probe.neighbor, probe.sentAt⟩ ∈ sent
  /-- The probes answered were sent. -/
  answered_sent {seq : UInt32} : seq ∈ answered → seq ∈ sent.map (·.seq)
  /-- The probes answered are no longer pending. -/
  answered_gone {seq : UInt32} : seq ∈ answered → m.pending[seq]? = none
  /-- No probe is answered twice. -/
  answered_once : answered.Nodup
  /-- The probes sent are counted. -/
  count_sent : m.stats.sent = sent.length
  /-- The probes answered are counted. -/
  count_measured : m.stats.measured = answered.length

section
variable {calls : Nat} {sent : List SentProbe} {answered : List UInt32}

/-- A new monitor has sent nothing. -/
theorem ledger_idle (surroundings : Surroundings α) (settings : LinkSettings α) :
    Ledger (.idle surroundings settings) 0 [] [] where
  next := rfl
  numbered := .refl _
  pending h := by simp [idle] at h
  answered_sent h := by cases h
  answered_gone h := by cases h
  answered_once := .nil
  count_sent := rfl
  count_measured := rfl

/-- The numbers of at most 2³² calls differ. -/
theorem nodup_seqOfCall (h : calls ≤ 2 ^ 32) : ((List.range calls).map seqOfCall).Nodup := by
  refine List.Nodup.map_on (fun j hj k hk => ?_) List.nodup_range
  rw [List.mem_range] at hj hk
  exact seqOfCall_inj (by omega) (by omega)

/-- No two of at most 2³² calls send a probe under the same number. -/
theorem Ledger.nodup (h : Ledger m calls sent answered) (hcalls : calls ≤ 2 ^ 32) :
    (sent.map (·.seq)).Nodup :=
  (nodup_seqOfCall hcalls).sublist h.numbered

/-- A number is that of a probe before, or it is free. -/
theorem Ledger.nextSeq_notMem (h : Ledger m calls sent answered) (hcalls : calls < 2 ^ 32) :
    m.nextSeq ∉ sent.map (·.seq) := by
  intro hmem
  obtain ⟨k, hk, heq⟩ := List.mem_map.1 (h.numbered.subset hmem)
  rw [List.mem_range] at hk
  rw [h.next] at heq
  have := seqOfCall_inj (by omega) hcalls heq
  omega

/-- Every probe sent is answered or pending at most, and not both. -/
theorem Ledger.measured_add_pending_le (h : Ledger m calls sent answered) :
    m.stats.measured + m.pending.size ≤ m.stats.sent := by
  have hnodup : (answered ++ m.pending.keys).Nodup := by
    refine List.nodup_append.2 ⟨h.answered_once, Std.ExtTreeMap.nodup_keys, ?_⟩
    rintro seq hseq k hk rfl
    have hnone := h.answered_gone hseq
    have hsome := Std.ExtTreeMap.isSome_getElem?_iff_mem.2 (Std.ExtTreeMap.mem_keys.1 hk)
    rw [hnone] at hsome
    cases hsome
  have hsub : answered ++ m.pending.keys ⊆ sent.map (·.seq) := by
    intro seq hseq
    rcases List.mem_append.1 hseq with hseq | hseq
    · exact h.answered_sent hseq
    · obtain ⟨probe, hp⟩ := Option.isSome_iff_exists.1
        (Std.ExtTreeMap.isSome_getElem?_iff_mem.2 (Std.ExtTreeMap.mem_keys.1 hseq))
      exact List.mem_map.2 ⟨_, h.pending hp, rfl⟩
  have := (List.subperm_of_subset hnodup hsub).length_le
  rw [List.length_append, List.length_map, Std.ExtTreeMap.length_keys] at this
  rw [h.count_measured, h.count_sent]
  exact this

/-! ## Entries -/

/-- The ledger is kept where nothing is sent and pending probes are given up at most. -/
theorem Ledger.of_pending_sub (h : Ledger m calls sent answered)
    (hnext : m'.nextSeq = m.nextSeq) (hsent : m'.stats.sent = m.stats.sent)
    (hmeasured : m'.stats.measured = m.stats.measured)
    (hpending : ∀ seq : UInt32, m'.pending[seq]? = m.pending[seq]? ∨ m'.pending[seq]? = none) :
    Ledger m' calls sent answered where
  next := hnext.trans h.next
  numbered := h.numbered
  pending {seq _} hp := by
    rcases hpending seq with heq | hnone
    · exact h.pending (heq ▸ hp)
    · rw [hnone] at hp
      cases hp
  answered_sent := h.answered_sent
  answered_gone {seq} hseq := by
    rcases hpending seq with heq | hnone
    · rw [heq]
      exact h.answered_gone hseq
    · exact hnone
  answered_once := h.answered_once
  count_sent := hsent.trans h.count_sent
  count_measured := hmeasured.trans h.count_measured

/-- What is pending after a number has been erased was pending before. -/
theorem getElem?_erase_or (pending : Std.ExtTreeMap UInt32 PendingProbe compare)
    (seq k : UInt32) : (pending.erase seq)[k]? = pending[k]? ∨ (pending.erase seq)[k]? = none := by
  rw [Std.ExtTreeMap.getElem?_erase]
  split
  · exact .inr rfl
  · exact .inl rfl

/-- An answer moves a pending probe to those that are answered. -/
theorem Ledger.answer (h : Ledger m calls sent answered) {seq : UInt32} {probe : PendingProbe}
    (hp : m.pending[seq]? = some probe) (hnext : m'.nextSeq = m.nextSeq)
    (hsent : m'.stats.sent = m.stats.sent) (hmeasured : m'.stats.measured = m.stats.measured + 1)
    (hpending : m'.pending = m.pending.erase seq) :
    Ledger m' calls sent (answered ++ [seq]) := by
  -- What is pending has not been answered yet.
  have hnew : seq ∉ answered := fun hseq => by
    rw [h.answered_gone hseq] at hp
    cases hp
  have hsub : ∀ k : UInt32, m'.pending[k]? = m.pending[k]? ∨ m'.pending[k]? = none := fun k => by
    rw [hpending]
    exact getElem?_erase_or _ seq k
  refine ⟨hnext.trans h.next, h.numbered, fun {k _} hk => ?_, fun {k} hk => ?_, fun {k} hk => ?_,
    ?_, hsent.trans h.count_sent, ?_⟩
  · rcases hsub k with heq | hnone
    · exact h.pending (heq ▸ hk)
    · rw [hnone] at hk
      cases hk
  · rcases List.mem_append.1 hk with hk | hk
    · exact h.answered_sent hk
    · rw [List.mem_singleton.1 hk]
      exact List.mem_map.2 ⟨_, h.pending hp, rfl⟩
  · rcases List.mem_append.1 hk with hk | hk
    · rcases hsub k with heq | hnone
      · rw [heq]
        exact h.answered_gone hk
      · exact hnone
    · rw [List.mem_singleton.1 hk, hpending, Std.ExtTreeMap.getElem?_erase_self]
  · exact List.nodup_append.2 ⟨h.answered_once, List.nodup_singleton _, fun a ha b hb => by
      rw [List.mem_singleton.1 hb]
      rintro rfl
      exact hnew ha⟩
  · rw [hmeasured, h.count_measured, List.length_append, List.length_singleton]

/-- A probe is sent under the next number. -/
theorem Ledger.send (h : Ledger m calls sent answered) (hcalls : calls < 2 ^ 32) {n : Name}
    {now : Instant} (hnext : m'.nextSeq = m.nextSeq + 1)
    (hsent : m'.stats.sent = m.stats.sent + 1) (hmeasured : m'.stats.measured = m.stats.measured)
    (hpending : m'.pending = m.pending.insert m.nextSeq ⟨n, now⟩) :
    Ledger m' (calls + 1) (sent ++ [⟨m.nextSeq, n, now⟩]) answered := by
  -- As long as the numbers suffice, the next one is that of no probe before.
  have hfree := h.nextSeq_notMem hcalls
  refine ⟨?_, ?_, fun {k probe} hk => ?_, fun {k} hk => ?_, fun {k} hk => ?_, h.answered_once, ?_,
    hmeasured.trans h.count_measured⟩
  · rw [hnext, h.next, seqOfCall_add_one]
  · rw [List.range_succ, List.map_append, List.map_append]
    refine h.numbered.append ?_
    simp [h.next]
  · rw [hpending, Std.ExtTreeMap.getElem?_insert] at hk
    split at hk
    · next hseq =>
      obtain rfl := Std.LawfulEqCmp.eq_of_compare hseq
      cases hk
      exact List.mem_append_right _ (List.mem_singleton_self _)
    · exact List.mem_append_left _ (h.pending hk)
  · rw [List.map_append]
    exact List.mem_append_left _ (h.answered_sent hk)
  · have hne : m.nextSeq ≠ k := fun hseq => hfree (hseq ▸ h.answered_sent hk)
    rw [hpending, Std.ExtTreeMap.getElem?_insert, if_neg (by simpa using hne), h.answered_gone hk]
  · rw [hsent, h.count_sent, List.length_append, List.length_singleton]

/-- A number is used up by a probe that cannot be sent. -/
theorem Ledger.skip (h : Ledger m calls sent answered) (hnext : m'.nextSeq = m.nextSeq + 1)
    (hsent : m'.stats.sent = m.stats.sent) (hmeasured : m'.stats.measured = m.stats.measured)
    (hpending : m'.pending = m.pending.erase m.nextSeq) :
    Ledger m' (calls + 1) sent answered := by
  have herased : Ledger { m with pending := m.pending.erase m.nextSeq } calls sent answered :=
    h.of_pending_sub rfl rfl rfl (getElem?_erase_or _ _)
  refine ⟨?_, h.numbered.trans ?_, fun hk => ?_, h.answered_sent, fun hk => ?_, h.answered_once,
    hsent.trans h.count_sent, hmeasured.trans h.count_measured⟩
  · rw [hnext, h.next, seqOfCall_add_one]
  · rw [List.range_succ, List.map_append]
    exact List.sublist_append_left _ _
  · rw [hpending] at hk
    exact herased.pending hk
  · rw [hpending]
    exact herased.answered_gone hk

end

/-! ## Sending -/

/-- The second state is the first one after so many calls to send a probe, which have sent these
probes. -/
structure Sends (m : MonitorState α) (calls : Nat) (new : List SentProbe) (m' : MonitorState α) :
    Prop where
  /-- The calls are entered in the books. -/
  ledger {before : Nat} {sent : List SentProbe} {answered : List UInt32} :
    Ledger m before sent answered → before + calls ≤ 2 ^ 32 →
    Ledger m' (before + calls) (sent ++ new) answered
  /-- The requests leave the monitor. -/
  requests : m'.requests = m.requests ++ new.map (·.request m.settings.probeLifetime)
  /-- The probes are sent at once. -/
  now {p : SentProbe} : p ∈ new → p.sentAt = m.clock.now
  settings : m'.settings = m.settings
  clock : m'.clock.now = m.clock.now
  /-- What is pending was so before, or is one of these probes. -/
  pending {seq : UInt32} {probe : PendingProbe} : m'.pending[seq]? = some probe →
    m.pending[seq]? = some probe ∨ ⟨seq, probe.neighbor, probe.sentAt⟩ ∈ new

/-- What is sent in two steps is sent in one after the other. -/
theorem Sends.trans {calls calls' : Nat} {new new' : List SentProbe} (h : Sends m calls new m')
    (h' : Sends m' calls' new' m'') : Sends m (calls + calls') (new ++ new') m'' where
  ledger hm hcalls := by
    have := h'.ledger (h.ledger hm (by omega)) (by omega)
    rwa [Nat.add_assoc, List.append_assoc] at this
  requests := by
    rw [h'.requests, h.requests, h.settings, List.map_append, List.append_assoc]
  now hp := (List.mem_append.1 hp).elim h.now fun hp => (h'.now hp).trans h.clock
  settings := h'.settings.trans h.settings
  clock := h'.clock.trans h.clock
  pending hp := by
    rcases h'.pending hp with hp | hnew
    · exact (h.pending hp).imp_right (List.mem_append_left _)
    · exact .inr (List.mem_append_right _ hnew)

/-- Whatever takes no number sends nothing, even if it gives up pending probes. -/
theorem Sends.of_pending_sub (hnext : m'.nextSeq = m.nextSeq) (hsent : m'.stats.sent = m.stats.sent)
    (hmeasured : m'.stats.measured = m.stats.measured)
    (hpending : ∀ seq : UInt32, m'.pending[seq]? = m.pending[seq]? ∨ m'.pending[seq]? = none)
    (hrequests : m'.requests = m.requests) (hsettings : m'.settings = m.settings)
    (hclock : m'.clock.now = m.clock.now) : Sends m 0 [] m' where
  ledger hm _ := by
    rw [Nat.add_zero, List.append_nil]
    exact hm.of_pending_sub hnext hsent hmeasured hpending
  requests := by rw [hrequests, List.map_nil, List.append_nil]
  now hp := absurd hp List.not_mem_nil
  settings := hsettings
  clock := hclock
  pending {seq _} hp := by
    rcases hpending seq with hsame | hnone
    · exact .inl (hsame ▸ hp)
    · rw [hnone] at hp
      cases hp

/-- Arming and disarming sends nothing. -/
theorem TimersDiffer.sends (h : TimersDiffer m m') : Sends m 0 [] m' := by
  obtain ⟨_, _, _, rfl⟩ := h
  exact .of_pending_sub rfl rfl rfl (fun _ => .inl rfl) rfl rfl rfl

/-- A call takes the next number, and sends one probe at most. -/
theorem sends_sendProbe (m : MonitorState α) (n : Name) :
    ∃ new, Sends m 1 new (m.sendProbe n).2 := by
  rcases m.sendProbe_cases n with heq | heq
  · rw [heq]
    refine ⟨[⟨m.nextSeq, n, m.clock.now⟩], fun h hcalls => h.send hcalls rfl rfl rfl rfl, ?_,
      fun hp => ?_, rfl, rfl, fun {seq probe} hp => ?_⟩
    · simp [requests, Signal.request?, SentProbe.request, nextRequest]
    · rw [List.mem_singleton.1 hp]
    · rw [Std.ExtTreeMap.getElem?_insert] at hp
      split at hp
      · next hseq =>
        obtain rfl := Std.LawfulEqCmp.eq_of_compare hseq
        cases hp
        exact .inr (List.mem_singleton_self _)
      · exact .inl hp
  · rw [heq]
    refine ⟨[], fun h _ => ?_, by simp [requests], fun hp => absurd hp List.not_mem_nil, rfl, rfl,
      fun {seq probe} hp => ?_⟩
    · rw [List.append_nil]
      exact h.skip rfl rfl rfl rfl
    · rcases getElem?_erase_or m.pending m.nextSeq seq with hsame | hnone
      · exact .inl (hsame ▸ hp)
      · rw [hnone] at hp
        cases hp

/-- The calls to send a probe that a task makes. -/
def callsOf (m : MonitorState α) : Task → Nat
  | .probe n => if m.active && m.isStable n then 1 else 0
  | _ => 0

/-- A stable neighbor is probed once, and another one not at all. -/
theorem sends_probeIfStable (m : MonitorState α) (n : Name) :
    ∃ new, Sends m (m.callsOf (.probe n)) new (m.probeIfStable n) := by
  show ∃ new, Sends m (if m.active && m.isStable n then 1 else 0) new
    (if m.active && m.isStable n then (m.sendProbe n).2 else m)
  split
  · exact sends_sendProbe m n
  · exact ⟨[], (TimersDiffer.refl m).sends⟩

section
variable [Scalar α]

/-- A report sends no probe. -/
theorem sends_report (m : MonitorState α) : Sends m 0 [] m.report := by
  unfold report
  split
  · exact .of_pending_sub rfl rfl rfl (fun _ => .inl rfl)
      (by simp [requests, emit, Signal.request?]) rfl rfl
  · exact (TimersDiffer.refl m).sends

/-- A task makes its calls, and sends a probe for each of them at most. -/
theorem sends_perform (m : MonitorState α) (task : Task) :
    ∃ new, Sends m (m.callsOf task) new (m.perform task) := by
  cases task with
  | warmUp =>
    exact ⟨[], ((timersDiffer_foldl_scheduleProbe m _).trans
      (timersDiffer_scheduleReport _)).sends⟩
  | probe n =>
    have herase : TimersDiffer m { m with probeTimers := m.probeTimers.erase n } := ⟨_, _, _, rfl⟩
    obtain ⟨new, hnew⟩ := sends_probeIfStable { m with probeTimers := m.probeTimers.erase n } n
    have := (herase.sends.trans hnew).trans (timersDiffer_scheduleProbe _ n).sends
    rw [Nat.zero_add, Nat.add_zero, List.nil_append, List.append_nil] at this
    exact ⟨new, this⟩
  | report => exact ⟨[], (sends_report m).trans (timersDiffer_scheduleReport _).sends⟩

/-- The calls to send a probe that handling so many timers makes. -/
def callsDue (m : MonitorState α) : Nat → Nat
  | 0 => 0
  | bound + 1 =>
    match m.timers.popDue? m.clock.now with
    | none => 0
    | some (_, task, timers) =>
      callsOf { m with timers } task + callsDue (perform { m with timers } task) bound

/-- Handling timers makes the calls of their tasks one after the other. -/
theorem sends_handleDue (m : MonitorState α) (bound : Nat) :
    ∃ new, Sends m (m.callsDue bound) new (m.handleDue bound) := by
  induction bound generalizing m with
  | zero => exact ⟨[], (TimersDiffer.refl m).sends⟩
  | succ bound ih =>
    unfold handleDue handleNext? callsDue
    cases hpop : m.timers.popDue? m.clock.now with
    | none => exact ⟨[], (TimersDiffer.refl m).sends⟩
    | some p =>
      obtain ⟨id, task, timers⟩ := p
      have htaken : TimersDiffer m { m with timers } := ⟨_, _, _, rfl⟩
      obtain ⟨new, hnew⟩ := sends_perform { m with timers } task
      obtain ⟨new', hnew'⟩ := ih (perform { m with timers } task)
      have := (htaken.sends.trans hnew).trans hnew'
      rw [Nat.zero_add, List.nil_append] at this
      exact ⟨new ++ new', this⟩

end

end MonitorState

end AdaptiveRouting
