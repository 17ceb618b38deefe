import AdaptiveRouting.Proofs.Monitor.ProbeCoverage
import AdaptiveRouting.Proofs.Monitor.ProbeMatching
import AdaptiveRouting.Proofs.Monitor.TimerBookkeeping

/-!
# The cadence of probes

Once the warm-up has ended and a neighbor is armed, its timer is touched by `poll` alone, which arms
it again when it is due: whatever is heard of neighbors and of probes, only the passing of time and
the calls of `poll` decide when the timer falls due (`Beat`). A state that keeps time with such a
beat (`MonitorState.KeepsTime`) goes on doing so with every operation but a stop and a fresh arming
(`Monitor.keepsTime_apply`), hence along a run. Two runs with the same passing of time and the same
calls of `poll` have the same beat, however they differ otherwise (`probe_cadence_undisturbed`).

The timer that is due is handled in the call of `poll` that finds it due, since `poll` handles as
many timers as there are and every timer that is handled before it is one that falls due before it.
-/

namespace AdaptiveRouting

variable {α σ : Type}

/-! ## The beat -/

/-- What decides when a probe falls due: the passing of time and the calls of `poll`. -/
inductive Pace where
  | advance (elapsed : Duration)
  | poll
deriving DecidableEq

/-- The part of an operation that decides when probes fall due. -/
def Operation.pace? : Operation α σ → Option Pace
  | .advance elapsed => some (.advance elapsed)
  | .poll => some .poll
  | _ => none

/-- Neither a stop nor a call that arms a timer afresh. -/
def Operation.LeavesTimers : Operation α σ → Prop
  | .stop | .scheduleProbe _ => False
  | _ => True

/-- The time, and when the next probe falls due. -/
structure Beat where
  now : Instant
  deadline : Instant

/-- A probe that is found due falls due again after a delay. -/
def Beat.after (delay : Duration) (b : Beat) : Pace → Beat
  | .advance elapsed => { b with now := b.now + elapsed }
  | .poll => if b.deadline ≤ b.now then { b with deadline := b.now + delay } else b

namespace MonitorState

variable {m m' next : MonitorState α} {n : Name} {b : Beat}

/-- The deadlines of the live timers of a neighbor. -/
def probeDeadlines (m : MonitorState α) (n : Name) : List Instant :=
  (m.timers.timers.filter (·.payload = .probe n)).map (·.deadline)

/-- After the warm-up, a neighbor is armed for the next beat. -/
structure KeepsTime (m : MonitorState α) (n : Name) (b : Beat) : Prop where
  consistent : TimersConsistent m
  warm : m.IsWarm
  now : m.clock.now = b.now
  /-- The timer of the neighbor falls due at the beat. -/
  timer : ∃ t ∈ m.timers.timers, t.payload = .probe n ∧ t.deadline = b.deadline

/-- The warm-up is over exactly if no live timer stands for its end. -/
theorem TimersConsistent.isWarm_iff (h : TimersConsistent m) :
    m.IsWarm ↔ m.active = true ∧ ∀ t ∈ m.timers.timers, t.payload ≠ .warmUp := by
  refine and_congr_right fun _ => ⟨fun hlive t ht hp => ?_, fun htimers id hid => ?_⟩
  · exact hlive t.id (hp ▸ (TimerQueue.mem_timers.1 ht).2)
  · obtain ⟨deadline, ht⟩ := h.armed.wellFormed.exists_timer hid
    exact htimers _ ht rfl

/-- The neighbor has no other timer. -/
theorem KeepsTime.probeDeadlines (h : KeepsTime m n b) : m.probeDeadlines n = [b.deadline] := by
  obtain ⟨t, ht, hp, hd⟩ := h.timer
  have hnodup : m.timers.timers.Nodup := .of_map _ h.consistent.armed.wellFormed.nodup_ids
  have honly : m.timers.timers.filter (·.payload = .probe n) = [t] := by
    refine List.perm_singleton.1 ((List.perm_ext_iff_of_nodup (hnodup.filter _)
      (List.nodup_singleton t)).2 ?_)
    intro u
    simp only [List.mem_filter, decide_eq_true_eq, List.mem_singleton]
    constructor
    · rintro ⟨hu, hup⟩
      exact h.consistent.unique hu ht hup hp
    · rintro rfl
      exact ⟨ht, hp⟩
  simp [MonitorState.probeDeadlines, honly, hd]

/-- The beat is kept where neither timers nor time change. -/
theorem KeepsTime.of_eq (h : KeepsTime m n b) (htimers : m'.timers = m.timers)
    (hprobes : m'.probeTimers = m.probeTimers) (hactive : m'.active = m.active)
    (hnow : m'.clock.now = m.clock.now) : KeepsTime m' n b where
  consistent := h.consistent.of_eq htimers hprobes hactive
  warm := ⟨hactive.trans h.warm.1, fun id => htimers ▸ h.warm.2 id⟩
  now := hnow.trans h.now
  timer := htimers ▸ h.timer

/-- The beat is kept between states with the same timers. -/
theorem KeepsTime.of_sameTimers (h : KeepsTime m n b) (hsame : SameTimers m m') :
    KeepsTime m' n b := h.of_eq hsame.timers hsame.probeTimers hsame.active hsame.now

/-- To arm a neighbor that is armed does nothing, and arms no other one than is meant. -/
theorem KeepsTime.ensureProbe (h : KeepsTime m n b) (k : Name) :
    KeepsTime (m.ensureProbe k) n b := by
  unfold MonitorState.ensureProbe
  split
  · exact h
  · next hk =>
    obtain ⟨t, ht, hp, hd⟩ := h.timer
    -- The neighbor in question is armed, so it is another one that gets armed here.
    have hne : n ≠ k := by
      rintro rfl
      have harmed := h.consistent.exists_timer_iff.1 ⟨t, ht, hp⟩
      exact hk (Std.ExtTreeMap.contains_iff_mem.2 harmed)
    have hdiffers := timersDiffer_scheduleProbe m k
    have htimers := h.consistent.timers_scheduleProbe h.warm.1 k
    have hc := h.consistent.scheduleProbe k
    refine ⟨hc, hc.isWarm_iff.2 ⟨hdiffers.active.trans h.warm.1, ?_⟩, ?_, t, ?_, hp, hd⟩
    · intro u hu
      rw [htimers, LiveTimers.mem_enter] at hu
      rcases hu with rfl | hu
      · simp
      · exact (h.consistent.isWarm_iff.1 h.warm).2 u (List.mem_filter.1 hu).1
    · rw [hdiffers.clock]
      exact h.now
    · rw [htimers, LiveTimers.mem_enter]
      exact .inr (List.mem_filter.2 ⟨ht, by simp [hp, hne]⟩)

/-- News does not disturb the beat. -/
theorem KeepsTime.handleNews (h : KeepsTime m n b) (e : NeighborEvent) :
    KeepsTime (m.handleNews e) n b := by
  obtain ⟨_, _, _, _, _, _, hrest⟩ := (m.informed_handleNews e).rest
  have hclock : (m.handleNews e).clock = m.clock := congrArg (·.clock) hrest
  obtain ⟨heard, htimers, hprobes, hactive, hcases⟩ := m.handleNews_eq e
  have hensure : (heard.ensureProbe e.neighbor).clock = heard.clock :=
    (timersDiffer_ensureProbe heard e.neighbor).clock
  rcases hcases with ⟨-, heq⟩ | ⟨-, heq⟩
  · rw [heq] at hclock ⊢
    have hnow : heard.clock.now = m.clock.now := by rw [← hensure, hclock]
    exact (h.of_eq htimers hprobes hactive hnow).ensureProbe _
  · rw [heq] at hclock ⊢
    exact h.of_eq htimers hprobes hactive (by rw [hclock])

/-! ## Calls of `poll` -/

/-- The probes that a task sends. -/
def sentFor (m : MonitorState α) : Task → List SentProbe
  | .probe n =>
    if m.isStable n ∧ m.outlet (m.nextRequest n) then [⟨m.nextSeq, n, m.clock.now⟩] else []
  | .warmUp | .report => []

/-- These probes leave the monitor between the two states. -/
def Emits (m : MonitorState α) (probes : List SentProbe) (m' : MonitorState α) : Prop :=
  m'.requests = m.requests ++ probes.map (·.request m.settings.probeLifetime)

/-- Probes leave in two steps as they do in one after the other. -/
theorem Emits.trans {m'' : MonitorState α} {probes probes' : List SentProbe}
    (h : Emits m probes m') (hsettings : m'.settings = m.settings) (h' : Emits m' probes' m'') :
    Emits m (probes ++ probes') m'' := by
  unfold Emits at *
  rw [h', h, hsettings, List.map_append, List.append_assoc]

/-- A task that is not the probe of a neighbor sends it none. -/
theorem neighbor_ne_of_mem_sentFor {task : Task} (htask : task ≠ .probe n) {p : SentProbe}
    (hp : p ∈ m.sentFor task) : p.neighbor ≠ n := by
  cases task with
  | warmUp | report => cases hp
  | probe k =>
    unfold sentFor at hp
    dsimp only at hp
    split at hp
    · rintro rfl
      rw [List.mem_singleton.1 hp] at htask
      exact htask rfl
    · cases hp

/-- The probe of a neighbor is sent to this neighbor. -/
theorem filter_sentFor (m : MonitorState α) (n : Name) :
    (m.sentFor (.probe n)).filter (·.neighbor = n) = m.sentFor (.probe n) := by
  unfold sentFor
  dsimp only
  split <;> simp

/-- A stable neighbor is sent its probe, and another one none. -/
theorem emits_probeIfStable (ha : m.active = true) (n : Name) :
    Emits m (m.sentFor (.probe n)) (m.probeIfStable n) := by
  unfold Emits sentFor probeIfStable
  by_cases hs : m.isStable n = true
  · rw [if_pos (by simp [ha, hs])]
    unfold sendProbe
    dsimp only
    by_cases ho : m.outlet (m.nextRequest n) = true
    · rw [if_pos ho, if_pos ⟨hs, ho⟩]
      simp [requests, Signal.request?, SentProbe.request, nextRequest]
    · rw [if_neg ho, if_neg fun h => ho h.2]
      simp [requests]
  · simp [hs]

section
variable [Scalar α]

/-- A task sends its probes, and no others. -/
theorem emits_perform (ha : m.active = true) (task : Task) :
    Emits m (m.sentFor task) (m.perform task) := by
  cases task with
  | warmUp =>
    obtain ⟨_, _, _, heq⟩ := (timersDiffer_foldl_scheduleProbe m m.stableNeighbors).trans
      (timersDiffer_scheduleReport _)
    simp [Emits, sentFor, perform, heq, requests]
  | report =>
    simp [Emits, sentFor, perform, scheduleReport, report, ha, emit, requests, Signal.request?]
  | probe n =>
    let taken : MonitorState α := { m with probeTimers := m.probeTimers.erase n }
    have hsent : Emits taken (taken.sentFor (.probe n)) (taken.probeIfStable n) :=
      emits_probeIfStable (m := taken) ha n
    obtain ⟨_, _, _, heq⟩ := timersDiffer_scheduleProbe (taken.probeIfStable n) n
    show Emits m (m.sentFor (.probe n)) ((taken.probeIfStable n).scheduleProbe n)
    rw [heq]
    exact hsent

/-- What handling a timer does after the warm-up: the first timer is due and makes way for one of
the same task, and the probes of the task leave the monitor. -/
theorem handleNext?_of_warm (h : TimersConsistent m) (hwarm : m.IsWarm)
    (hnext : m.handleNext? = some next) : ∃ t rest, m.timers.timers = t :: rest ∧
      t.deadline ≤ m.clock.now ∧ next.timers.timers =
        LiveTimers.enter ⟨m.clock.now + m.rearmDelay t.payload, m.timers.nextId, t.payload⟩ rest ∧
      Emits m (m.sentFor t.payload) next ∧ TimersConsistent next ∧ next.IsWarm ∧
      ProbingDiffers m next := by
  obtain ⟨id, task, timers, hpop, rfl⟩ := handleNext?_eq_some_iff.1 hnext
  obtain ⟨deadline, htimers, hdue, -⟩ := h.armed.wellFormed.of_popDue? hpop
  have hnow : deadline ≤ m.clock.now := by
    have hfirst : ⟨deadline, id, task⟩ ∈ m.timers.due m.clock.now := by simp [hdue]
    exact (TimerQueue.mem_due.1 hfirst).2
  obtain ⟨ha, hpayload⟩ := h.isWarm_iff.1 hwarm
  -- After the warm-up no timer stands for its end.
  have htask : task ≠ .warmUp := hpayload ⟨deadline, id, task⟩ (by simp [htimers])
  have hperform := timers_perform h hpop htask
  have hnext' := h.handleNext? hnext
  have hdiffers := probingDiffers_handleNext? hnext
  refine ⟨⟨deadline, id, task⟩, timers.timers, htimers, hnow, hperform, ?_, hnext', ?_, hdiffers⟩
  · exact emits_perform (m := { m with timers }) ha task
  · refine hnext'.isWarm_iff.2 ⟨hdiffers.active.trans ha, fun t ht => ?_⟩
    rw [hperform, LiveTimers.mem_enter] at ht
    rcases ht with rfl | ht
    · exact htask
    · exact hpayload t (by simp [htimers, ht])

/-- A timer in the future is left alone, and no probe is sent to its neighbor. -/
theorem handleDue_of_future (h : TimersConsistent m) (hwarm : m.IsWarm) {t : LiveTimer Task}
    (ht : t ∈ m.timers.timers) (hp : t.payload = .probe n) (hfuture : m.clock.now < t.deadline)
    (bound : Nat) : t ∈ (m.handleDue bound).timers.timers ∧ (m.handleDue bound).IsWarm ∧
      ∃ probes, Emits m probes (m.handleDue bound) ∧ ∀ p ∈ probes, p.neighbor ≠ n := by
  induction bound generalizing m with
  | zero => exact ⟨ht, hwarm, [], by simp [Emits, handleDue], by simp⟩
  | succ bound ih =>
    unfold handleDue
    split
    · exact ⟨ht, hwarm, [], by simp [Emits], by simp⟩
    · next next hnext =>
      obtain ⟨u, rest, htimers, hdue, hreplaced, hemits, hnext', hwarm', hdiffers⟩ :=
        handleNext?_of_warm h hwarm hnext
      -- Whatever is handled is due, and this timer is not.
      have htu : t ≠ u := by
        rintro rfl
        exact Nat.not_le.2 hfuture hdue
      have hother : u.payload ≠ .probe n := fun hup =>
        htu (h.unique ht (by simp [htimers]) hp hup)
      have hmem : t ∈ next.timers.timers := by
        rw [hreplaced, LiveTimers.mem_enter]
        rw [htimers, List.mem_cons] at ht
        exact .inr (ht.resolve_left htu)
      obtain ⟨hlast, hwarm'', probes, hprobes, hnot⟩ := ih hnext' hwarm' hmem (by rwa [hdiffers.clock])
      refine ⟨hlast, hwarm'', m.sentFor u.payload ++ probes, hemits.trans hdiffers.settings hprobes, ?_⟩
      intro p hpmem
      rcases List.mem_append.1 hpmem with hpu | hpmem
      · exact neighbor_ne_of_mem_sentFor hother hpu
      · exact hnot p hpmem

/-- The live timers that fall due before another one. -/
def ahead (m : MonitorState α) (t : LiveTimer Task) : List (LiveTimer Task) :=
  m.timers.timers.filter fun u => Appointment.before (u.deadline, u.id) (t.deadline, t.id)

omit [Scalar α] in
/-- Without jitter the next probe follows after the interval. -/
theorem rearmDelay_probe (hjitter : m.settings.probeJitter < .ofMillis 1) (n : Name) :
    m.rearmDelay (.probe n) = nonzeroDelay m.settings.probeInterval := by
  have hzero : m.settings.probeJitter / 1000000 = 0 := Nat.div_eq_of_lt hjitter
  show m.probeDelay.1 = _
  rw [probeDelay_fst, if_pos hzero]

omit [Scalar α] in
/-- When another timer is handled first, there is one less ahead of a timer that is due, since the
new one falls due later. -/
theorem length_ahead_handled (h : TimersConsistent m) {t u : LiveTimer Task}
    {rest : List (LiveTimer Task)} (htimers : m.timers.timers = u :: rest) (ht : t ∈ rest)
    (hdue : t.deadline ≤ m.clock.now) {task : Task} {delay : Duration}
    (hnext : next.timers.timers =
      LiveTimers.enter ⟨m.clock.now + delay, m.timers.nextId, task⟩ rest) :
    (next.ahead t).length + 1 = (m.ahead t).length := by
  have hordered := h.armed.wellFormed.pairwise_timers
  rw [htimers, List.pairwise_cons] at hordered
  have hid : t.id < m.timers.nextId := by
    have hlive : t ∈ m.timers.timers := by simp [htimers, ht]
    exact h.armed.wellFormed.numbered (TimerQueue.mem_timers.1 hlive).1
  have hlater : Appointment.before (m.clock.now + delay, m.timers.nextId) (t.deadline, t.id) =
      false := by
    rw [← Bool.not_eq_true, Appointment.before_iff]
    rintro (hlt | ⟨-, hlt⟩)
    · exact Nat.not_lt.2 (Nat.le_add_right_of_le hdue) hlt
    · exact Nat.lt_asymm hid hlt
  have hfirst := hordered.1 t ht
  unfold ahead
  rw [hnext, htimers, LiveTimers.filter_enter hlater]
  simp [hfirst]

/-- A timer that is due is handled and armed again, and a probe is sent if the link is stable and
there is a way out. -/
theorem handleDue_of_due (h : TimersConsistent m) (hwarm : m.IsWarm)
    (hjitter : m.settings.probeJitter < .ofMillis 1) {t : LiveTimer Task}
    (ht : t ∈ m.timers.timers) (hp : t.payload = .probe n) (hdue : t.deadline ≤ m.clock.now)
    {bound : Nat} (hbound : (m.ahead t).length < bound) :
    (∃ t' ∈ (m.handleDue bound).timers.timers, t'.payload = .probe n ∧
      t'.deadline = m.clock.now + nonzeroDelay m.settings.probeInterval) ∧
    (m.handleDue bound).IsWarm ∧
    ∃ probes seq, Emits m probes (m.handleDue bound) ∧ probes.filter (·.neighbor = n) =
      if m.isStable n ∧ m.outlet (.of ⟨n, seq⟩ m.settings.probeLifetime)
      then [⟨seq, n, m.clock.now⟩] else [] := by
  induction bound generalizing m with
  | zero => cases hbound
  | succ bound ih =>
    unfold handleDue
    split
    · next hnone =>
      have hmem : t ∈ m.due := TimerQueue.mem_due.2 ⟨ht, hdue⟩
      rcases handleNext?_cases h with ⟨hnil, -⟩ | ⟨_, _, _, _, -, -, -, hsome, -⟩
      · rw [hnil] at hmem
        cases hmem
      · rw [hnone] at hsome
        cases hsome
    · next next hnext =>
      obtain ⟨u, rest, htimers, -, hreplaced, hemits, hnext', hwarm', hdiffers⟩ :=
        handleNext?_of_warm h hwarm hnext
      obtain ⟨timers, probeTimers, drawn, nextSeq, pending, sent, outbox, rfl⟩ := hdiffers
      rw [htimers, List.mem_cons] at ht
      -- The timers ahead of this one come first. Once it has been handled itself, its successor
      -- lies in the future, as a delay is never zero.
      by_cases htu : t = u
      · subst htu
        rw [hp] at hreplaced hemits
        rw [rearmDelay_probe hjitter] at hreplaced
        obtain ⟨hlast, hwarm'', probes, hprobes, hnot⟩ := handleDue_of_future (n := n) hnext' hwarm'
          (t := ⟨m.clock.now + nonzeroDelay m.settings.probeInterval, m.timers.nextId, .probe n⟩)
          (by rw [hreplaced, LiveTimers.mem_enter]; exact .inl rfl) rfl
          (Nat.lt_add_of_pos_right (nonzeroDelay_pos _)) bound
        refine ⟨⟨_, hlast, rfl, rfl⟩, hwarm'', m.sentFor (.probe n) ++ probes, m.nextSeq,
          hemits.trans rfl hprobes, ?_⟩
        have hnone : probes.filter (·.neighbor = n) = [] :=
          List.filter_eq_nil_iff.2 fun p hpmem => by simpa using hnot p hpmem
        rw [List.filter_append, hnone, List.append_nil, filter_sentFor]
        rfl
      · have htrest := ht.resolve_left htu
        have hother : u.payload ≠ .probe n := fun hup =>
          htu (h.unique (by simp [htimers, htrest]) (by simp [htimers]) hp hup)
        have hcount := length_ahead_handled h htimers htrest hdue hreplaced
        obtain ⟨harmed, hwarm'', probes, seq, hprobes, hsent⟩ := ih hnext' hwarm' hjitter
          (by rw [hreplaced, LiveTimers.mem_enter]; exact .inr htrest) hdue (by omega)
        refine ⟨harmed, hwarm'', m.sentFor u.payload ++ probes, seq, hemits.trans rfl hprobes, ?_⟩
        have hnone : (m.sentFor u.payload).filter (·.neighbor = n) = [] :=
          List.filter_eq_nil_iff.2 fun p hpmem => by
            simpa using neighbor_ne_of_mem_sentFor hother hpmem
        rw [List.filter_append, hnone, List.nil_append, hsent]
        rfl

/-- A call of `poll` goes with the beat, and sends one probe to the neighbor at most. -/
theorem KeepsTime.poll (h : KeepsTime m n b) (hjitter : m.settings.probeJitter < .ofMillis 1) :
    KeepsTime m.poll n (b.after (nonzeroDelay m.settings.probeInterval) .poll) ∧
    ∃ probes seq, Emits m probes m.poll ∧ probes.filter (·.neighbor = n) =
      if b.deadline ≤ m.clock.now ∧ m.isStable n ∧
        m.outlet (.of ⟨n, seq⟩ m.settings.probeLifetime)
      then [⟨seq, n, m.clock.now⟩] else [] := by
  obtain ⟨t, ht, hp, hd⟩ := h.timer
  have hnow : m.poll.clock.now = b.now := by
    rw [m.probingDiffers_poll.clock]
    exact h.now
  have hc : TimersConsistent m.poll := h.consistent.handleDue _
  by_cases hdue : b.deadline ≤ b.now
  -- There are fewer timers ahead than `poll` handles.
  · have hbound : (m.ahead t).length < m.timers.size := by
      rw [h.consistent.armed.wellFormed.size_eq]
      refine List.length_filter_lt_length_iff_exists.2 ⟨t, ht, ?_⟩
      simp [Appointment.before]
    obtain ⟨harmed, hwarm, probes, seq, hprobes, hsent⟩ := handleDue_of_due h.consistent h.warm
      hjitter ht hp (by rw [hd, h.now]; exact hdue) hbound
    refine ⟨?_, probes, seq, hprobes, ?_⟩
    · rw [Beat.after, if_pos hdue]
      exact ⟨hc, hwarm, hnow, h.now ▸ harmed⟩
    · rw [hsent, h.now]
      simp [hdue]
  · have hfuture : m.clock.now < t.deadline := by
      rw [hd, h.now]
      exact Nat.lt_of_not_le hdue
    obtain ⟨hkept, hwarm, probes, hprobes, hnot⟩ :=
      handleDue_of_future h.consistent h.warm ht hp hfuture m.timers.size
    refine ⟨?_, probes, 0, hprobes, ?_⟩
    · rw [Beat.after, if_neg hdue]
      exact ⟨hc, hwarm, hnow, t, hkept, hp, hd⟩
    · rw [h.now, if_neg fun hsend => hdue hsend.1]
      exact List.filter_eq_nil_iff.2 fun p hpmem => by simpa using hnot p hpmem

end

end MonitorState

/-! ## Runs -/

namespace Monitor

variable [Scalar α] {m : Monitor α σ} {n : Name} {b : Beat}

/-- A call of `poll` sends a probe to a neighbor if its timer, which falls due at the deadline, is
due, its link is stable and there is a way out, and else it sends none. -/
def ProbesAt (m : Monitor α σ) (n : Name) (deadline : Instant) : Prop :=
  ∃ (probes : List SentProbe) (seq : UInt32),
    m.dispatched .poll = probes.map (fun p =>
      (p.request m.settings.probeLifetime, m.clock.now)) ∧
    probes.filter (·.neighbor = n) =
      if deadline ≤ m.clock.now ∧ m.isStable n ∧
        m.outlet (.of ⟨n, seq⟩ m.settings.probeLifetime)
      then [⟨seq, n, m.clock.now⟩] else []

/-- A neighbor that keeps the beat is probed at the next one. -/
theorem probesAt_of_keepsTime (h : m.KeepsTime n b)
    (hjitter : m.settings.probeJitter < .ofMillis 1) : m.ProbesAt n b.deadline := by
  obtain ⟨-, probes, seq, hemits, hsent⟩ := h.poll hjitter
  refine ⟨probes, seq, ?_, hsent⟩
  have hrequests : (m.apply .poll).requests =
      m.requests ++ probes.map (·.request m.settings.probeLifetime) := hemits
  rw [dispatched, hrequests, List.drop_left, List.map_map]
  rfl

/-- Whatever happens, save a stop and a fresh arming, it is the beat that goes on. -/
theorem keepsTime_apply (h : m.KeepsTime n b) (hjitter : m.settings.probeJitter < .ofMillis 1)
    {op : Operation α σ} (hop : op.LeavesTimers) : (m.apply op).KeepsTime n
      (op.pace?.elim b (b.after (MonitorState.nonzeroDelay m.settings.probeInterval))) := by
  cases op with
  | stop | scheduleProbe k => exact hop.elim
  | poll => exact (h.poll hjitter).1
  | advance elapsed =>
    have hc : (m.apply (.advance elapsed)).TimersConsistent := h.consistent.of_eq rfl rfl rfl
    exact ⟨hc, h.warm, congrArg (· + elapsed) h.now, h.timer⟩
  | start =>
    have hsame : m.start = m.toMonitorState := by simp [MonitorState.start, h.warm.1]
    show MonitorState.KeepsTime m.start n b
    rwa [hsame]
  | news e => exact h.handleNews e
  | _ => exact h.of_sameTimers (m.sameTimers_apply (by exact trivial))

/-- Along a run the beat depends on nothing but the passing of time and the calls of `poll`. -/
theorem keepsTime_run (h : m.KeepsTime n b) (hjitter : m.settings.probeJitter < .ofMillis 1)
    {ops : List (Operation α σ)} (hops : ∀ op ∈ ops, op.LeavesTimers) :
    (m.run ops).KeepsTime n ((ops.filterMap (·.pace?)).foldl
      (Beat.after (MonitorState.nonzeroDelay m.settings.probeInterval)) b) ∧
    (m.run ops).settings = m.settings := by
  induction ops generalizing m b with
  | nil => exact ⟨h, rfl⟩
  | cons op ops ih =>
    obtain ⟨hop, hops⟩ := List.forall_mem_cons.1 hops
    have hsettings := m.settings_apply op
    have hnext := keepsTime_apply h hjitter hop
    obtain ⟨hrun, hkept⟩ := ih hnext (by rwa [hsettings]) hops
    rw [hsettings] at hrun hkept
    refine ⟨?_, hkept⟩
    rw [run_cons, List.filterMap_cons]
    cases hpace : op.pace? <;> simpa [hpace] using hrun

end Monitor

/-- **Nothing but time and `poll` decides when a neighbor is probed.** Take a monitor after its
warm-up, without jitter, and a neighbor that is armed. In any two runs with the same passing of time
and the same calls of `poll`, without a stop and without a timer that is armed afresh, but with
whatever news, outcomes and other operations in between, the neighbor has one live timer, with the
same deadline at the same time. So a call of `poll` finds it due in both runs or in neither, and
whether it sends a probe then depends on the link and on the way out alone. -/
theorem probe_cadence_undisturbed [Scalar α] {m : Monitor α σ} (hm : m.Reachable)
    (hwarm : m.IsWarm) (hjitter : m.settings.probeJitter < .ofMillis 1) {n : Name}
    (harmed : n ∈ m.probeTimers) {ops ops' : List (Operation α σ)}
    (hops : ∀ op ∈ ops, op.LeavesTimers) (hops' : ∀ op ∈ ops', op.LeavesTimers)
    (hpace : ops.filterMap (·.pace?) = ops'.filterMap (·.pace?)) :
    ∃ deadline,
      (m.run ops).probeDeadlines n = [deadline] ∧ (m.run ops').probeDeadlines n = [deadline] ∧
      (m.run ops).clock.now = (m.run ops').clock.now ∧
      (m.run ops).ProbesAt n deadline ∧ (m.run ops').ProbesAt n deadline := by
  have hc := hm.timersConsistent
  obtain ⟨t, ht, hp⟩ := hc.exists_timer_iff.2 harmed
  have hbegin : m.KeepsTime n ⟨m.clock.now, t.deadline⟩ := ⟨hc, hwarm, rfl, t, ht, hp, rfl⟩
  obtain ⟨hrun, hsettings⟩ := Monitor.keepsTime_run hbegin hjitter hops
  obtain ⟨hrun', hsettings'⟩ := Monitor.keepsTime_run hbegin hjitter hops'
  rw [hpace] at hrun
  refine ⟨_, hrun.probeDeadlines, hrun'.probeDeadlines, hrun.now.trans hrun'.now.symm, ?_, ?_⟩
  · exact Monitor.probesAt_of_keepsTime hrun (by rwa [hsettings])
  · exact Monitor.probesAt_of_keepsTime hrun' (by rwa [hsettings'])

/-- A monitor after its warm-up, which probes its neighbor without jitter. -/
def Monitor.punctual : Monitor Float Unit :=
  (Monitor.idle
    { (Surroundings.quiet : Surroundings Float) with
      neighbors := .ofList [⟨.nearby, .active, 10.0, 10.0, 0⟩] }
    { LinkSettings.standard with probeJitter := 0 } ()).run
      [.adoptNeighbors, .start, .advance (.ofSeconds 30), .poll]

/-- The neighbor is heard of all the time. -/
def Operation.calm : List (Operation Float Unit) :=
  [.advance (.ofSeconds 10), .news (.helloReceived .nearby), .advance (.ofSeconds 20)]

/-- The neighbor comes and goes and stays away in the end. -/
def Operation.flapping : List (Operation Float Unit) :=
  [.news (.statusChanged .nearby .inactive), .advance (.ofSeconds 10),
    .news (.statusChanged .nearby .active), .outcome ⟨.nearby, 1, .timeout⟩,
    .advance (.ofSeconds 20), .news (.helloTimeout .nearby 3)]

/-- The neighbor that stays away is due at the same time as the other one, but not probed. -/
theorem cadence_undisturbed_by_flapping :
    (∃ deadline, (Monitor.punctual.run Operation.calm).probeDeadlines .nearby = [deadline] ∧
      (Monitor.punctual.run Operation.flapping).probeDeadlines .nearby = [deadline] ∧
      (Monitor.punctual.run Operation.calm).clock.now =
        (Monitor.punctual.run Operation.flapping).clock.now ∧
      (Monitor.punctual.run Operation.calm).ProbesAt .nearby deadline ∧
      (Monitor.punctual.run Operation.flapping).ProbesAt .nearby deadline) ∧
    ((Monitor.punctual.run Operation.calm).dispatched .poll).length = 1 ∧
    (Monitor.punctual.run Operation.flapping).dispatched .poll = [] := by
  have hreachable : Monitor.punctual.Reachable := (Monitor.Reachable.idle _ _ _).run _
  have htasks : Monitor.punctual.timers.timers.map (·.payload) = [.probe .nearby, .report] := by
    decide +kernel
  have hwarm : Monitor.punctual.IsWarm := by
    refine hreachable.timersConsistent.isWarm_iff.2 ⟨rfl, fun t ht hp => ?_⟩
    have hmem : t.payload ∈ Monitor.punctual.timers.timers.map (·.payload) :=
      List.mem_map_of_mem ht
    simp [htasks, hp] at hmem
  have harmed : Name.nearby ∈ Monitor.punctual.probeTimers := by
    have hmem : Task.probe .nearby ∈ Monitor.punctual.timers.timers.map (·.payload) := by
      simp [htasks]
    exact hreachable.timersConsistent.exists_timer_iff.1 (List.mem_map.1 hmem)
  exact ⟨probe_cadence_undisturbed hreachable hwarm (by decide) harmed
    (by simp [Operation.calm, Operation.LeavesTimers])
    (by simp [Operation.flapping, Operation.LeavesTimers]) rfl, rfl, rfl⟩

end AdaptiveRouting
