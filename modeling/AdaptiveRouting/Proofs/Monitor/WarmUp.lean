import AdaptiveRouting.Proofs.Monitor.ProbeCadence

/-!
# Probes during the warm-up

After a start nothing is armed until the warm-up has ended, unless a neighbor is prompted: there is
news of it, or its timer is armed by hand (`Monitor.Prompts`). Then its first probe is due one probe
interval later. So every live timer of a monitor that warms up is the one that ends the warm-up, or
it can be traced back to such a moment (`MonitorState.WarmsUp`), which every operation keeps
(`Monitor.warmsUp_apply`) and hence every run.

What a call of `poll` sends before the warm-up is over is therefore sent to neighbors that were
prompted a probe interval ago or earlier. If the probe interval is no shorter than the warm-up there
are none, and if it is shorter, a hello is enough to have one (`probes_await_warmUp_iff`).
-/

namespace AdaptiveRouting

variable {α σ : Type}

namespace MonitorState

variable {m m' next : MonitorState α} {n : Name} {due : Name → Instant → Prop} {finish : Instant}

/-! ## The delay of a probe -/

/-- A delay is not shortened by being kept from zero. -/
theorem le_nonzeroDelay (d : Duration) : d ≤ nonzeroDelay d := by
  unfold nonzeroDelay
  split
  · next h => exact h ▸ Nat.zero_le _
  · exact Nat.le_refl d

/-- No jitter makes the delay shorter than the probe interval. -/
theorem probeInterval_le_probeDelay (m : MonitorState α) :
    m.settings.probeInterval ≤ m.probeDelay.1 := by
  rw [probeDelay_fst]
  split
  · exact le_nonzeroDelay _
  · exact Nat.le_trans (Nat.le_add_right _ _) (le_nonzeroDelay _)

/-- The delay is the probe interval when the next random number adds nothing to it. -/
theorem probeDelay_eq_probeInterval (hinterval : m.settings.probeInterval ≠ 0)
    (hjitter : m.jitter m.drawn = 0) : m.probeDelay.1 = m.settings.probeInterval := by
  rw [probeDelay_fst, hjitter, Nat.zero_mod]
  simp [nonzeroDelay, hinterval, Duration.ofMillis]

/-! ## The timers during a warm-up -/

/-- A timer that ends a warm-up, not before it is over, or that stands for a probe that is due. -/
def Foreseen (due : Name → Instant → Prop) (finish : Instant) (t : LiveTimer Task) : Prop :=
  t.payload = .warmUp ∧ finish ≤ t.deadline ∨
  ∃ n d, t.payload = .probe n ∧ due n d ∧ d ≤ t.deadline

/-- A monitor that has been started: until the warm-up is over, it has no timers but those that can
be foreseen, where `due` says from when on a probe to a neighbor may be due. -/
structure WarmsUp (m : MonitorState α) (due : Name → Instant → Prop) (finish : Instant) : Prop where
  consistent : TimersConsistent m
  /-- A warm-up that began now would not be over any earlier. -/
  later : finish ≤ m.clock.now + m.settings.warmUp
  foreseen : m.clock.now < finish → ∀ t ∈ m.timers.timers, Foreseen due finish t

/-- The same timers can be foreseen. -/
theorem WarmsUp.of_sameTimers (h : WarmsUp m due finish) (hsame : SameTimers m m') :
    WarmsUp m' due finish where
  consistent := h.consistent.of_sameTimers hsame
  later := by
    rw [hsame.now, hsame.settings]
    exact h.later
  foreseen := by
    rw [hsame.now, hsame.timers]
    exact h.foreseen

/-- To start again during the warm-up changes nothing about what can be foreseen. -/
theorem WarmsUp.start (h : WarmsUp m due finish) : WarmsUp m.start due finish := by
  have hc := h.consistent.start
  unfold MonitorState.start at hc ⊢
  split
  · exact h
  · next ha =>
    rw [if_neg ha] at hc
    refine ⟨hc, h.later, ?_⟩
    intro hnow t ht
    rcases h.consistent.armed.wellFormed.mem_timers_schedule.1 ht with rfl | ht
    · exact .inl ⟨rfl, h.later⟩
    · exact h.foreseen hnow t ht

/-- A neighbor is armed from now on, if it may be. -/
theorem WarmsUp.scheduleProbe (h : WarmsUp m due finish)
    (hdue : due n (m.clock.now + m.settings.probeInterval)) :
    WarmsUp (m.scheduleProbe n) due finish := by
  have hc := h.consistent.scheduleProbe n
  by_cases ha : m.active = true
  · have htimers := h.consistent.timers_scheduleProbe ha n
    obtain ⟨timers, probeTimers, drawn, heq⟩ := timersDiffer_scheduleProbe m n
    rw [heq] at hc htimers ⊢
    refine ⟨hc, h.later, ?_⟩
    intro hnow t ht
    rw [htimers, LiveTimers.mem_enter, List.mem_filter] at ht
    rcases ht with rfl | ⟨ht, -⟩
    · exact .inr ⟨n, _, rfl, hdue, Nat.add_le_add_left m.probeInterval_le_probeDelay _⟩
    · exact h.foreseen hnow t ht
  · have hsame : m.scheduleProbe n = m := if_neg ha
    rwa [hsame]

/-- A neighbor may be armed for when its probe may be due. -/
theorem WarmsUp.ensureProbe (h : WarmsUp m due finish)
    (hdue : due n (m.clock.now + m.settings.probeInterval)) :
    WarmsUp (m.ensureProbe n) due finish := by
  unfold MonitorState.ensureProbe
  split
  · exact h
  · exact h.scheduleProbe hdue

/-- News arms nobody but a neighbor whose probe may be due in time. -/
theorem WarmsUp.handleNews {e : NeighborEvent} (h : WarmsUp m due finish)
    (hdue : m.Arms e → due e.neighbor (m.clock.now + m.settings.probeInterval)) :
    WarmsUp (m.handleNews e) due finish := by
  obtain ⟨heard, htimers, hprobes, hactive, hcases⟩ := m.handleNews_eq e
  obtain ⟨_, _, _, _, _, _, hrest⟩ := (m.informed_handleNews e).rest
  have hkept : (m.handleNews e).clock = m.clock ∧ (m.handleNews e).settings = m.settings := by
    rw [hrest]
    exact ⟨rfl, rfl⟩
  rcases hcases with ⟨harms, heq⟩ | ⟨-, heq⟩
  · obtain ⟨_, _, _, hensure⟩ := timersDiffer_ensureProbe heard e.neighbor
    have hheard : heard.clock = m.clock ∧ heard.settings = m.settings := by
      rw [heq, hensure] at hkept
      exact hkept
    have hsame : SameTimers m heard :=
      ⟨htimers, hprobes, hactive, hheard.2, congrArg (·.now) hheard.1⟩
    rw [heq]
    refine (h.of_sameTimers hsame).ensureProbe ?_
    rw [hheard.1, hheard.2]
    exact hdue harms
  · rw [heq] at hkept ⊢
    exact h.of_sameTimers ⟨htimers, hprobes, hactive, hkept.2, congrArg (·.now) hkept.1⟩

section
variable [Scalar α]

/-- A monitor that is stopped has no timers to foresee. -/
theorem WarmsUp.stop (h : WarmsUp m due finish) : WarmsUp m.stop due finish := by
  have hc := h.consistent.stop
  unfold MonitorState.stop at hc ⊢
  split
  · next ha =>
    rw [if_pos ha] at hc
    exact ⟨hc, h.later, fun _ t ht => absurd ht List.not_mem_nil⟩
  · exact h

/-- Before the warm-up is over, the timer that is handled stands for a probe that is due. -/
theorem WarmsUp.handleNext? (h : WarmsUp m due finish) (hnow : m.clock.now < finish)
    (hnext : m.handleNext? = some next) : WarmsUp next due finish ∧ ∃ n d,
      due n d ∧ d ≤ m.clock.now ∧ Emits m (m.sentFor (.probe n)) next := by
  have hc := h.consistent.handleNext? hnext
  obtain ⟨_, _, _, _, _, _, _, hdiffers⟩ := probingDiffers_handleNext? hnext
  obtain ⟨id, task, timers, hpop, rfl⟩ := handleNext?_eq_some_iff.1 hnext
  obtain ⟨deadline, htimers, hfirst, -⟩ := h.consistent.armed.wellFormed.of_popDue? hpop
  have hlate : deadline ≤ m.clock.now := by
    have hmem : ⟨deadline, id, task⟩ ∈ m.timers.due m.clock.now := by simp [hfirst]
    exact (TimerQueue.mem_due.1 hmem).2
  have hforeseen : Foreseen due finish ⟨deadline, id, task⟩ :=
    h.foreseen hnow _ (by simp [htimers])
  rcases hforeseen with ⟨-, hover⟩ | ⟨n, d, htask, hdue, hd⟩
  · -- the warm-up would be over
    exact absurd (Nat.le_trans hover hlate) (Nat.not_le.2 hnow)
  · obtain rfl : task = .probe n := htask
    have hdnow : d ≤ m.clock.now := Nat.le_trans hd hlate
    have ha := h.consistent.active_of_popDue? hpop
    have hperform := timers_perform h.consistent hpop (by simp)
    refine ⟨⟨hc, ?_, ?_⟩, n, d, hdue, hdnow, emits_perform (m := { m with timers }) ha (.probe n)⟩
    · rw [hdiffers]
      exact h.later
    · intro _ t ht
      rw [hperform, LiveTimers.mem_enter] at ht
      rcases ht with rfl | ht
      · exact .inr ⟨n, d, rfl, hdue, Nat.le_add_right_of_le hdnow⟩
      · exact h.foreseen hnow t (by simp [htimers, ht])

/-- What is handled before the warm-up is over sends probes that are due. -/
theorem WarmsUp.handleDue (h : WarmsUp m due finish) (hnow : m.clock.now < finish) (bound : Nat) :
    WarmsUp (m.handleDue bound) due finish ∧ ∃ probes, Emits m probes (m.handleDue bound) ∧
      ∀ p ∈ probes, ∃ d, due p.neighbor d ∧ d ≤ m.clock.now := by
  induction bound generalizing m with
  | zero => exact ⟨h, [], by simp [Emits, MonitorState.handleDue], by simp⟩
  | succ bound ih =>
    unfold MonitorState.handleDue
    split
    · exact ⟨h, [], by simp [Emits], by simp⟩
    · next next hnext =>
      obtain ⟨hwarms, n, d, hdue, hd, hemits⟩ := h.handleNext? hnow hnext
      obtain ⟨_, _, _, _, _, _, _, rfl⟩ := probingDiffers_handleNext? hnext
      obtain ⟨hlast, probes, hlater, hprobes⟩ := ih hwarms hnow
      refine ⟨hlast, m.sentFor (.probe n) ++ probes, hemits.trans rfl hlater, ?_⟩
      intro p hp
      rcases List.mem_append.1 hp with hp | hp
      · have hneighbor : p.neighbor = n := by
          by_contra hne
          rw [← filter_sentFor] at hp
          simp [hne] at hp
        exact ⟨d, hneighbor ▸ hdue, hd⟩
      · exact hprobes p hp

/-- A call of `poll` before the warm-up is over leaves what can be foreseen. -/
theorem WarmsUp.poll (h : WarmsUp m due finish) : WarmsUp m.poll due finish := by
  by_cases hnow : m.clock.now < finish
  · exact (h.handleDue hnow _).1
  · have hc : TimersConsistent m.poll := h.consistent.handleDue _
    obtain ⟨_, _, _, _, _, _, _, heq⟩ := m.probingDiffers_poll
    rw [heq] at hc ⊢
    exact ⟨hc, h.later, fun hbefore => absurd hbefore hnow⟩

/-- A call of `poll` sends something if some timers are due and all of them stand for probes that
can be sent. -/
theorem requests_poll_ne (h : TimersConsistent m) (hdue : m.timers.due m.clock.now ≠ [])
    (hprobes : ∀ t ∈ m.timers.due m.clock.now,
      ∃ n, t.payload = .probe n ∧ m.isStable n = true ∧ m.outlet (m.nextRequest n) = true) :
    m.requests.length < m.poll.requests.length := by
  obtain ⟨⟨id, task, timers⟩, hpop⟩ : ∃ p, m.timers.popDue? m.clock.now = some p := by
    rw [← Option.ne_none_iff_exists']
    exact fun hnone => hdue (h.armed.wellFormed.popDue?_eq_none_iff.1 hnone)
  obtain ⟨deadline, htimers, hfirst, -⟩ := h.armed.wellFormed.of_popDue? hpop
  obtain ⟨n, rfl, hstable, houtlet⟩ : ∃ n, task = .probe n ∧ m.isStable n = true ∧
      m.outlet (m.nextRequest n) = true := hprobes ⟨deadline, id, task⟩ (by simp [hfirst])
  have hnext : m.handleNext? = some (perform { m with timers } (.probe n)) :=
    handleNext?_eq_some_iff.2 ⟨id, _, timers, hpop, rfl⟩
  -- After the first probe, `poll` goes on with the other timers, and takes nothing out of the
  -- outbox.
  have hsize : m.timers.size = timers.timers.length + 1 := by
    rw [h.armed.wellFormed.size_eq, htimers, List.length_cons]
  have hpoll : m.poll = (perform { m with timers } (.probe n)).handleDue timers.timers.length := by
    rw [poll, hsize, handleDue, hnext]
  have hemits : Emits m (m.sentFor (.probe n)) (perform { m with timers } (.probe n)) :=
    emits_perform (m := { m with timers }) (h.active_of_popDue? hpop) (.probe n)
  obtain ⟨new, hnew⟩ := sends_handleDue (perform { m with timers } (.probe n)) timers.timers.length
  have hsent : m.sentFor (.probe n) = [⟨m.nextSeq, n, m.clock.now⟩] := if_pos ⟨hstable, houtlet⟩
  rw [hpoll, hnew.requests, hemits, hsent]
  simp

end

end MonitorState

/-! ## Runs -/

namespace Monitor

variable [Scalar α] {m : Monitor α σ} {due : Name → Instant → Prop} {finish : Instant}

/-- An operation on which a neighbor may be armed: its timer is armed by hand, or there is news on
which it is armed. -/
def Prompts (m : Monitor α σ) (op : Operation α σ) (n : Name) : Prop :=
  op = .scheduleProbe n ∨ ∃ e, op = .news e ∧ e.neighbor = n ∧ m.Arms e

/-- An operation arms nobody but a neighbor that it prompts. -/
theorem warmsUp_apply (h : m.WarmsUp due finish) {op : Operation α σ}
    (hop : ∀ n, m.Prompts op n → due n (m.clock.now + m.settings.probeInterval)) :
    (m.apply op).WarmsUp due finish := by
  cases op with
  | start => exact h.start
  | stop => exact h.stop
  | poll => exact h.poll
  | scheduleProbe n => exact h.scheduleProbe (hop n (.inl rfl))
  | news e => exact h.handleNews fun harms => hop _ (.inr ⟨e, rfl, rfl, harms⟩)
  | advance elapsed =>
    have hc : (m.apply (.advance elapsed)).TimersConsistent := h.consistent.of_eq rfl rfl rfl
    have hlater : finish ≤ m.clock.now + elapsed + m.settings.warmUp :=
      Nat.le_trans h.later (Nat.add_le_add_right (Nat.le_add_right _ _) _)
    refine ⟨hc, hlater, ?_⟩
    intro hnow
    exact h.foreseen (Nat.lt_of_le_of_lt (Nat.le_add_right _ _) hnow)
  | _ => exact h.of_sameTimers (m.sameTimers_apply (by exact trivial))

/-- A start begins a warm-up, since an inactive monitor has no timers. -/
theorem warmsUp_start (h : m.TimersConsistent) (ha : m.active = false)
    (due : Name → Instant → Prop) :
    (m.apply .start).WarmsUp due (m.clock.now + m.settings.warmUp) := by
  have hidle : m.WarmsUp due (m.clock.now + m.settings.warmUp) := by
    refine ⟨h, Nat.le_refl _, ?_⟩
    rw [h.idle ha]
    exact fun _ t ht => absurd ht List.not_mem_nil
  exact hidle.start

/-- Should an inactive monitor be started, a call of `poll` after these operations sends no probe
unless the warm-up is over. -/
def AwaitsWarmUp (m : Monitor α σ) (ops : List (Operation α σ)) : Prop :=
  m.active = false →
    ((m.apply .start).run ops).clock.now < m.clock.now + m.settings.warmUp →
    ((m.apply .start).run ops).dispatched .poll = []

/-- A probe that is sent before the warm-up is over is sent to a neighbor that has been prompted
since the start, a probe interval before or earlier. -/
def ProbesWhenPrompted (m : Monitor α σ) (ops : List (Operation α σ)) : Prop :=
  m.active = false →
    ((m.apply .start).run ops).clock.now < m.clock.now + m.settings.warmUp →
    ∀ sent ∈ ((m.apply .start).run ops).dispatched .poll,
      ∃ n seq, sent.1 = .of ⟨n, seq⟩ m.settings.probeLifetime ∧
        ∃ s ∈ (m.apply .start).steps ops, s.1.Prompts s.2 n ∧
          s.1.clock.now + m.settings.probeInterval ≤ ((m.apply .start).run ops).clock.now

/-- Before the warm-up is over, nobody is probed who has not been prompted in time. -/
theorem probesWhenPrompted (h : m.TimersConsistent) (ops : List (Operation α σ)) :
    m.ProbesWhenPrompted ops := by
  intro ha hnow sent hsent
  -- A probe may be due an interval after its neighbor was prompted; this is kept along the run, and
  -- looked at when `poll` is called at its end.
  let due (n : Name) (d : Instant) : Prop := ∃ s ∈ (m.apply .start).steps ops,
    s.1.Prompts s.2 n ∧ s.1.clock.now + m.settings.probeInterval = d
  have hstart := m.settings_apply .start
  obtain ⟨hwarms, hsettings⟩ : ((m.apply .start).run ops).WarmsUp due
      (m.clock.now + m.settings.warmUp) ∧ ((m.apply .start).run ops).settings = m.settings := by
    refine run_keeps (P := fun m' => m'.WarmsUp due (m.clock.now + m.settings.warmUp) ∧
      m'.settings = m.settings) ⟨warmsUp_start h ha due, hstart⟩ ?_
    rintro s hs ⟨hwarms, hsettings⟩
    refine ⟨warmsUp_apply hwarms ?_, (s.1.settings_apply s.2).trans hsettings⟩
    intro n hn
    exact ⟨s, hs, hn, by rw [hsettings]⟩
  obtain ⟨-, probes, hemits, hprobes⟩ :=
    hwarms.handleDue hnow ((m.apply .start).run ops).timers.size
  have hdispatched : ((m.apply .start).run ops).dispatched .poll = probes.map fun p =>
      (p.request m.settings.probeLifetime, ((m.apply .start).run ops).clock.now) := by
    have hrequests : (((m.apply .start).run ops).apply .poll).requests = _ := hemits
    rw [dispatched, hrequests, List.drop_left, List.map_map, hsettings]
    rfl
  rw [hdispatched] at hsent
  obtain ⟨p, hp, rfl⟩ := List.mem_map.1 hsent
  obtain ⟨_, ⟨s, hs, hprompts, rfl⟩, hd⟩ := hprobes p hp
  exact ⟨p.neighbor, p.seq, rfl, s, hs, hprompts, hd⟩

/-! ## A hello during the warm-up -/

/-- A neighbor without cost, known to a monitor that has not been started. -/
def expecting (settings : LinkSettings α) (memory : σ) : Monitor α σ :=
  (idle
    { (Surroundings.quiet : Surroundings α) with
      neighbors := .ofList [⟨.nearby, .active, (0.0 : α), (0.0 : α), 0⟩] } settings memory).run
    [.adoptNeighbors]

/-- The neighbor is heard of, and as much time passes as between two probes. -/
def greeting (settings : LinkSettings α) : List (Operation α σ) :=
  [.news (.helloReceived .nearby), .advance settings.probeInterval]

/-- A hello arms the neighbor although the warm-up is not over. -/
theorem helloReceived_expecting (settings : LinkSettings α) (memory : σ) :
    ∃ links, ((expecting settings memory).apply .start).helloReceived .nearby =
      MonitorState.scheduleProbe
        { ((expecting settings memory).apply .start).toMonitorState with links } .nearby ∧
      links[Name.nearby]?.map (·.isStable) = some true := by
  have hlinks : ((expecting settings memory).apply .start).links =
      (∅ : NameMap (LinkState α)).insert
        .nearby (.configured .nearby .active 0.0 0.0 0 0 settings.historyCapacity) := rfl
  unfold MonitorState.helloReceived
  rw [hlinks, Std.ExtTreeMap.getElem?_insert_self]
  exact ⟨_, rfl, by simp [LinkState.isStable]⟩

/-- Once a probe interval has passed, the timer of the neighbor is due, and the end of the warm-up is
not. -/
theorem due_greeting {settings : LinkSettings α} (hinterval : settings.probeInterval ≠ 0)
    (hwarmUp : settings.probeInterval < settings.warmUp) (memory : σ) :
    let m := ((expecting settings memory).apply .start).run (greeting settings)
    m.timers.due m.clock.now = [⟨0 + settings.probeInterval, 1, .probe .nearby⟩] ∧
      m.isStable .nearby = true ∧ m.outlet (m.nextRequest .nearby) = true := by
  let started : Monitor α σ := (expecting settings memory).apply .start
  let last : Monitor α σ := started.run (greeting settings)
  have hreachable : started.Reachable := ((Reachable.idle _ _ _).run _).apply _
  obtain ⟨links, hheard, hstable⟩ := helloReceived_expecting settings memory
  let heard : MonitorState α := { started.toMonitorState with links }
  have hc : heard.TimersConsistent := hreachable.timersConsistent.of_eq rfl rfl rfl
  obtain ⟨timers, probeTimers, drawn, hdiffers⟩ :=
    MonitorState.timersDiffer_scheduleProbe heard .nearby
  have htimers : timers.timers = LiveTimers.enter
      ⟨0 + settings.probeInterval, 1, .probe .nearby⟩ [⟨0 + settings.warmUp, 0, .warmUp⟩] := by
    have harmed := hc.timers_scheduleProbe rfl .nearby
    rw [hdiffers, MonitorState.probeDelay_eq_probeInterval hinterval rfl] at harmed
    exact harmed
  have hstate : last.toMonitorState = { heard with
      timers, probeTimers, drawn, clock := heard.clock.advance settings.probeInterval } := by
    show { started.helloReceived .nearby with
      clock := (started.helloReceived .nearby).clock.advance settings.probeInterval } = _
    rw [hheard, hdiffers]
  show last.timers.due last.clock.now = _ ∧ last.isStable .nearby = true ∧ _
  rw [hstate]
  refine ⟨?_, ?_, rfl⟩
  · show timers.timers.filter (·.deadline ≤ 0 + settings.probeInterval) = _
    rw [htimers]
    simp [LiveTimers.enter, Appointment.before, hwarmUp]
  · obtain ⟨link, hlink, hs⟩ := Option.map_eq_some_iff.1 hstable
    rw [MonitorState.isStable, hlink]
    exact hs

/-- So a probe is sent although the warm-up is not over. -/
theorem dispatched_greeting {settings : LinkSettings α} (hinterval : settings.probeInterval ≠ 0)
    (hwarmUp : settings.probeInterval < settings.warmUp) (memory : σ) :
    (((expecting settings memory).apply .start).run (greeting settings)).dispatched .poll ≠ [] := by
  let last : Monitor α σ := ((expecting settings memory).apply .start).run (greeting settings)
  obtain ⟨hdue, hstable, houtlet⟩ := due_greeting hinterval hwarmUp memory
  have hlast : last.TimersConsistent :=
    ((((Reachable.idle _ _ _).run _).apply .start).run (greeting settings)).timersConsistent
  have hsent : last.requests.length < last.poll.requests.length := by
    refine MonitorState.requests_poll_ne hlast (by simp [last, hdue]) ?_
    intro t ht
    rw [hdue, List.mem_singleton] at ht
    subst ht
    exact ⟨.nearby, rfl, hstable, houtlet⟩
  intro hnone
  have hlength := congrArg List.length hnone
  rw [dispatched, List.length_map, List.length_drop, List.length_nil] at hlength
  exact Nat.not_lt.2 (Nat.sub_eq_zero_iff_le.1 hlength) hsent

end Monitor

/-- Sound settings let time pass between two probes. -/
theorem LinkSettings.probeInterval_ne_zero [Scalar α] {settings : LinkSettings α}
    (h : settings.violation? = none) : settings.probeInterval ≠ 0 :=
  (violation?_eq_none_iff.1 h).probeInterval

/-- **When no probe is sent before the warm-up is over.** Take sound settings, and any operations
among which there are news of neighbors and the passing of time. No call of `poll` sends a probe
between the start of an inactive monitor and the end of the warm-up, whatever of these operations
has happened in between, exactly if the probe interval is no shorter than the warm-up. For any
settings and operations, a probe that is sent that early goes to a neighbor that was prompted after
the start, by news or by hand, and no sooner than a probe interval later. -/
theorem probes_await_warmUp_iff [Scalar α] {settings : LinkSettings α}
    (hsettings : settings.violation? = none) (memory : σ) {allowed : Operation α σ → Prop}
    (hnews : ∀ e, allowed (.news e)) (hadvance : ∀ elapsed, allowed (.advance elapsed)) :
    ((∀ (surroundings : Surroundings α) (before after : List (Operation α σ)),
        (∀ op ∈ after, allowed op) →
        ((Monitor.idle surroundings settings memory).run before).AwaitsWarmUp after) ↔
      settings.warmUp ≤ settings.probeInterval) ∧
    ∀ (surroundings : Surroundings α) (before after : List (Operation α σ)),
      ((Monitor.idle surroundings settings memory).run before).ProbesWhenPrompted after := by
  have hprompted : ∀ (surroundings : Surroundings α) (before after : List (Operation α σ)),
      ((Monitor.idle surroundings settings memory).run before).ProbesWhenPrompted after :=
    fun surroundings before after => Monitor.probesWhenPrompted
      ((Monitor.Reachable.idle surroundings settings memory).run before).timersConsistent after
  have hkept : ∀ (surroundings : Surroundings α) (before : List (Operation α σ)),
      ((Monitor.idle surroundings settings memory).run before).settings = settings :=
    fun surroundings before => Monitor.settings_run _ before
  refine ⟨⟨fun hawait => ?_, fun hle surroundings before after _ hidle hnow => ?_⟩, hprompted⟩
  · by_contra hlt
    have hinterval := LinkSettings.probeInterval_ne_zero hsettings
    have hwarmUp : settings.probeInterval < settings.warmUp := Nat.lt_of_not_le hlt
    refine Monitor.dispatched_greeting hinterval hwarmUp memory
      (hawait _ [.adoptNeighbors] _ ?_ rfl ?_)
    · intro op hop
      rcases List.mem_pair.1 hop with rfl | rfl
      · exact hnews _
      · exact hadvance _
    · rw [Monitor.now_run, hkept]
      simpa [Monitor.greeting, Operation.elapsed, Monitor.now_apply] using hwarmUp
  · rw [List.eq_nil_iff_forall_not_mem]
    intro sent hsent
    obtain ⟨n, seq, -, s, hs, -, hdue⟩ := hprompted surroundings before after hidle hnow sent hsent
    -- the neighbor was prompted after the start, too late for a probe before the end
    obtain ⟨done, _, -, hrun⟩ := Monitor.exists_run_of_mem_steps hs
    rw [hrun, Monitor.now_run, Monitor.now_apply, hkept] at hdue
    rw [hkept] at hnow
    exact Nat.not_lt.2 (Nat.add_le_add (Nat.le_add_right _ _) hle) (Nat.lt_of_le_of_lt hdue hnow)

namespace WarmingUp

/-- Probes follow each other sooner than the warm-up is over. -/
def settings : LinkSettings Float := { LinkSettings.standard with probeInterval := .ofSeconds 5 }

/-- News of neighbors, and the passing of time. -/
def Passive : Operation Float Unit → Prop
  | .news _ | .advance _ => True
  | _ => False

/-- With a warm-up of half a minute, a hello lets a probe out after five seconds. -/
theorem probe_before_end : settings.violation? = none ∧
    (((Monitor.expecting settings ()).apply .start).run (Monitor.greeting settings)).dispatched
      .poll = [(.of ⟨.nearby, 1⟩ (.ofSeconds 4), Duration.ofSeconds 5)] ∧
    ¬ ∀ (surroundings : Surroundings Float) (before after : List (Operation Float Unit)),
      (∀ op ∈ after, Passive op) →
      ((Monitor.idle surroundings settings ()).run before).AwaitsWarmUp after := by
  have hsettings : settings.violation? = none := rfl
  refine ⟨hsettings, by decide +kernel, ?_⟩
  intro hawait
  have hle := (probes_await_warmUp_iff hsettings () (fun _ => trivial) (fun _ => trivial)).1.1
    hawait
  exact absurd hle (by decide)

end WarmingUp

end AdaptiveRouting
