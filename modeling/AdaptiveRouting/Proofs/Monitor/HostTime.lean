import AdaptiveRouting.Proofs.Monitor.Timers

/-!
# Timers on a host whose time has an end

A timer is armed for the present instant and a delay. On a given `Host` their sum may be an instant
that its clock cannot show, or the delay one that 64 bits of seconds cannot hold, and likewise the
sum of the round-trip times that a report averages. Then the program ends at that sum.

The operations with a question mark have an outcome for this, `none`, and otherwise do what the
operations without one do (`perform?_eq`). Whether a sequence of tasks can be performed on a host is
told by `Fits`, in terms of the state before the first one: which probe timers are armed depends
only on the tasks, and the delay of each only on how many were armed before
(`probeDelayAfter_perform`), so that every sum is known in advance (`fits_cons`).
-/

namespace AdaptiveRouting

/-- Whether a neighbor is to be probed. -/
def Task.isProbe : Task → Bool
  | .probe _ => true
  | _ => false

/-- What the arithmetic of the monitor depends on in its host. -/
structure Host where
  /-- The last instant that the clock can show. -/
  latest : Instant
  /-- Whether reports are logged. The averages in a report are computed only if they are. -/
  logs : Bool

namespace MonitorState

variable {α : Type} {m : MonitorState α} {host : Host}

/-! ## What is held -/

/-- The sum of the round-trip times of each link is a duration that 64 bits of seconds can hold. -/
def HistoriesFit (m : MonitorState α) : Prop :=
  ∀ l ∈ m.links.toList, (Duration.total l.2.history).seconds < wordBound

instance (m : MonitorState α) : Decidable m.HistoriesFit :=
  inferInstanceAs (Decidable (∀ l ∈ m.links.toList, _))

/-- The delay of a probe timer when a number of probe timers have been armed since. -/
def probeDelayAfter (m : MonitorState α) (armings : Nat) : Duration :=
  (probeDelay { m with drawn := m.drawn + armings }).1

/-- How many probe timers a task arms. -/
def armedBy (m : MonitorState α) : Task → Nat
  | .warmUp => m.stableNeighbors.length
  | .probe _ => 1
  | .report => 0

/-- How many probe timers are armed by a sequence of tasks. -/
def armings (m : MonitorState α) (tasks : List Task) : Nat := (tasks.map m.armedBy).sum

/-- Every sum that a sequence of tasks comes to is one that the host can hold. -/
structure Fits (host : Host) (m : MonitorState α) (tasks : List Task) : Prop where
  /-- Each probe timer is armed for an instant that the clock can show. -/
  probes : ∀ i < m.armings tasks, host.latest.Reaches m.clock.now (m.probeDelayAfter i)
  /-- The end of the warm-up and a report arm the next report. -/
  report : (∃ t ∈ tasks, t.isProbe = false) →
    host.latest.Reaches m.clock.now m.settings.reportInterval
  /-- A report that is logged averages the round-trip times of each link. -/
  averages : .report ∈ tasks → host.logs = true → m.HistoriesFit

/-- The sums that a list of tasks makes fit exactly if the delays of all probes that it arms do, the
interval to the next report does, and the histories that it logs do. -/
theorem fits_iff {tasks : List Task} : Fits host m tasks ↔
    (∀ i < m.armings tasks, host.latest.Reaches m.clock.now (m.probeDelayAfter i)) ∧
    ((∃ t ∈ tasks, t.isProbe = false) →
      host.latest.Reaches m.clock.now m.settings.reportInterval) ∧
    (.report ∈ tasks → host.logs = true → m.HistoriesFit) :=
  ⟨fun h => ⟨h.probes, h.report, h.averages⟩,
    fun ⟨hprobes, hreport, haverages⟩ => ⟨hprobes, hreport, haverages⟩⟩

/-- For a single task the sums are those of the timers that it arms and of what it reports. -/
theorem fits_singleton {task : Task} : Fits host m [task] ↔
    (∀ i < m.armedBy task, host.latest.Reaches m.clock.now (m.probeDelayAfter i)) ∧
    (task.isProbe = false → host.latest.Reaches m.clock.now m.settings.reportInterval) ∧
    (task = .report → host.logs = true → m.HistoriesFit) := by
  rw [fits_iff]
  simp [armings, eq_comm (a := Task.report)]

instance (host : Host) (m : MonitorState α) (tasks : List Task) : Decidable (Fits host m tasks) :=
  decidable_of_iff _ fits_iff.symm

/-! ## The operations on a host -/

/-- Arms the timer of a neighbor afresh, if the host can hold its deadline. -/
def scheduleProbe? (host : Host) (m : MonitorState α) (neighbor : Name) : Option (MonitorState α) :=
  if m.active = true → host.latest.Reaches m.clock.now m.probeDelay.1 then
    some (m.scheduleProbe neighbor)
  else none

section
variable [Scalar α]

/-- Reports the present state, if the host can hold the sums that are averaged. -/
def report? (host : Host) (m : MonitorState α) : Option (MonitorState α) :=
  if m.active = true ∧ host.logs = true → m.HistoriesFit then some m.report else none

def scheduleReport? (host : Host) (m : MonitorState α) : Option (MonitorState α) :=
  if host.latest.Reaches m.clock.now m.settings.reportInterval then some m.scheduleReport else none

/-- Does what a timer was armed for, if the host can hold every sum on the way. -/
def perform? (host : Host) (m : MonitorState α) : Task → Option (MonitorState α)
  | .warmUp => (m.stableNeighbors.foldlM (scheduleProbe? host) m).bind (scheduleReport? host)
  | .probe neighbor =>
    scheduleProbe? host
      ({ m with probeTimers := m.probeTimers.erase neighbor }.probeIfStable neighbor) neighbor
  | .report => (m.report? host).bind (scheduleReport? host)

/-- What handling every timer that is due comes to on a host: the state that is left, or nothing
when the program ends at a sum that the host cannot hold. -/
inductive DrainedOn (host : Host) : MonitorState α → Option (MonitorState α) → Prop where
  | done {m : MonitorState α} : m.handleNext? = none → DrainedOn host m (some m)
  /-- One timer is handled, and then the others. -/
  | step {m next : MonitorState α} {id : TimerId} {task : Task} {timers : TimerQueue Task}
      {outcome : Option (MonitorState α)} :
      m.timers.popDue? m.clock.now = some (id, task, timers) →
      perform? host { m with timers } task = some next → DrainedOn host next outcome →
      DrainedOn host m outcome
  /-- The task of a timer comes to a sum that the host cannot hold. -/
  | fault {m : MonitorState α} {id : TimerId} {task : Task} {timers : TimerQueue Task} :
      m.timers.popDue? m.clock.now = some (id, task, timers) →
      perform? host { m with timers } task = none → DrainedOn host m none

end

/-! ## The delays are known in advance -/

/-- The delay of a probe is the interval, with the jitter of its own draw on top. -/
theorem probeDelayAfter_eq (m : MonitorState α) (i : Nat) : m.probeDelayAfter i =
    if m.settings.probeJitter / 1000000 = 0 then nonzeroDelay m.settings.probeInterval
    else nonzeroDelay (m.settings.probeInterval +
      .ofMillis (m.jitter (m.drawn + i) % (m.settings.probeJitter / 1000000))) := by
  unfold probeDelayAfter probeDelay
  dsimp only
  split <;> rfl

/-- Two states agree in everything that the sums are made of. -/
structure SameSums (m m' : MonitorState α) : Prop where
  settings : m'.settings = m.settings
  jitter : m'.jitter = m.jitter
  drawn : m'.drawn = m.drawn
  now : m'.clock.now = m.clock.now
  active : m'.active = m.active
  links : m'.links = m.links

/-- The delays depend on no more than what the sums do. -/
theorem SameSums.probeDelayAfter {m' : MonitorState α} (h : SameSums m m') (i : Nat) :
    m'.probeDelayAfter i = m.probeDelayAfter i := by
  rw [probeDelayAfter_eq, probeDelayAfter_eq, h.settings, h.jitter, h.drawn]

/-- States with the same sums fit the same tasks. -/
theorem SameSums.fits_iff {m' : MonitorState α} (h : SameSums m m') {tasks : List Task} :
    Fits host m' tasks ↔ Fits host m tasks := by
  have hstable : m'.stableNeighbors = m.stableNeighbors := by
    unfold stableNeighbors
    rw [h.links]
  have harmings : m'.armings tasks = m.armings tasks := by
    unfold armings
    congr 2
    funext task
    cases task <;> simp [armedBy, hstable]
  have hhistories : m'.HistoriesFit ↔ m.HistoriesFit := by
    unfold HistoriesFit
    rw [h.links]
  rw [MonitorState.fits_iff, MonitorState.fits_iff, harmings, hhistories, h.now, h.settings]
  simp only [h.probeDelayAfter]

/-- No sum depends on what is armed. -/
theorem sameSums_timers (m : MonitorState α) (timers : TimerQueue Task) :
    SameSums m { m with timers } :=
  ⟨rfl, rfl, rfl, rfl, rfl, rfl⟩

/-- Arming a report changes no sum. -/
theorem sameSums_scheduleReport (m : MonitorState α) : SameSums m m.scheduleReport :=
  ⟨rfl, rfl, rfl, rfl, rfl, rfl⟩

/-- Neither does sending a probe to a neighbor whose timer has fired. -/
theorem sameSums_probeIfStable (m : MonitorState α) (n : Name) :
    SameSums m ({ m with probeTimers := m.probeTimers.erase n }.probeIfStable n) := by
  obtain ⟨_, _, _, _, heq⟩ := probeIfStable_eq { m with probeTimers := m.probeTimers.erase n } n
  rw [heq]
  exact ⟨rfl, rfl, rfl, rfl, rfl, rfl⟩

/-- A report changes nothing that a sum depends on. -/
theorem sameSums_report [Scalar α] (m : MonitorState α) : SameSums m m.report := by
  obtain ⟨_, heq⟩ := m.report_eq
  rw [heq]
  exact ⟨rfl, rfl, rfl, rfl, rfl, rfl⟩

/-- Arming a probe timer uses up one random number, provided that there is any jitter. -/
theorem drawn_scheduleProbe (ha : m.active = true) (n : Name) :
    (m.scheduleProbe n).drawn =
      if m.settings.probeJitter / 1000000 = 0 then m.drawn else m.drawn + 1 := by
  have hdrawn : (m.scheduleProbe n).drawn = m.probeDelay.2.drawn := by
    obtain ⟨_, _, _, heq⟩ := timersDiffer_disarm m.probeDelay.2 n
    unfold scheduleProbe
    rw [if_pos ha]
    unfold disarm
    dsimp only
    split <;> rfl
  rw [hdrawn]
  unfold probeDelay
  dsimp only
  split <;> rfl

/-- A probe that is armed uses up one draw. -/
theorem probeDelayAfter_scheduleProbe (ha : m.active = true) (n : Name) (i : Nat) :
    (m.scheduleProbe n).probeDelayAfter i = m.probeDelayAfter (i + 1) := by
  have hdrawn := drawn_scheduleProbe ha n
  obtain ⟨timers, probeTimers, drawn, heq⟩ := timersDiffer_scheduleProbe m n
  rw [heq] at hdrawn ⊢
  rw [probeDelayAfter_eq, probeDelayAfter_eq]
  dsimp only at hdrawn ⊢
  split
  · rfl
  · next hjitter =>
    rw [if_neg hjitter] at hdrawn
    rw [hdrawn, Nat.add_right_comm, Nat.add_assoc]

/-- Probes that are armed use up one draw each. -/
theorem probeDelayAfter_foldl_scheduleProbe (ha : m.active = true) (ns : List Name) (i : Nat) :
    (ns.foldl scheduleProbe m).probeDelayAfter i = m.probeDelayAfter (ns.length + i) := by
  induction ns generalizing m with
  | nil => rw [List.foldl_nil, List.length_nil, Nat.zero_add]
  | cons n ns ih =>
    rw [List.foldl_cons, ih ((timersDiffer_scheduleProbe m n).active.trans ha),
      probeDelayAfter_scheduleProbe ha, List.length_cons, Nat.add_right_comm]

section
variable [Scalar α]

/-- Once a task has been performed, the delays are those that come after the timers it armed. -/
theorem probeDelayAfter_perform (ha : m.active = true) (task : Task) (i : Nat) :
    (m.perform task).probeDelayAfter i = m.probeDelayAfter (m.armedBy task + i) := by
  cases task with
  | warmUp =>
    have hprobes := probeDelayAfter_foldl_scheduleProbe ha m.stableNeighbors i
    exact ((sameSums_scheduleReport _).probeDelayAfter i).trans hprobes
  | probe n =>
    have hsent := sameSums_probeIfStable m n
    rw [perform, probeDelayAfter_scheduleProbe (hsent.active.trans ha), hsent.probeDelayAfter,
      armedBy, Nat.add_comm]
  | report =>
    rw [perform, (sameSums_scheduleReport _).probeDelayAfter, (sameSums_report m).probeDelayAfter,
      armedBy, Nat.zero_add]

/-! ## Performing tasks on a host -/

omit [Scalar α] in
/-- A probe timer is armed if the host can hold its deadline. -/
theorem scheduleProbe?_eq (ha : m.active = true) (n : Name) : m.scheduleProbe? host n =
    if host.latest.Reaches m.clock.now (m.probeDelayAfter 0) then some (m.scheduleProbe n)
    else none := by
  unfold scheduleProbe?
  simp only [ha, true_imp_iff]
  rfl

omit [Scalar α] in
/-- A series of probe timers is armed if the host can hold the deadline of each. -/
theorem foldlM_scheduleProbe? (ha : m.active = true) (ns : List Name) :
    ns.foldlM (scheduleProbe? host) m =
      if ∀ i < ns.length, host.latest.Reaches m.clock.now (m.probeDelayAfter i) then
        some (ns.foldl scheduleProbe m)
      else none := by
  induction ns generalizing m with
  | nil => simp
  | cons n ns ih =>
    have hdiffer := timersDiffer_scheduleProbe m n
    rw [List.foldlM_cons, List.foldl_cons, scheduleProbe?_eq ha]
    simp only [List.length_cons, Nat.forall_lt_succ_left]
    by_cases hreaches : host.latest.Reaches m.clock.now (m.probeDelayAfter 0)
    · rw [if_pos hreaches, Option.bind_eq_bind, Option.bind_some,
        ih (hdiffer.active.trans ha), hdiffer.clock]
      simp only [probeDelayAfter_scheduleProbe ha, hreaches, true_and]
    · rw [if_neg hreaches, Option.bind_eq_bind, Option.bind_none, if_neg fun h => hreaches h.1]

/-- A task is performed as usual if the host can hold the sums that it comes to; otherwise the
program ends. -/
theorem perform?_eq (ha : m.active = true) (task : Task) :
    m.perform? host task = if Fits host m [task] then some (m.perform task) else none := by
  -- The sums are made one after the other, and none of them changes what the next ones depend on.
  cases task with
  | warmUp =>
    have hdiffer := timersDiffer_foldl_scheduleProbe m m.stableNeighbors
    have hfits : Fits host m [.warmUp] ↔
        (∀ i < m.stableNeighbors.length,
          host.latest.Reaches m.clock.now (m.probeDelayAfter i)) ∧
        host.latest.Reaches m.clock.now m.settings.reportInterval := by
      simp [fits_singleton, armedBy, Task.isProbe]
    rw [perform?, foldlM_scheduleProbe? ha, perform]
    split
    · next hprobes =>
      rw [Option.bind_some, scheduleReport?, hdiffer.clock, hdiffer.settings]
      simp only [hfits.trans (and_iff_right hprobes)]
    · next hprobes => rw [Option.bind_none, if_neg fun h => hprobes (hfits.1 h).1]
  | probe n =>
    have hsent := sameSums_probeIfStable m n
    have hfits : Fits host m [.probe n] ↔
        host.latest.Reaches m.clock.now (m.probeDelayAfter 0) := by
      simp [fits_singleton, armedBy, Task.isProbe]
    rw [perform?, perform, scheduleProbe?_eq (hsent.active.trans ha), hsent.now,
      hsent.probeDelayAfter]
    simp only [hfits]
  | report =>
    have hreported := sameSums_report m
    have hfits : Fits host m [.report] ↔ (m.active = true ∧ host.logs = true → m.HistoriesFit) ∧
        host.latest.Reaches m.clock.now m.settings.reportInterval := by
      simp [fits_singleton, armedBy, Task.isProbe, and_comm, ha]
    rw [perform?, perform, report?]
    split
    · next haverages =>
      rw [Option.bind_some, scheduleReport?, hreported.now, hreported.settings]
      simp only [hfits.trans (and_iff_right haverages)]
    · next haverages => rw [Option.bind_none, if_neg fun h => haverages (hfits.1 h).1]

omit [Scalar α] in
/-- What holds below a sum holds below the first summand, and from there on below the second. -/
theorem forall_lt_add_iff {P : Nat → Prop} {a b : Nat} :
    (∀ i < a + b, P i) ↔ (∀ i < a, P i) ∧ ∀ i < b, P (a + i) := by
  refine ⟨fun h => ⟨fun i hi => h i (by omega), fun i hi => h _ (by omega)⟩, fun ⟨h, h'⟩ i hi => ?_⟩
  by_cases hia : i < a
  · exact h i hia
  · have := h' (i - a) (by omega)
    rwa [Nat.add_sub_cancel' (by omega)] at this

/-- A sequence of tasks can be performed if the first one can, and then the others. -/
theorem fits_cons (host : Host) (ha : m.active = true) (task : Task) (tasks : List Task) :
    Fits host m (task :: tasks) ↔ Fits host m [task] ∧ Fits host (m.perform task) tasks := by
  have hdelays := probeDelayAfter_perform ha task
  obtain ⟨_, _, _, _, _, _, _, heq⟩ := probingDiffers_perform m task
  rw [heq] at hdelays ⊢
  have hcons : m.armings (task :: tasks) = m.armedBy task + m.armings tasks := by simp [armings]
  rw [fits_singleton, fits_iff, fits_iff, hcons, forall_lt_add_iff]
  simp only [hdelays]
  constructor
  · rintro ⟨⟨hfirst, hothers⟩, hreport, haverages⟩
    exact ⟨⟨hfirst, fun hp => hreport ⟨task, .head _, hp⟩, fun ht => haverages (ht ▸ .head _)⟩,
      hothers, fun ⟨t, ht, hp⟩ => hreport ⟨t, .tail _ ht, hp⟩, fun ht => haverages (.tail _ ht)⟩
  · rintro ⟨⟨hfirst, hreport, haverages⟩, hothers, hreport', haverages'⟩
    refine ⟨⟨hfirst, hothers⟩, ?_, fun ht => ?_⟩
    · rintro ⟨t, ht, hp⟩
      rcases List.mem_cons.1 ht with rfl | ht
      · exact hreport hp
      · exact hreport' ⟨t, ht, hp⟩
    · exact (List.mem_cons.1 ht).elim (fun heq => haverages heq.symm) haverages'

end

end MonitorState

end AdaptiveRouting
