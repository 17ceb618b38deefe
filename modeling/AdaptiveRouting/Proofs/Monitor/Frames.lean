import AdaptiveRouting.Proofs.Monitor.Runs

/-!
# What the operations of the monitor leave alone

Each operation changes a few fields of the state and leaves the others as they are. Arming timers
touches nothing but the timers (`TimersDiffer`), and a call of `poll` touches the timers, the probes
under way and the outbox, but neither links nor costs (`ProbingDiffers`). A round-trip time and a
new cost change links, the neighbor table and what is requested on their account, where a new cost
leaves everything about a link but its cost as it is (`SameStanding`).

Most operations touch neither the timers nor what these depend on (`Monitor.sameTimers_apply`).
-/

namespace AdaptiveRouting

/-- A link apart from its cost in force and from when it last caused a rebuild. -/
def LinkState.standing {α : Type} (l : LinkState α) : LinkState α :=
  { l with currentCost := l.configuredCost, lastTrigger := none }

/-- The links of the second map are those of the first, but for their costs in force. -/
def SameStanding {α : Type} (links links' : NameMap (LinkState α)) : Prop :=
  ∀ n : Name, links'[n]?.map LinkState.standing = links[n]?.map LinkState.standing

namespace SameStanding

variable {α : Type} {links links' : NameMap (LinkState α)}

/-- Links have the standing that they have. -/
theorem refl (links : NameMap (LinkState α)) : SameStanding links links := fun _ => rfl

/-- Equal links have the same standing. -/
theorem of_eq (h : links' = links) : SameStanding links links' := h ▸ refl links

/-- Standing that is kept in two steps is kept. -/
theorem trans {links'' : NameMap (LinkState α)} (h : SameStanding links links')
    (h' : SameStanding links' links'') : SameStanding links links'' := fun n =>
  (h' n).trans (h n)

/-- A link that is replaced by one of the same standing. -/
theorem insert {n : Name} {link link' : LinkState α} (hn : links[n]? = some link)
    (h : link'.standing = link.standing) : SameStanding links (links.insert n link') := by
  intro k
  rw [Std.ExtTreeMap.getElem?_insert]
  split
  · next hk =>
    obtain rfl := Std.LawfulEqCmp.eq_of_compare hk
    rw [hn, Option.map_some, Option.map_some, h]
  · rfl

/-- Whatever is read off the standing of a link is the same in both maps. -/
theorem map_eq (h : SameStanding links links') {β : Type} (f : LinkState α → β)
    (hf : ∀ l, f l.standing = f l) (n : Name) : links'[n]?.map f = links[n]?.map f := by
  have hread : ∀ o : Option (LinkState α), o.map f = (o.map LinkState.standing).map f := by
    intro o
    cases o with
    | none => rfl
    | some l => simp [hf]
  rw [hread, h n, ← hread]

end SameStanding

/-- An operation that cannot arm or disarm a timer, nor let time pass. -/
def Operation.SparesTimers {α σ : Type} : Operation α σ → Prop
  | .start | .stop | .poll | .scheduleProbe _ | .news _ | .advance _ => False
  | _ => True

namespace MonitorState

variable {α : Type} {m m' m'' : MonitorState α}

/-- The timers of both states are the same, and so is what they depend on. -/
structure SameTimers (m m' : MonitorState α) : Prop where
  timers : m'.timers = m.timers
  probeTimers : m'.probeTimers = m.probeTimers
  active : m'.active = m.active
  settings : m'.settings = m.settings
  now : m'.clock.now = m.clock.now

/-! ## Timers -/

/-- The second state differs from the first at most in what is armed. -/
def TimersDiffer (m m' : MonitorState α) : Prop :=
  ∃ timers probeTimers drawn, m' = { m with timers, probeTimers, drawn }

/-- A state differs in nothing from itself. -/
theorem TimersDiffer.refl (m : MonitorState α) : TimersDiffer m m := ⟨_, _, _, rfl⟩

/-- Two steps that arm and disarm make another one. -/
theorem TimersDiffer.trans (h : TimersDiffer m m') (h' : TimersDiffer m' m'') :
    TimersDiffer m m'' := by
  obtain ⟨_, _, _, rfl⟩ := h
  obtain ⟨_, _, _, rfl⟩ := h'
  exact ⟨_, _, _, rfl⟩

/-- Timers do not decide whether the monitor is active. -/
theorem TimersDiffer.active (h : TimersDiffer m m') : m'.active = m.active := by
  obtain ⟨_, _, _, rfl⟩ := h
  rfl

/-- Timers do not change the settings. -/
theorem TimersDiffer.settings (h : TimersDiffer m m') : m'.settings = m.settings := by
  obtain ⟨_, _, _, rfl⟩ := h
  rfl

/-- Timers do not move the clock. -/
theorem TimersDiffer.clock (h : TimersDiffer m m') : m'.clock = m.clock := by
  obtain ⟨_, _, _, rfl⟩ := h
  rfl

/-- Timers do not change the links. -/
theorem TimersDiffer.links (h : TimersDiffer m m') : m'.links = m.links := by
  obtain ⟨_, _, _, rfl⟩ := h
  rfl

/-- Timers do not change the neighbor table. -/
theorem TimersDiffer.neighbors (h : TimersDiffer m m') : m'.neighbors = m.neighbors := by
  obtain ⟨_, _, _, rfl⟩ := h
  rfl

/-- Timers do not change which probes are pending. -/
theorem TimersDiffer.pending (h : TimersDiffer m m') : m'.pending = m.pending := by
  obtain ⟨_, _, _, rfl⟩ := h
  rfl

/-- No delay is zero once it has been raised to the least one. -/
theorem nonzeroDelay_pos (d : Duration) : 0 < nonzeroDelay d := by
  unfold nonzeroDelay
  split
  · exact Nat.succ_pos _
  · next h => exact Nat.pos_of_ne_zero h

/-- The delay of a probe lets time pass. -/
theorem probeDelay_eq (m : MonitorState α) :
    ∃ delay drawn, 0 < delay ∧ m.probeDelay = (delay, { m with drawn }) := by
  unfold probeDelay
  dsimp only
  split
  · exact ⟨_, _, nonzeroDelay_pos _, rfl⟩
  · exact ⟨_, _, nonzeroDelay_pos _, rfl⟩

/-- A timer is armed after the one before has been disarmed, provided that the monitor is active. -/
theorem scheduleProbe_eq (m : MonitorState α) (neighbor : Name) :
    (m.active = false ∧ m.scheduleProbe neighbor = m) ∨
    (m.active = true ∧ ∃ delay drawn, 0 < delay ∧
      m.scheduleProbe neighbor = ({ m with drawn }.disarm neighbor).arm neighbor delay) := by
  unfold scheduleProbe
  by_cases ha : m.active = true
  · obtain ⟨delay, drawn, hpos, heq⟩ := m.probeDelay_eq
    refine .inr ⟨ha, delay, drawn, hpos, ?_⟩
    rw [if_pos ha, heq]
  · exact .inl ⟨by simpa using ha, if_neg ha⟩

/-- To disarm a neighbor changes timers only. -/
theorem timersDiffer_disarm (m : MonitorState α) (neighbor : Name) :
    TimersDiffer m (m.disarm neighbor) := by
  unfold disarm
  split
  · exact .refl m
  · exact ⟨_, _, _, rfl⟩

/-- To arm a neighbor changes timers only. -/
theorem timersDiffer_arm (m : MonitorState α) (neighbor : Name) (delay : Duration) :
    TimersDiffer m (m.arm neighbor delay) := ⟨_, _, _, rfl⟩

/-- To schedule a probe changes timers only. -/
theorem timersDiffer_scheduleProbe (m : MonitorState α) (neighbor : Name) :
    TimersDiffer m (m.scheduleProbe neighbor) := by
  rcases m.scheduleProbe_eq neighbor with ⟨-, heq⟩ | ⟨-, delay, drawn, -, heq⟩
  · rw [heq]
    exact .refl m
  · rw [heq]
    have hdrawn : TimersDiffer m { m with drawn } := ⟨_, _, _, rfl⟩
    exact (hdrawn.trans (timersDiffer_disarm _ neighbor)).trans (timersDiffer_arm _ neighbor delay)

/-- To ensure that a neighbor is armed changes timers only. -/
theorem timersDiffer_ensureProbe (m : MonitorState α) (neighbor : Name) :
    TimersDiffer m (m.ensureProbe neighbor) := by
  unfold ensureProbe
  split
  · exact .refl m
  · exact timersDiffer_scheduleProbe m neighbor

/-- To schedule probes for some neighbors changes timers only. -/
theorem timersDiffer_foldl_scheduleProbe (m : MonitorState α) (neighbors : List Name) :
    TimersDiffer m (neighbors.foldl scheduleProbe m) := by
  induction neighbors generalizing m with
  | nil => exact .refl m
  | cons n neighbors ih => exact (timersDiffer_scheduleProbe m n).trans (ih _)

/-- To schedule a report changes timers only. -/
theorem timersDiffer_scheduleReport (m : MonitorState α) : TimersDiffer m m.scheduleReport :=
  ⟨_, _, _, rfl⟩

/-! ## Probes and reports -/

/-- What sending a probe does, depending on whether it can be sent. -/
theorem sendProbe_cases (m : MonitorState α) (neighbor : Name) :
    (m.sendProbe neighbor).2 = { m with
      nextSeq := m.nextSeq + 1
      pending := m.pending.insert m.nextSeq ⟨neighbor, m.clock.now⟩
      stats.sent := m.stats.sent + 1
      outbox := m.outbox ++ [.request (m.nextRequest neighbor)] } ∨
    (m.sendProbe neighbor).2 = { m with
      nextSeq := m.nextSeq + 1
      pending := m.pending.erase m.nextSeq } := by
  unfold sendProbe
  dsimp only
  split
  · exact .inl rfl
  · exact .inr rfl

/-- The second state differs from the first at most in what is armed, what has been sent and what
is under way. -/
def ProbingDiffers (m m' : MonitorState α) : Prop :=
  ∃ timers probeTimers drawn nextSeq pending sent outbox, m' = { m with
    timers, probeTimers, drawn, nextSeq, pending, stats.sent := sent, outbox }

/-- A state differs in nothing from itself. -/
theorem ProbingDiffers.refl (m : MonitorState α) : ProbingDiffers m m :=
  ⟨_, _, _, _, _, _, _, rfl⟩

/-- Two steps of probing make another one. -/
theorem ProbingDiffers.trans (h : ProbingDiffers m m') (h' : ProbingDiffers m' m'') :
    ProbingDiffers m m'' := by
  obtain ⟨_, _, _, _, _, _, _, rfl⟩ := h
  obtain ⟨_, _, _, _, _, _, _, rfl⟩ := h'
  exact ⟨_, _, _, _, _, _, _, rfl⟩

/-- Probing does not decide whether the monitor is active. -/
theorem ProbingDiffers.active (h : ProbingDiffers m m') : m'.active = m.active := by
  obtain ⟨_, _, _, _, _, _, _, rfl⟩ := h
  rfl

/-- Probing does not change the settings. -/
theorem ProbingDiffers.settings (h : ProbingDiffers m m') : m'.settings = m.settings := by
  obtain ⟨_, _, _, _, _, _, _, rfl⟩ := h
  rfl

/-- Probing does not move the clock. -/
theorem ProbingDiffers.clock (h : ProbingDiffers m m') : m'.clock = m.clock := by
  obtain ⟨_, _, _, _, _, _, _, rfl⟩ := h
  rfl

/-- Probing does not change the links. -/
theorem ProbingDiffers.links (h : ProbingDiffers m m') : m'.links = m.links := by
  obtain ⟨_, _, _, _, _, _, _, rfl⟩ := h
  rfl

/-- Arming and disarming is a part of probing. -/
theorem TimersDiffer.probingDiffers (h : TimersDiffer m m') : ProbingDiffers m m' := by
  obtain ⟨_, _, _, rfl⟩ := h
  exact ⟨_, _, _, _, _, _, _, rfl⟩

/-- Probing a neighbor arms nothing. -/
theorem probeIfStable_eq (m : MonitorState α) (neighbor : Name) :
    ∃ nextSeq pending sent outbox, m.probeIfStable neighbor = { m with
      nextSeq, pending, stats.sent := sent, outbox } := by
  unfold probeIfStable
  split
  · rcases m.sendProbe_cases neighbor with heq | heq <;> rw [heq] <;> exact ⟨_, _, _, _, rfl⟩
  · exact ⟨_, _, _, _, rfl⟩

section
variable [Scalar α]

/-- Reporting touches nothing but the outbox. -/
theorem report_eq (m : MonitorState α) : ∃ outbox, m.report = { m with outbox } := by
  unfold report
  split
  · exact ⟨_, rfl⟩
  · exact ⟨_, rfl⟩

/-- A task changes nothing but what belongs to probing and reporting. -/
theorem probingDiffers_perform (m : MonitorState α) (task : Task) :
    ProbingDiffers m (m.perform task) := by
  cases task with
  | warmUp =>
    exact ((timersDiffer_foldl_scheduleProbe m _).trans
      (timersDiffer_scheduleReport _)).probingDiffers
  | probe neighbor =>
    refine ProbingDiffers.trans ?_ (timersDiffer_scheduleProbe _ neighbor).probingDiffers
    obtain ⟨_, _, _, _, heq⟩ :=
      probeIfStable_eq { m with probeTimers := m.probeTimers.erase neighbor } neighbor
    rw [heq]
    exact ⟨_, _, _, _, _, _, _, rfl⟩
  | report =>
    refine ProbingDiffers.trans ?_ (timersDiffer_scheduleReport _).probingDiffers
    obtain ⟨_, heq⟩ := m.report_eq
    rw [heq]
    exact ⟨_, _, _, _, _, _, _, rfl⟩

/-- What handling a timer does: the first one that is due is taken out, and its task performed. -/
theorem handleNext?_eq_some_iff {next : MonitorState α} : m.handleNext? = some next ↔
    ∃ id task timers, m.timers.popDue? m.clock.now = some (id, task, timers) ∧
      next = { m with timers }.perform task := by
  unfold handleNext?
  rw [Option.map_eq_some_iff]
  constructor
  · rintro ⟨⟨id, task, timers⟩, hpop, rfl⟩
    exact ⟨id, task, timers, hpop, rfl⟩
  · rintro ⟨id, task, timers, hpop, rfl⟩
    exact ⟨_, hpop, rfl⟩

/-- Handling one timer changes no more than that. -/
theorem probingDiffers_handleNext? {next : MonitorState α} (h : m.handleNext? = some next) :
    ProbingDiffers m next := by
  obtain ⟨id, task, timers, -, rfl⟩ := handleNext?_eq_some_iff.1 h
  have hpop : ProbingDiffers m { m with timers } := ⟨_, _, _, _, _, _, _, rfl⟩
  exact hpop.trans (probingDiffers_perform _ task)

/-- Nor does handling any number of timers. -/
theorem probingDiffers_handleDue (m : MonitorState α) (bound : Nat) :
    ProbingDiffers m (m.handleDue bound) := by
  induction bound generalizing m with
  | zero => exact .refl m
  | succ bound ih =>
    unfold handleDue
    split
    · exact .refl m
    · next next hnext => exact (probingDiffers_handleNext? hnext).trans (ih next)

/-- A call of `poll` leaves the links, the costs and the surroundings as they are. -/
theorem probingDiffers_poll (m : MonitorState α) : ProbingDiffers m m.poll :=
  probingDiffers_handleDue m _

end

/-! ## Costs -/

/-- The second state differs from the first at most in costs, and in what is requested on their
account. -/
def CostsDiffer (m m' : MonitorState α) : Prop :=
  ∃ links neighbors rebuild schedule costUpdates, m' = { m with
    links, neighbors, rebuild, schedule, stats.costUpdates := costUpdates } ∧
    SameStanding m.links links

/-- A state differs in nothing from itself. -/
theorem CostsDiffer.refl (m : MonitorState α) : CostsDiffer m m :=
  ⟨_, _, _, _, _, rfl, fun _ => rfl⟩

/-- Two steps that change costs make another one. -/
theorem CostsDiffer.trans (h : CostsDiffer m m') (h' : CostsDiffer m' m'') :
    CostsDiffer m m'' := by
  obtain ⟨_, _, _, _, _, rfl, hlinks⟩ := h
  obtain ⟨_, _, _, _, _, rfl, hlinks'⟩ := h'
  exact ⟨_, _, _, _, _, rfl, hlinks.trans hlinks'⟩

/-- The links keep their standing when costs change. -/
theorem CostsDiffer.sameStanding (h : CostsDiffer m m') : SameStanding m.links m'.links := by
  obtain ⟨_, _, _, _, _, rfl, hlinks⟩ := h
  exact hlinks

/-- The pending probes stay when costs change. -/
theorem CostsDiffer.pending (h : CostsDiffer m m') : m'.pending = m.pending := by
  obtain ⟨_, _, _, _, _, rfl, -⟩ := h
  rfl

/-- A request for a rebuild changes no more than when it was made. -/
theorem costsDiffer_trigger {neighbor : Name} {link : LinkState α}
    (h : m.links[neighbor]? = some link) : CostsDiffer m (m.trigger neighbor link) := by
  unfold trigger
  split
  · exact .refl m
  · dsimp only
    split
    · exact ⟨_, _, _, _, _, rfl, .insert h rfl⟩
    · exact ⟨_, _, _, _, _, rfl, .insert h rfl⟩

/-- A cost put in force changes costs and requests only. -/
theorem costsDiffer_adoptCost (m : MonitorState α) (neighbor : Name) (cost : α) :
    CostsDiffer m (m.adoptCost neighbor cost) := by
  unfold adoptCost
  split
  · exact .refl m
  · next link hlink =>
    dsimp only
    have hadopt : CostsDiffer m
        { m with links := m.links.insert neighbor { link with currentCost := cost } } :=
      ⟨_, _, _, _, _, rfl, .insert hlink rfl⟩
    exact hadopt.trans (costsDiffer_trigger Std.ExtTreeMap.getElem?_insert_self)

/-- So does a cost that is compared with the one in force first. -/
theorem costsDiffer_applyCost [Scalar α] (m : MonitorState α) (neighbor : Name)
    (advertised cost : α) : CostsDiffer m (m.applyCost neighbor advertised cost) := by
  unfold applyCost
  split
  · exact .refl m
  · split
    · exact .refl m
    · next neighbors _ =>
      have hwrite : CostsDiffer m { m with neighbors } := ⟨_, _, _, _, _, rfl, fun _ => rfl⟩
      exact hwrite.trans (costsDiffer_adoptCost _ neighbor cost)

/-! ## Round-trip times -/

/-- A round-trip time is recorded for a neighbor whose link is stable, and not at all else. -/
theorem links_recordRtt (m : MonitorState α) (neighbor : Name) (rtt : Duration) :
    (m.recordRtt neighbor rtt).2.links = m.links ∨
    ∃ link, m.links[neighbor]? = some link ∧
      (m.recordRtt neighbor rtt).2.links = m.links.insert neighbor (link.record rtt) := by
  unfold recordRtt
  split
  · exact .inl rfl
  · next link h =>
    split
    · exact .inr ⟨link, h, rfl⟩
    · exact .inl rfl

/-- What is read off a link besides its round-trip times is the same when one is recorded. -/
theorem map_recordRtt (m : MonitorState α) (neighbor : Name) (rtt : Duration) {β : Type}
    (f : LinkState α → β) (hf : ∀ l, f (l.record rtt) = f l) (n : Name) :
    (m.recordRtt neighbor rtt).2.links[n]?.map f = m.links[n]?.map f := by
  rcases m.links_recordRtt neighbor rtt with heq | ⟨link, h, heq⟩
  · rw [heq]
  · rw [heq, Std.ExtTreeMap.getElem?_insert]
    split
    · next hn =>
      obtain rfl := Std.LawfulEqCmp.eq_of_compare hn
      rw [h, Option.map_some, Option.map_some, hf]
    · rfl

/-- What the answer to a probe does: nothing unless the probe is pending; and if it is, it is
pending no longer, and its round-trip time is recorded if it counts. -/
theorem measure_cases (m : MonitorState α) (seq : UInt32) :
    (m.pending[seq]? = none ∧ m.measure seq = (none, m)) ∨
    ∃ probe, m.pending[seq]? = some probe ∧
      ((countedRtt? m.settings (m.clock.now - probe.sentAt) = none ∧
          m.measure seq = (none, { m with pending := m.pending.erase seq })) ∨
        ∃ rtt, countedRtt? m.settings (m.clock.now - probe.sentAt) = some rtt ∧
          m.measure seq = ((m.recordRtt probe.neighbor rtt).1.map (probe.neighbor, ·), { m with
            pending := m.pending.erase seq
            stats.measured := m.stats.measured + 1
            links := (m.recordRtt probe.neighbor rtt).2.links })) := by
  unfold measure
  cases hp : m.pending[seq]? with
  | none => exact .inl ⟨rfl, rfl⟩
  | some probe =>
    refine .inr ⟨probe, rfl, ?_⟩
    dsimp only
    cases hr : countedRtt? m.settings (m.clock.now - probe.sentAt) with
    | none => exact .inl ⟨rfl, rfl⟩
    | some rtt =>
      refine .inr ⟨rtt, rfl, ?_⟩
      dsimp only [recordRtt]
      cases m.links[probe.neighbor]? with
      | none => rfl
      | some link =>
        dsimp only
        split <;> rfl

/-- A link that is there after the neighbors have been taken over was there before, or is that of a
neighbor in the table. -/
theorem of_adoptNeighbors {n : Name} {link : LinkState α}
    (h : m.adoptNeighbors.links[n]? = some link) : m.links[n]? = some link ∨
      ∃ a ∈ m.neighbors.toList, a.name = n ∧ link = m.configuredLink a := by
  have hfold : ∀ (as : List (Adjacency α)) (links : NameMap (LinkState α)),
      (as.foldl (fun links a => links.insert a.name (m.configuredLink a)) links)[n]? = some link →
      links[n]? = some link ∨ ∃ a ∈ as, a.name = n ∧ link = m.configuredLink a := by
    intro as
    induction as with
    | nil => exact fun _ hlinks => .inl hlinks
    | cons a as ih =>
      intro links hlinks
      rcases ih _ hlinks with hold | ⟨b, hb, hname, hlink⟩
      · rw [Std.ExtTreeMap.getElem?_insert] at hold
        split at hold
        · next hcmp =>
          exact .inr ⟨a, List.mem_cons_self .., Std.LawfulEqCmp.eq_of_compare hcmp,
            (Option.some.inj hold).symm⟩
        · exact .inl hold
      · exact .inr ⟨b, List.mem_cons_of_mem _ hb, hname, hlink⟩
  exact hfold _ _ h

end MonitorState

namespace Monitor

variable {α σ : Type} {m m' m'' : Monitor α σ}

/-- The second monitor has the hooks of the first, and differs in its state at most in costs and in
what is requested on their account. -/
def CostsDiffer (m m' : Monitor α σ) : Prop :=
  m'.hooks = m.hooks ∧ m.toMonitorState.CostsDiffer m'.toMonitorState

/-- A monitor differs in nothing from itself. -/
theorem CostsDiffer.refl (m : Monitor α σ) : CostsDiffer m m := ⟨rfl, .refl _⟩

/-- Two steps that change costs make another one. -/
theorem CostsDiffer.trans (h : CostsDiffer m m') (h' : CostsDiffer m' m'') : CostsDiffer m m'' :=
  ⟨h'.1.trans h.1, h.2.trans h'.2⟩

variable [Scalar α]

/-- A new cost touches nothing but costs and what is requested on their account. -/
theorem costsDiffer_updateCost (m : Monitor α σ) (neighbor : Name) (cost : α) :
    CostsDiffer m (m.updateCost neighbor cost) := by
  unfold updateCost
  split
  · exact .refl m
  · next advertised metrics _ =>
    have htransformed : CostsDiffer m (m.transformed neighbor cost metrics).2 := by
      unfold transformed
      split
      · exact .refl m
      · exact ⟨rfl, .refl _⟩
    have happly : ∀ m' : Monitor α σ, ∀ final,
        CostsDiffer m' (m'.act (·.applyCost neighbor advertised final)) := fun m' final =>
      ⟨rfl, MonitorState.costsDiffer_applyCost _ neighbor advertised final⟩
    exact htransformed.trans (happly _ _)

/-- What a transform is asked touches nothing but what the hooks remember. -/
theorem toMonitorState_transformed (m : Monitor α σ) (neighbor : Name) (cost : α)
    (metrics : LinkMetrics α) :
    (m.transformed neighbor cost metrics).2.toMonitorState = m.toMonitorState := by
  unfold transformed
  split
  · rfl
  · rfl

/-- So does a report of performance. -/
theorem toMonitorState_tellPerformance (m : Monitor α σ) (neighbor : Name)
    (x : MonitorState.Measurement α) :
    (m.tellPerformance neighbor x).toMonitorState = m.toMonitorState := by
  unfold tellPerformance
  split
  · rfl
  · split
    · rfl
    · rfl

/-- To hear of performance changes no state but that of the hooks. -/
theorem costsDiffer_tellPerformance (m : Monitor α σ) (neighbor : Name)
    (x : MonitorState.Measurement α) : CostsDiffer m (m.tellPerformance neighbor x) := by
  unfold tellPerformance
  split
  · exact .refl m
  · split
    · exact ⟨rfl, .refl _⟩
    · exact .refl m

/-- A revision changes costs and requests only. -/
theorem costsDiffer_reviseCost (m : Monitor α σ) (neighbor : Name)
    (x : MonitorState.Measurement α) : CostsDiffer m (m.reviseCost neighbor x) := by
  unfold reviseCost
  split
  · split
    · exact .refl m
    · split
      · exact costsDiffer_updateCost m neighbor _
      · exact .refl m
  · exact .refl m

/-- What the outcome of a probe does. Nothing at all unless the probe is pending; otherwise it is
pending no longer, and if the outcome is an answer whose round-trip time counts, the time is
recorded for the neighbor that the probe was sent to, which may have a new cost then. -/
theorem handleOutcome_cases (m : Monitor α σ) (o : ProbeOutcome) :
    (m.pending[o.seq]? = none ∧ m.handleOutcome o = m) ∨
    ∃ probe, m.pending[o.seq]? = some probe ∧
      (m.handleOutcome o = m.act ({ · with pending := m.pending.erase o.seq }) ∨
        ∃ rtt, o.kind = .data ∧
          MonitorState.countedRtt? m.settings (m.clock.now - probe.sentAt) = some rtt ∧
          CostsDiffer (m.act ({ · with
            pending := m.pending.erase o.seq
            stats.measured := m.stats.measured + 1
            links := (m.recordRtt probe.neighbor rtt).2.links })) (m.handleOutcome o)) := by
  have hforget : m.pending[o.seq]? = none → m.act (·.forget o.seq) = m := fun hp => by
    have herase : m.pending.erase o.seq = m.pending := Std.ExtTreeMap.ext_getElem? fun k => by
      rw [Std.ExtTreeMap.getElem?_erase]
      split
      · next hk => rw [← Std.LawfulEqCmp.eq_of_compare hk, hp]
      · rfl
    show ({ m with pending := m.pending.erase o.seq } : Monitor α σ) = m
    rw [herase]
  cases hk : o.kind with
  | data =>
    have heq : m.handleOutcome o = m.handleResponse o.seq := by
      unfold handleOutcome
      rw [hk]
    rw [heq]
    unfold handleResponse
    rcases m.measure_cases o.seq with ⟨hp, hm⟩ | ⟨probe, hp, ⟨-, hm⟩ | ⟨rtt, hr, hm⟩⟩
    · exact .inl ⟨hp, by rw [hm]⟩
    · exact .inr ⟨probe, hp, .inl (by rw [hm]; rfl)⟩
    · refine .inr ⟨probe, hp, .inr ⟨rtt, rfl, hr, ?_⟩⟩
      rw [hm]
      cases (m.recordRtt probe.neighbor rtt).1 with
      | none => exact .refl _
      | some x =>
        exact (costsDiffer_tellPerformance _ probe.neighbor x).trans
          (costsDiffer_reviseCost _ probe.neighbor x)
  | nack | timeout =>
    have heq : m.handleOutcome o = m.act (·.forget o.seq) := by
      unfold handleOutcome
      rw [hk]
    rw [heq]
    cases hp : m.pending[o.seq]? with
    | none => exact .inl ⟨rfl, hforget hp⟩
    | some probe => exact .inr ⟨probe, rfl, .inl rfl⟩

/-! ## Timers -/

/-- An operation that spares the timers leaves them as they are. -/
theorem sameTimers_apply (m : Monitor α σ) {op : Operation α σ} (hop : op.SparesTimers) :
    m.SameTimers (m.apply op).toMonitorState := by
  cases op with
  | start | stop | poll | scheduleProbe n | news e | advance elapsed => exact hop.elim
  | sendProbe n =>
    show m.SameTimers (m.sendProbe n).2
    rcases m.sendProbe_cases n with heq | heq <;> rw [heq] <;> exact ⟨rfl, rfl, rfl, rfl, rfl⟩
  | outcome o =>
    show m.SameTimers (m.handleOutcome o).toMonitorState
    rcases m.handleOutcome_cases o with
      ⟨-, heq⟩ | ⟨_, -, heq | ⟨_, -, -, -, _, _, _, _, _, heq, -⟩⟩ <;>
      rw [heq] <;> exact ⟨rfl, rfl, rfl, rfl, rfl⟩
  | updateCost n cost =>
    obtain ⟨-, _, _, _, _, _, heq, -⟩ := m.costsDiffer_updateCost n cost
    show m.SameTimers (m.updateCost n cost).toMonitorState
    rw [heq]
    exact ⟨rfl, rfl, rfl, rfl, rfl⟩
  | report =>
    obtain ⟨_, heq⟩ := m.report_eq
    show m.SameTimers m.report
    rw [heq]
    exact ⟨rfl, rfl, rfl, rfl, rfl⟩
  | adoptNeighbors | setHooks hooks memory | surround change => exact ⟨rfl, rfl, rfl, rfl, rfl⟩

/-! ## Links -/

/-- Whatever an operation does to the links, it leaves their standing alone, unless it takes over
neighbors, brings news of one or the outcome of a probe. -/
theorem sameStanding_apply (m : Monitor α σ) {op : Operation α σ} (hadopt : op ≠ .adoptNeighbors)
    (hnews : ∀ e, op ≠ .news e) (houtcome : ∀ o, op ≠ .outcome o) :
    SameStanding m.links (m.apply op).links := by
  -- Stopping and setting costs touch the links, but not their standing; all other operations leave
  -- the links.
  cases op with
  | adoptNeighbors => exact absurd rfl hadopt
  | news e => exact absurd rfl (hnews e)
  | outcome o => exact absurd rfl (houtcome o)
  | start =>
    show SameStanding m.links m.start.links
    unfold MonitorState.start
    split
    · exact .refl _
    · exact .refl _
  | stop =>
    show SameStanding m.links m.stop.links
    unfold MonitorState.stop
    split
    · intro n
      dsimp only
      rw [Std.ExtTreeMap.getElem?_map, Option.map_map]
      rfl
    · exact .refl _
  | poll => exact .of_eq m.probingDiffers_poll.links
  | scheduleProbe k => exact .of_eq (m.timersDiffer_scheduleProbe k).links
  | sendProbe k =>
    show SameStanding m.links (m.sendProbe k).2.links
    rcases m.sendProbe_cases k with heq | heq
    · rw [heq]
      exact .refl _
    · rw [heq]
      exact .refl _
  | updateCost k cost => exact (m.costsDiffer_updateCost k cost).2.sameStanding
  | report =>
    obtain ⟨_, heq⟩ := m.report_eq
    show SameStanding m.links m.report.links
    rw [heq]
    exact .refl _
  | setHooks hooks memory | advance elapsed | surround change => exact .refl _

/-- Whatever is read off the standing of a link besides its round-trip times changes only with news
of neighbors, and when the neighbors are adopted. -/
theorem map_apply (m : Monitor α σ) {op : Operation α σ} (hadopt : op ≠ .adoptNeighbors)
    (hnews : ∀ e, op ≠ .news e) {β : Type} (f : LinkState α → β) (hf : ∀ l, f l.standing = f l)
    (hrecord : ∀ (l : LinkState α) rtt, f (l.record rtt) = f l) (n : Name) :
    (m.apply op).links[n]?.map f = m.links[n]?.map f := by
  by_cases houtcome : ∃ o, op = .outcome o
  · obtain ⟨o, rfl⟩ := houtcome
    show (m.handleOutcome o).links[n]?.map f = _
    rcases m.handleOutcome_cases o with ⟨-, heq⟩ | ⟨probe, -, heq | ⟨rtt, -, -, -, hcosts⟩⟩
    · rw [heq]
    · rw [heq]
      rfl
    · rw [hcosts.sameStanding.map_eq f hf n]
      exact m.map_recordRtt probe.neighbor rtt f (fun l => hrecord l rtt) n
  · exact (m.sameStanding_apply hadopt hnews fun o ho => houtcome ⟨o, ho⟩).map_eq f hf n

end Monitor

end AdaptiveRouting
