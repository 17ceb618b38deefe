import AdaptiveRouting.Proofs.Monitor.Frames
import Mathlib.Algebra.GroupWithZero.Nat

/-!
# What news of a neighbor does

News changes the link of the neighbor that it is about and no other (`LinkState.informed`). The
neighbor table is written only when an inactive neighbor is reported active
(`MonitorState.informedTable`), and probes are given up only when a neighbor is reported inactive;
beyond that nothing but timers is touched. `MonitorState.Informed` says all this of the states
before and after the news, and `MonitorState.informed_handleNews` that it is so. Of the timers, the
one of the neighbor is armed or none is (`MonitorState.handleNews_eq`).

With this the operations are accounted for, and it can be said of all of them that they leave the
settings as they are, the hooks unless others set them, each link filed under the name of its
neighbor, and the clock unless time passes (`Monitor.settings_apply`, `Monitor.hooks_apply`,
`Monitor.filed_apply`, `Monitor.now_apply`).
-/

namespace AdaptiveRouting

variable {α : Type}

/-- What a link becomes when there is news of its neighbor. -/
def LinkState.informed (l : LinkState α) (settings : LinkSettings α) (now : Instant) :
    NeighborEvent → LinkState α
  | .helloSent _ => l
  | .helloReceived _ => { l with status := .active, timeouts := 0, lastSuccess := now }
  | .helloTimeout _ timeouts =>
    if settings.retryThreshold ≤ timeouts then
      { l with timeouts, history := [], status := .inactive }
    else { l with timeouts }
  | .statusChanged _ .inactive =>
    { l with history := [], status := .inactive, timeouts := settings.retryThreshold }
  | .statusChanged _ .active =>
    if l.status = .active then l
    else { l with
      status := .active
      currentCost := l.configuredCost
      timeouts := 0
      lastSuccess := now }

namespace MonitorState

variable {m m' m'' : MonitorState α} {e : NeighborEvent}

/-- A table that takes costs has the new one for a neighbor that it knows. -/
theorem linkCost?_tryWriteCost (m : MonitorState α) (table : AdjacencyTable α) (n : Name)
    (cost : α) : (m.tryWriteCost table n cost).linkCost? n =
      if m.costsLocked then table.linkCost? n else (table.linkCost? n).map fun _ => cost := by
  unfold tryWriteCost writtenCost?
  cases m.costsLocked with
  | true => rfl
  | false =>
    rw [if_neg Bool.false_ne_true, if_neg Bool.false_ne_true]
    unfold AdjacencyTable.setLinkCost AdjacencyTable.modify
    cases h : table.entries[n]? with
    | none => simp [AdjacencyTable.linkCost?, AdjacencyTable.find?, h, Except.toOption]
    | some a => simp [AdjacencyTable.linkCost?, AdjacencyTable.find?, h, Except.toOption]

/-- The neighbor table after news: an inactive neighbor that is reported active is written back at
its configured cost. -/
def informedTable (m : MonitorState α) : NeighborEvent → AdjacencyTable α
  | .statusChanged n .active =>
    match m.links[n]? with
    | none => m.neighbors
    | some link =>
      if link.status = .active then m.neighbors
      else m.tryWriteCost m.neighbors n link.configuredCost
  | _ => m.neighbors

/-- The second state is the first one after some news, apart from timers. -/
structure Informed (m : MonitorState α) (e : NeighborEvent) (m' : MonitorState α) : Prop where
  /-- The link of the neighbor has taken the news, the others are what they were. -/
  link (k : Name) : m'.links[k]? =
    if k = e.neighbor then m.links[k]?.map (·.informed m.settings m.clock.now e) else m.links[k]?
  /-- The table has taken the news. -/
  neighbors : m'.neighbors = m.informedTable e
  /-- A probe is given up only when its neighbor is reported inactive. -/
  pending (seq : UInt32) : m'.pending[seq]? = m.pending[seq]? ∨
    m'.pending[seq]? = none ∧ e = .statusChanged e.neighbor .inactive ∧
      ∃ probe, m.pending[seq]? = some probe ∧ probe.neighbor = e.neighbor
  /-- All else is what it was. -/
  rest : ∃ links neighbors pending timers probeTimers drawn, m' = { m with
    links, neighbors, pending, timers, probeTimers, drawn }

/-- Timers can be armed and disarmed after the news. -/
theorem Informed.trans_timersDiffer (h : Informed m e m') (h' : TimersDiffer m' m'') :
    Informed m e m'' := by
  obtain ⟨hlink, hneighbors, hpending, _, _, _, _, _, _, rfl⟩ := h
  obtain ⟨_, _, _, rfl⟩ := h'
  exact ⟨hlink, hneighbors, hpending, _, _, _, _, _, _, rfl⟩

/-- News of an unknown neighbor does nothing. -/
theorem informed_of_unknown (h : m.links[e.neighbor]? = none) : Informed m e m where
  link k := by
    split
    · next hk => rw [hk, h, Option.map_none]
    · rfl
  neighbors := by
    unfold informedTable
    split
    · next n => rw [show m.links[n]? = none from h]
    · rfl
  pending _ := .inl rfl
  rest := ⟨_, _, _, _, _, _, rfl⟩

/-- The map of links in which one has taken the news. -/
theorem getElem?_insert_informed {link link' : LinkState α} (h : m.links[e.neighbor]? = some link)
    (h' : link' = link.informed m.settings m.clock.now e) (k : Name) :
    (m.links.insert e.neighbor link')[k]? = if k = e.neighbor then
      m.links[k]?.map (·.informed m.settings m.clock.now e) else m.links[k]? := by
  rw [Std.ExtTreeMap.getElem?_insert]
  by_cases hk : e.neighbor = k
  · subst hk
    simp [h, h']
  · simp [hk, Ne.symm hk]

/-! ## Each kind of news -/

/-- A hello is news of its kind. -/
theorem informed_helloReceived (m : MonitorState α) (n : Name) :
    Informed m (.helloReceived n) (m.helloReceived n) := by
  unfold helloReceived
  split
  · next h => exact informed_of_unknown h
  · next link h =>
    have hlink : Informed m (.helloReceived n) { m with
        links := m.links.insert n (link.informed m.settings m.clock.now (.helloReceived n)) } :=
      ⟨getElem?_insert_informed (e := .helloReceived n) h rfl, rfl, fun _ => .inl rfl,
        _, _, _, _, _, _, rfl⟩
    dsimp only
    split
    · exact hlink.trans_timersDiffer (timersDiffer_ensureProbe _ n)
    · exact hlink

/-- A hello that is missing is news of its kind. -/
theorem informed_helloTimeout (m : MonitorState α) (n : Name) (timeouts : Nat) :
    Informed m (.helloTimeout n timeouts) (m.helloTimeout n timeouts) where
  link k := by
    show (m.links.modify n _)[k]? = _
    rw [Std.ExtTreeMap.getElem?_modify]
    by_cases hk : n = k
    · subst hk
      rw [if_pos Std.ReflCmp.compare_self]
      exact (if_pos rfl).symm
    · rw [if_neg (by simpa using hk)]
      exact (if_neg (Ne.symm hk)).symm
  neighbors := rfl
  pending _ := .inl rfl
  rest := ⟨_, _, _, _, _, _, rfl⟩

/-- A neighbor that is given up takes its probes with it. -/
theorem getElem?_pending_deactivate (m : MonitorState α) (n : Name) (link : LinkState α)
    (seq : UInt32) : (m.deactivate n link).pending[seq]? =
      m.pending[seq]?.filter fun probe => probe.neighbor ≠ n :=
  Std.ExtTreeMap.getElem?_filter'

/-- A neighbor that is given up is informed of being inactive. -/
theorem informed_deactivate {n : Name} {link : LinkState α} (h : m.links[n]? = some link) :
    Informed m (.statusChanged n .inactive) (m.deactivate n link) where
  link := getElem?_insert_informed (e := .statusChanged n .inactive) h rfl
  neighbors := rfl
  pending seq := by
    rw [getElem?_pending_deactivate]
    cases hp : m.pending[seq]? with
    | none => exact .inl rfl
    | some probe =>
      by_cases hn : probe.neighbor = n
      · exact .inr ⟨by simp [hn], rfl, probe, rfl, hn⟩
      · exact .inl (by simp [hn])
  rest := ⟨_, _, _, _, _, _, rfl⟩

/-- Whoever is active already is not taken back. -/
theorem informed_of_active {n : Name} {link : LinkState α} (h : m.links[n]? = some link)
    (hs : link.status = .active) : Informed m (.statusChanged n .active) m where
  link k := by
    by_cases hk : k = n
    · subst hk
      simp [NeighborEvent.neighbor, h, LinkState.informed, hs]
    · exact (if_neg hk).symm
  neighbors := by simp [informedTable, h, hs]
  pending _ := .inl rfl
  rest := ⟨_, _, _, _, _, _, rfl⟩

/-- A neighbor that is taken back is informed of being active. -/
theorem informed_reactivate {n : Name} {link : LinkState α} (h : m.links[n]? = some link)
    (hs : link.status ≠ .active) :
    Informed m (.statusChanged n .active) (m.reactivate n link) := by
  have htaken : Informed m (.statusChanged n .active) { m with
      links := m.links.insert n { link with
        status := .active
        currentCost := link.configuredCost
        timeouts := 0
        lastSuccess := m.clock.now }
      neighbors := m.tryWriteCost m.neighbors n link.configuredCost } :=
    ⟨getElem?_insert_informed (e := .statusChanged n .active) h (by simp [LinkState.informed, hs]),
      by simp [informedTable, h, hs], fun _ => .inl rfl, _, _, _, _, _, _, rfl⟩
  unfold reactivate
  dsimp only
  split
  · exact htaken.trans_timersDiffer (timersDiffer_ensureProbe _ n)
  · exact htaken

/-- What news does, of whatever kind. -/
theorem informed_handleNews (m : MonitorState α) (e : NeighborEvent) :
    Informed m e (m.handleNews e) := by
  cases e with
  | helloSent n =>
    exact ⟨fun k => by simp [handleNews, LinkState.informed], rfl, fun _ => .inl rfl,
      _, _, _, _, _, _, rfl⟩
  | helloReceived n => exact informed_helloReceived m n
  | helloTimeout n timeouts => exact informed_helloTimeout m n timeouts
  | statusChanged n status =>
    show Informed m _ (m.statusChanged n status)
    unfold statusChanged
    split
    · next h => exact informed_of_unknown h
    · next link h =>
      cases status with
      | inactive => exact informed_deactivate h
      | active =>
        by_cases hs : link.status = .active
        · exact if_pos hs ▸ informed_of_active h hs
        · exact if_neg hs ▸ informed_reactivate h hs

/-! ## What it does to the timers -/

/-- News on which a timer is armed for its neighbor unless it has one. -/
def Arms (m : MonitorState α) (e : NeighborEvent) : Prop :=
  m.active = true ∧ ∃ link, m.links[e.neighbor]? = some link ∧
    (e = .helloReceived e.neighbor ∧ link.history = [] ∨
      e = .statusChanged e.neighbor .active ∧ link.status ≠ .active)

/-- What news does to the timers: nothing, or the neighbor is armed. -/
theorem handleNews_eq (m : MonitorState α) (e : NeighborEvent) :
    ∃ heard : MonitorState α, heard.timers = m.timers ∧ heard.probeTimers = m.probeTimers ∧
      heard.active = m.active ∧ (m.Arms e ∧ m.handleNews e = heard.ensureProbe e.neighbor ∨
        ¬ m.Arms e ∧ m.handleNews e = heard) := by
  cases e with
  | helloSent n => exact ⟨m, rfl, rfl, rfl, .inr ⟨fun h => by simp [Arms] at h, rfl⟩⟩
  | helloReceived n =>
    simp only [Arms, handleNews, helloReceived, NeighborEvent.neighbor]
    split
    · next hlink => exact ⟨m, rfl, rfl, rfl, .inr ⟨fun h => by simp [hlink] at h, rfl⟩⟩
    · next link hlink =>
      split
      · next ha =>
        refine ⟨_, ?_, ?_, ?_, .inl ⟨?_, rfl⟩⟩ <;> try rfl
        simpa [hlink, LinkState.isStable, LinkState.samples] using ha
      · next ha =>
        refine ⟨_, ?_, ?_, ?_, .inr ⟨?_, rfl⟩⟩ <;> try rfl
        simpa [hlink, LinkState.isStable, LinkState.samples] using ha
  | helloTimeout n timeouts =>
    exact ⟨m.helloTimeout n timeouts, rfl, rfl, rfl, .inr ⟨fun h => by simp [Arms] at h, rfl⟩⟩
  | statusChanged n status =>
    simp only [Arms, handleNews, statusChanged, NeighborEvent.neighbor]
    split
    · next hlink => exact ⟨m, rfl, rfl, rfl, .inr ⟨fun h => by simp [hlink] at h, rfl⟩⟩
    · next link hlink =>
      cases status with
      | inactive =>
        exact ⟨m.deactivate n link, rfl, rfl, rfl, .inr ⟨fun h => by simp at h, rfl⟩⟩
      | active =>
        dsimp only
        split
        · next hs => exact ⟨m, rfl, rfl, rfl, .inr ⟨fun h => by simp [hlink, hs] at h, rfl⟩⟩
        · next hs =>
          unfold reactivate
          dsimp only
          split
          · next ha =>
            refine ⟨_, ?_, ?_, ?_, .inl ⟨⟨ha, link, hlink, .inr ⟨rfl, hs⟩⟩, rfl⟩⟩ <;> rfl
          · next ha => refine ⟨_, ?_, ?_, ?_, .inr ⟨fun h => ha h.1, rfl⟩⟩ <;> rfl

end MonitorState

/-! ## Every operation -/

/-- The time that passes in an operation. -/
def Operation.elapsed {σ : Type} : Operation α σ → Duration
  | .advance elapsed => elapsed
  | _ => 0

/-- Each link is filed under the name of its neighbor. -/
def Filed (links : NameMap (LinkState α)) : Prop :=
  ∀ (n : Name) link, links[n]? = some link → link.neighbor = n

/-- A link can be filed under the name of its neighbor. -/
theorem Filed.insert {links : NameMap (LinkState α)} {n : Name} {link : LinkState α}
    (h : Filed links) (hn : link.neighbor = n) : Filed (links.insert n link) := by
  intro k l hk
  rw [Std.ExtTreeMap.getElem?_insert] at hk
  split at hk
  · next hcmp =>
    cases hk
    exact hn.trans (Std.LawfulEqCmp.eq_of_compare hcmp)
  · exact h k l hk

/-- Links are filed as before if each key leads to the same neighbor. -/
theorem Filed.of_map_neighbor {links links' : NameMap (LinkState α)} (h : Filed links)
    (hmap : ∀ n : Name, links'[n]?.map (·.neighbor) = links[n]?.map (·.neighbor)) :
    Filed links' := by
  intro n link hn
  have hname := hmap n
  rw [hn, Option.map_some] at hname
  obtain ⟨l, hl, hneighbor⟩ := Option.map_eq_some_iff.1 hname.symm
  exact hneighbor.symm.trans (h n l hl)

/-- News does not change whose link it is. -/
theorem LinkState.informed_neighbor (l : LinkState α) (settings : LinkSettings α) (now : Instant)
    (e : NeighborEvent) : (l.informed settings now e).neighbor = l.neighbor := by
  unfold informed
  split
  · rfl
  · rfl
  · split <;> rfl
  · rfl
  · split <;> rfl

/-- Neighbors are taken over under their own names. -/
theorem MonitorState.filed_adoptNeighbors {m : MonitorState α} (h : Filed m.links) :
    Filed m.adoptNeighbors.links := by
  intro n link hlink
  rcases of_adoptNeighbors hlink with hold | ⟨a, -, hname, rfl⟩
  · exact h n link hold
  · exact hname

namespace Monitor

variable {σ : Type} [Scalar α]

/-- Every operation leaves each link filed under the name of its neighbor. -/
theorem filed_apply {m : Monitor α σ} (h : Filed m.links) (op : Operation α σ) :
    Filed (m.apply op).links := by
  by_cases hadopt : op = .adoptNeighbors
  · subst hadopt
    exact MonitorState.filed_adoptNeighbors h
  by_cases hnews : ∃ e, op = .news e
  · obtain ⟨e, rfl⟩ := hnews
    refine h.of_map_neighbor fun n => ?_
    have hlink := (m.informed_handleNews e).link n
    rw [show (m.apply (.news e)).links = (m.handleNews e).links from rfl, hlink]
    split
    · rw [Option.map_map]
      exact congrArg (fun f => Option.map f _) (funext fun l => l.informed_neighbor _ _ e)
    · rfl
  · exact h.of_map_neighbor
      (m.map_apply hadopt (fun e he => hnews ⟨e, he⟩) (·.neighbor) (fun _ => rfl) fun _ _ => rfl)

/-- No operation changes the settings. -/
theorem settings_apply (m : Monitor α σ) (op : Operation α σ) :
    (m.apply op).settings = m.settings := by
  cases op with
  | advance elapsed => rfl
  | start =>
    show m.start.settings = m.settings
    unfold MonitorState.start
    split <;> rfl
  | stop =>
    show m.stop.settings = m.settings
    unfold MonitorState.stop
    split <;> rfl
  | poll => exact m.probingDiffers_poll.settings
  | scheduleProbe n => exact (m.timersDiffer_scheduleProbe n).settings
  | news e =>
    obtain ⟨_, _, _, _, _, _, heq⟩ := (m.informed_handleNews e).rest
    exact congrArg (·.settings) heq
  | _ => exact (m.sameTimers_apply (by exact trivial)).settings

/-- No run changes the settings. -/
theorem settings_run (m : Monitor α σ) (ops : List (Operation α σ)) :
    (m.run ops).settings = m.settings :=
  run_keeps (P := fun m' => m'.settings = m.settings) rfl
    fun s _ hs => (s.1.settings_apply s.2).trans hs

/-- Nothing but the passing of time moves the clock. -/
theorem now_apply (m : Monitor α σ) (op : Operation α σ) :
    (m.apply op).clock.now = m.clock.now + op.elapsed := by
  cases op with
  | advance elapsed => rfl
  | start =>
    show m.start.clock.now = m.clock.now
    unfold MonitorState.start
    split <;> rfl
  | stop =>
    show m.stop.clock.now = m.clock.now
    unfold MonitorState.stop
    split <;> rfl
  | poll => exact congrArg (·.now) m.probingDiffers_poll.clock
  | scheduleProbe n => exact congrArg (·.now) (m.timersDiffer_scheduleProbe n).clock
  | news e =>
    obtain ⟨_, _, _, _, _, _, heq⟩ := (m.informed_handleNews e).rest
    exact congrArg (·.clock.now) heq
  | _ => exact (m.sameTimers_apply (by exact trivial)).now

/-- The time that has passed when a run is over. -/
theorem now_run (m : Monitor α σ) (ops : List (Operation α σ)) :
    (m.run ops).clock.now = m.clock.now + (ops.map (·.elapsed)).sum := by
  induction ops generalizing m with
  | nil => rfl
  | cons op ops ih =>
    rw [run_cons, ih, now_apply, Nat.add_assoc, List.map_cons, List.sum_cons]

/-- The hooks stay until others set them, so what is true of all these is true of the hooks. -/
theorem hooks_apply {m : Monitor α σ} {op : Operation α σ} {P : Hooks α σ → Prop} (h : P m.hooks)
    (hop : ∀ hooks memory, op = .setHooks hooks memory → P hooks) : P (m.apply op).hooks := by
  cases op with
  | setHooks hooks memory => exact hop hooks memory rfl
  | outcome o =>
    have hkept : (m.handleOutcome o).hooks = m.hooks := by
      rcases m.handleOutcome_cases o with ⟨-, heq⟩ | ⟨_, -, heq | ⟨_, -, -, hcosts⟩⟩
      · rw [heq]
      · rw [heq]
        rfl
      · exact hcosts.1
    exact hkept.symm ▸ h
  | updateCost n cost => exact (m.costsDiffer_updateCost n cost).1.symm ▸ h
  | adoptNeighbors | start | stop | poll | scheduleProbe _ | sendProbe _ | news _ | report
  | advance _ | surround _ => exact h

end Monitor

end AdaptiveRouting
