import AdaptiveRouting.Proofs.Monitor.News

/-!
# How an inactive neighbor becomes active again

Only news of a neighbor changes its status. Two kinds of news make an inactive neighbor active: it
is reported active, or it answers a hello. The first takes the neighbor back at its configured cost,
in the link and in a neighbor table that takes costs; the second takes it back at whatever cost was
in force when it was given up. So the configured cost is restored exactly in the first case, unless
it was in force all the time (`reactivation_restores_iff`).
-/

namespace AdaptiveRouting

variable {α σ : Type}

namespace Monitor

variable [Scalar α] {m : Monitor α σ} {op : Operation α σ}

/-- The status of a neighbor changes with news of it, and when the neighbors are adopted. -/
theorem status_apply (hadopt : op ≠ .adoptNeighbors) (hnews : ∀ e, op ≠ .news e) (n : Name) :
    (m.apply op).links[n]?.map (·.status) = m.links[n]?.map (·.status) :=
  m.map_apply hadopt hnews (·.status) (fun _ => rfl) (fun _ _ => rfl) n

end Monitor

/-- News that makes an inactive link active says that its neighbor is active, or that it answered a
hello. -/
theorem LinkState.informed_active {l : LinkState α} {settings : LinkSettings α} {now : Instant}
    {e : NeighborEvent} (h : l.status = .inactive)
    (h' : (l.informed settings now e).status = .active) :
    (e = .statusChanged e.neighbor .active ∧
      (l.informed settings now e).currentCost = l.configuredCost) ∨
    (e = .helloReceived e.neighbor ∧ (l.informed settings now e).currentCost = l.currentCost) := by
  cases e with
  | helloSent n => simp [informed, h] at h'
  | helloReceived n => exact .inr ⟨rfl, rfl⟩
  | helloTimeout n timeouts =>
    by_cases ht : settings.retryThreshold ≤ timeouts <;> simp [informed, ht, h] at h'
  | statusChanged n status =>
    cases status with
    | inactive => simp [informed] at h'
    | active => exact .inl ⟨rfl, by simp [informed, h]⟩

/-- News does not change what a link is configured to cost. -/
theorem LinkState.informed_configuredCost (l : LinkState α) (settings : LinkSettings α)
    (now : Instant) (e : NeighborEvent) :
    (l.informed settings now e).configuredCost = l.configuredCost := by
  unfold informed
  split
  · rfl
  · rfl
  · split <;> rfl
  · rfl
  · split <;> rfl

/-- The cost in the table once an inactive neighbor has been reported active. -/
theorem MonitorState.linkCost?_informedTable {m : MonitorState α} {n : Name} {link : LinkState α}
    (h : m.links[n]? = some link) (hinactive : link.status = .inactive) :
    (m.informedTable (.statusChanged n .active)).linkCost? n =
      if m.costsLocked then m.neighbors.linkCost? n
      else (m.neighbors.linkCost? n).map fun _ => link.configuredCost := by
  rw [← linkCost?_tryWriteCost]
  simp [informedTable, h, hinactive]

/-- It takes news of a neighbor to make it active again. -/
theorem Monitor.news_of_reactivated [Scalar α] {m : Monitor α σ} {op : Operation α σ} {n : Name}
    {link link' : LinkState α} (hadopt : op ≠ .adoptNeighbors) (h : m.links[n]? = some link)
    (h' : (m.apply op).links[n]? = some link') (hinactive : link.status = .inactive)
    (hactive : link'.status = .active) :
    ∃ e : NeighborEvent, op = .news e ∧ e.neighbor = n ∧
      link' = link.informed m.settings m.clock.now e := by
  by_cases hnews : ∃ e, op = .news e
  · obtain ⟨e, rfl⟩ := hnews
    have hlink := (m.informed_handleNews e).link n
    rw [show (m.handleNews e).links[n]? = some link' from h', h] at hlink
    split at hlink
    · next hn => exact ⟨e, rfl, hn.symm, Option.some.inj hlink⟩
    · cases hlink
      rw [hinactive] at hactive
      cases hactive
  · have hstatus := status_apply hadopt (fun e he => hnews ⟨e, he⟩) n (m := m)
    rw [h, h', Option.map_some, Option.map_some, hinactive, hactive] at hstatus
    cases hstatus

/-- **When reactivation restores the configured cost.** Whatever makes an inactive neighbor active
is a report that it is active or the answer to a hello. Its configured cost is in force afterwards
exactly if it was reported active, or was at that cost before. The cost in the neighbor table is the
configured one exactly if the neighbor was reported active and the table takes costs, or if the
table had that cost before. -/
theorem reactivation_restores_iff [Scalar α] {m : Monitor α σ} {op : Operation α σ} {n : Name}
    {link link' : LinkState α} (hadopt : op ≠ .adoptNeighbors) (h : m.links[n]? = some link)
    (h' : (m.apply op).links[n]? = some link') (hinactive : link.status = .inactive)
    (hactive : link'.status = .active) :
    (op = .news (.statusChanged n .active) ∨ op = .news (.helloReceived n)) ∧
    link'.configuredCost = link.configuredCost ∧
    (link'.currentCost = link'.configuredCost ↔
      op = .news (.statusChanged n .active) ∨ link.currentCost = link.configuredCost) ∧
    ∀ cost, (m.apply op).neighbors.linkCost? n = some cost → (cost = link'.configuredCost ↔
      op = .news (.statusChanged n .active) ∧ m.costsLocked = false ∨
        m.neighbors.linkCost? n = some link.configuredCost) := by
  obtain ⟨e, rfl, rfl, rfl⟩ := Monitor.news_of_reactivated hadopt h h' hinactive hactive
  have htable := (m.informed_handleNews e).neighbors
  rw [link.informed_configuredCost m.settings m.clock.now e]
  rcases LinkState.informed_active hinactive hactive with ⟨he, hcost⟩ | ⟨he, hcost⟩
  · generalize e.neighbor = n at *
    subst he
    refine ⟨.inl rfl, rfl, by simp [hcost], fun cost hc => ?_⟩
    have hwritten := MonitorState.linkCost?_informedTable h hinactive
    rw [← htable, show (m.handleNews _).neighbors.linkCost? n = some cost from hc] at hwritten
    cases hl : m.costsLocked with
    | true =>
      rw [hl, if_pos rfl] at hwritten
      simp [← hwritten]
    | false =>
      rw [hl, if_neg Bool.false_ne_true] at hwritten
      obtain ⟨-, -, hcost'⟩ := Option.map_eq_some_iff.1 hwritten.symm
      simp [hcost']
  · generalize e.neighbor = n at *
    subst he
    have hsame : (m.apply (.news (.helloReceived n))).neighbors = m.neighbors := htable
    refine ⟨.inr rfl, rfl, by simp [hcost], fun cost hc => ?_⟩
    rw [hsame] at hc
    simp [hc]

/-- A neighbor for the example below. -/
def Name.distant : Name := { components := ["distant"] }

/-- A monitor that has given up its neighbor, whose cost was not the configured one. -/
def Monitor.bereft : Monitor Float Unit :=
  (Monitor.idle
    { (Surroundings.quiet : Surroundings Float) with
      neighbors := .ofList [⟨.distant, .active, 14.0, 10.0, 0⟩] }
    .standard ()).run [.adoptNeighbors, .news (.helloTimeout .distant 3)]

/-- A hello brings the neighbor back at its old cost, a report at the configured one. -/
theorem reactivation_bereft : Monitor.bereft.Reachable ∧
    ∃ link, Monitor.bereft.links[Name.distant]? = some link ∧ link.status = .inactive ∧
      (∃ link', (Monitor.bereft.apply (.news (.helloReceived .distant))).links[Name.distant]? =
        some link' ∧ link'.status = .active ∧ link'.currentCost ≠ link'.configuredCost) ∧
      ∃ link',
        (Monitor.bereft.apply (.news (.statusChanged .distant .active))).links[Name.distant]? =
          some link' ∧ link'.status = .active ∧ link'.currentCost = link'.configuredCost := by
  obtain ⟨link, h, hinactive, hcost⟩ : ∃ link, Monitor.bereft.links[Name.distant]? = some link ∧
      link.status = .inactive ∧ link.currentCost ≠ link.configuredCost :=
    ⟨_, rfl, rfl, by decide⟩
  refine ⟨(Monitor.Reachable.idle _ _ _).run _, link, h, hinactive, ?_, ?_⟩
  · obtain ⟨link', h', hactive⟩ : ∃ link',
        (Monitor.bereft.apply (.news (.helloReceived .distant))).links[Name.distant]? = some link' ∧
        link'.status = .active := ⟨_, rfl, rfl⟩
    refine ⟨link', h', hactive, fun hrestored => ?_⟩
    rcases (reactivation_restores_iff (by simp) h h' hinactive hactive).2.2.1.1 hrestored with
      hop | hbefore
    · simp at hop
    · exact hcost hbefore
  · obtain ⟨link', h', hactive⟩ : ∃ link',
        (Monitor.bereft.apply (.news (.statusChanged .distant .active))).links[Name.distant]? =
          some link' ∧ link'.status = .active := ⟨_, rfl, rfl⟩
    exact ⟨link', h', hactive,
      (reactivation_restores_iff (by simp) h h' hinactive hactive).2.2.1.2 (.inl rfl)⟩

end AdaptiveRouting
