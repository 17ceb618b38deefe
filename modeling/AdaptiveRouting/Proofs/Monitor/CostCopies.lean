import AdaptiveRouting.Proofs.Monitor.News

/-!
# The two copies of a cost

The cost of a link is kept twice: the link state has the cost in force, and the neighbor table the
one that is advertised. This module says of every operation what it does to both (`costs_apply`). It
keeps them (`KeepsCosts`); or it sets the cost of one neighbor, in both places or in neither
(`SetsCost`); or it restores configured costs, in force in any case and in the table if the table
takes them: of every link when the monitor is stopped (`linkCost?_stop`), and of one neighbor that is
reported active after it had been given up (`copies_reactivated`).

None of this changes which neighbors are in the table, or under which names (`SameNeighbors`).
-/

namespace AdaptiveRouting

variable {α σ : Type}

/-! ## The neighbor table -/

namespace AdjacencyTable

variable {t t' t'' : AdjacencyTable α} {n : Name} {f : α → α}

/-- Each neighbor is in the table under its own name. -/
def Filed (t : AdjacencyTable α) : Prop := ∀ n a, t.find? n = some a → a.name = n

/-- A neighbor that is inserted is filed under its own name. -/
theorem Filed.insert (h : t.Filed) (a : Adjacency α) : (t.insert a).Filed := by
  intro n b hb
  unfold AdjacencyTable.insert find? at hb
  rw [Std.ExtTreeMap.getElem?_insert] at hb
  split at hb
  · next hcmp =>
    cases hb
    exact Std.LawfulEqCmp.eq_of_compare hcmp
  · exact h n b hb

/-- A table made from a list has each neighbor under its own name. -/
theorem filed_ofList (as : List (Adjacency α)) : (ofList as).Filed := by
  have hfold : ∀ t : AdjacencyTable α, t.Filed → (as.foldl AdjacencyTable.insert t).Filed := by
    induction as with
    | nil => exact fun _ ht => ht
    | cons a as ih => exact fun _ ht => ih _ (ht.insert a)
  exact hfold empty fun n a ha => by simp [find?, empty] at ha

/-- The tables have the same neighbors, under the same names. -/
def SameNeighbors (t t' : AdjacencyTable α) : Prop :=
  ∀ n, (t'.find? n).map (·.name) = (t.find? n).map (·.name)

/-- A table has the neighbors that it has. -/
theorem SameNeighbors.refl (t : AdjacencyTable α) : SameNeighbors t t := fun _ => rfl

/-- Equal tables have the same neighbors. -/
theorem SameNeighbors.of_eq (h : t' = t) : SameNeighbors t t' := h ▸ .refl t

/-- The neighbors stay the same in two steps if they do in each. -/
theorem SameNeighbors.trans (h : SameNeighbors t t') (h' : SameNeighbors t' t'') :
    SameNeighbors t t'' := fun n => (h' n).trans (h n)

/-- Whoever was filed under the right name still is, as the names are the same. -/
theorem Filed.of_sameNeighbors (h : t.Filed) (ht : SameNeighbors t t') : t'.Filed := by
  intro n a' ha'
  have hname := ht n
  rw [ha', Option.map_some] at hname
  obtain ⟨a, ha, heq⟩ := Option.map_eq_some_iff.1 hname.symm
  exact heq.symm.trans (h n a ha)

/-- The second table is the first one with another cost for one neighbor, provided that it has this
neighbor at all. -/
structure Repriced (t : AdjacencyTable α) (n : Name) (f : α → α) (t' : AdjacencyTable α) :
    Prop where
  /-- The neighbors are the same. -/
  same : SameNeighbors t t'
  /-- The costs are the same but for the one. -/
  cost (k : Name) : t'.linkCost? k = if k = n then (t.linkCost? k).map f else t.linkCost? k

/-- The neighbor in question has the new cost. -/
theorem Repriced.self (h : t.Repriced n f t') : t'.linkCost? n = (t.linkCost? n).map f :=
  (h.cost n).trans (if_pos rfl)

/-- All others have the cost that they had. -/
theorem Repriced.of_ne (h : t.Repriced n f t') {k : Name} (hk : k ≠ n) :
    t'.linkCost? k = t.linkCost? k := (h.cost k).trans (if_neg hk)

/-- Nothing has been written where the cost is what it should be. -/
theorem repriced_refl (h : ∀ cost, t.linkCost? n = some cost → f cost = cost) :
    t.Repriced n f t where
  same := .refl t
  cost k := by
    split
    · next hk =>
      subst hk
      cases hcost : t.linkCost? k with
      | none => rfl
      | some cost => rw [Option.map_some, h cost hcost]
    · rfl

/-- Setting the cost of a neighbor changes this cost only. -/
theorem repriced_setLinkCost {cost : α} (h : t.setLinkCost n cost = .ok t') :
    t.Repriced n (fun _ => cost) t' := by
  unfold setLinkCost modify at h
  split at h
  · cases h
  · next a ha =>
    cases h
    have hfind : ∀ k, find? ⟨t.entries.insert n { a with linkCost := cost }⟩ k =
        if k = n then some { a with linkCost := cost } else t.find? k := fun k => by
      unfold find?
      rw [Std.ExtTreeMap.getElem?_insert]
      by_cases hk : n = k
      · simp [hk]
      · simp [hk, Ne.symm hk]
    have hn : t.find? n = some a := ha
    refine ⟨fun k => ?_, fun k => ?_⟩
    · rw [hfind]
      split
      · next hk => rw [hk, hn, Option.map_some, Option.map_some]
      · rfl
    · unfold linkCost?
      rw [hfind]
      split
      · next hk => rw [hk, hn, Option.map_some, Option.map_some, Option.map_some]
      · rfl

end AdjacencyTable

open AdjacencyTable (SameNeighbors repriced_refl repriced_setLinkCost)

namespace MonitorState

variable {m m' : MonitorState α} {n : Name} {table : AdjacencyTable α}

/-- The cost in force on the link to a neighbor. -/
def currentCost? (m : MonitorState α) (n : Name) : Option α := m.links[n]?.map (·.currentCost)

/-- Writing the cost of a neighbor changes this cost only. -/
theorem repriced_writtenCost? {cost : α} (h : m.writtenCost? m.neighbors n cost = some table) :
    m.neighbors.Repriced n (fun _ => cost) table := by
  unfold writtenCost? at h
  split at h
  · cases h
  · cases hset : m.neighbors.setLinkCost n cost with
    | error e =>
      rw [hset] at h
      cases h
    | ok t =>
      rw [hset] at h
      cases h
      exact repriced_setLinkCost hset

/-- A table that is not locked takes the cost of a neighbor that it has. -/
theorem repriced_tryWriteCost (m : MonitorState α) (table : AdjacencyTable α) (n : Name)
    (cost : α) : table.Repriced n (fun old => if m.costsLocked then old else cost)
      (m.tryWriteCost table n cost) := by
  unfold tryWriteCost writtenCost?
  cases m.costsLocked with
  | true => exact repriced_refl fun _ _ => rfl
  | false =>
    rw [if_neg Bool.false_ne_true]
    cases hset : table.setLinkCost n cost with
    | error e =>
      -- the only cost that is refused is that of a neighbor the table does not have
      refine repriced_refl fun old hold => ?_
      unfold AdjacencyTable.setLinkCost AdjacencyTable.modify at hset
      split at hset
      · next hnone =>
        rw [AdjacencyTable.linkCost?, AdjacencyTable.find?, hnone] at hold
        cases hold
      · cases hset
    | ok t => exact repriced_setLinkCost hset

/-! ## A new cost -/

/-- One neighbor has another cost, in force and in the table. -/
structure SetsCost (m : MonitorState α) (n : Name) (cost : α) (m' : MonitorState α) : Prop where
  /-- The cost in force is the new one. -/
  current (k : Name) : m'.currentCost? k =
    if k = n then (m.currentCost? k).map fun _ => cost else m.currentCost? k
  /-- So is the cost in the table. -/
  neighbors : m.neighbors.Repriced n (fun _ => cost) m'.neighbors

/-- The request for a rebuild changes no cost. -/
theorem currentCost?_trigger {link : LinkState α} (h : m.links[n]? = some link) (k : Name) :
    (m.trigger n link).currentCost? k = m.currentCost? k ∧
      (m.trigger n link).neighbors = m.neighbors := by
  have hinsert : (m.links.insert n { link with lastTrigger := some m.clock.now })[k]?.map
      (·.currentCost) = m.currentCost? k := by
    rw [Std.ExtTreeMap.getElem?_insert]
    split
    · next hcmp =>
      obtain rfl := Std.LawfulEqCmp.eq_of_compare hcmp
      rw [currentCost?, h, Option.map_some, Option.map_some]
    · rfl
  unfold trigger
  split
  · exact ⟨rfl, rfl⟩
  · dsimp only
    split
    · exact ⟨hinsert, rfl⟩
    · exact ⟨hinsert, rfl⟩

/-- A cost that is put in force is that of one neighbor, if it has a link. -/
theorem currentCost?_adoptCost (m : MonitorState α) (n : Name) (cost : α) (k : Name) :
    (m.adoptCost n cost).currentCost? k =
        (if k = n then (m.currentCost? k).map fun _ => cost else m.currentCost? k) ∧
      (m.adoptCost n cost).neighbors = m.neighbors := by
  unfold adoptCost
  split
  · next hlink =>
    refine ⟨?_, rfl⟩
    split
    · next hk => rw [hk, currentCost?, hlink, Option.map_none, Option.map_none]
    · rfl
  · next link hlink =>
    obtain ⟨hcurrent, hneighbors⟩ := currentCost?_trigger (n := n) (m := { m with
      links := m.links.insert n { link with currentCost := cost } })
      Std.ExtTreeMap.getElem?_insert_self k
    refine ⟨hcurrent.trans ?_, hneighbors⟩
    rw [currentCost?, Std.ExtTreeMap.getElem?_insert]
    by_cases hk : n = k
    · subst hk
      simp [currentCost?, hlink]
    · simp [currentCost?, hk, Ne.symm hk]

/-- A cost is written and put in force, or neither. -/
theorem setsCost_applyCost [Scalar α] (m : MonitorState α) (n : Name) (advertised cost : α) :
    m.applyCost n advertised cost = m ∨ SetsCost m n cost (m.applyCost n advertised cost) := by
  unfold applyCost
  split
  · exact .inl rfl
  · split
    · exact .inl rfl
    · next table htable =>
      have hadopt := currentCost?_adoptCost { m with neighbors := table } n cost
      refine .inr ⟨fun k => (hadopt k).1, ?_⟩
      rw [(hadopt n).2]
      exact repriced_writtenCost? htable

/-! ## The configured costs restored -/

/-- No two links have the same key. -/
theorem distinct_links (m : MonitorState α) : m.links.toList.Pairwise fun a b => a.1 ≠ b.1 :=
  Std.ExtTreeMap.distinct_keys_toList.imp fun hne heq =>
    hne (Std.LawfulEqCmp.compare_eq_iff_eq.2 heq)

section
variable [Scalar α]

/-- What the cost of a link in the table becomes when the monitor is stopped. -/
def restored (m : MonitorState α) (link : LinkState α) (cost : α) : α :=
  if m.costsLocked then cost else if cost != link.configuredCost then link.configuredCost else cost

/-- Restoring the cost of a link changes this cost only. -/
theorem repriced_restoreCost (m : MonitorState α) (table : AdjacencyTable α) (n : Name)
    (link : LinkState α) : table.Repriced n (m.restored link) (m.restoreCost table n link) := by
  unfold restoreCost
  cases hcost : table.linkCost? n with
  | none => exact repriced_refl fun cost h => by rw [hcost] at h; cases h
  | some cost =>
    dsimp only
    have hsame : ∀ f : α → α, f cost = m.restored link cost →
        ∀ t, table.Repriced n f t → table.Repriced n (m.restored link) t := by
      intro f hf t ht
      refine ⟨ht.same, fun k => (ht.cost k).trans ?_⟩
      split
      · next hk => rw [hk, hcost, Option.map_some, Option.map_some, hf]
      · rfl
    -- A cost that is right already is not written, which comes to the same.
    by_cases hne : (cost != link.configuredCost) = true
    · rw [if_pos hne]
      refine hsame _ ?_ _ (m.repriced_tryWriteCost table n link.configuredCost)
      simp [restored, hne]
    · rw [if_neg hne]
      refine repriced_refl fun c hc => ?_
      rw [hcost] at hc
      cases hc
      simp [restored, hne]

/-- Each link of a list is restored in the table, and nothing else. -/
theorem foldl_restoreCost (m : MonitorState α) {ls : List (Name × LinkState α)}
    (hdistinct : ls.Pairwise fun a b => a.1 ≠ b.1) (table : AdjacencyTable α) :
    let final := ls.foldl (fun table l => m.restoreCost table l.1 l.2) table
    SameNeighbors table final ∧
    (∀ k, (∀ l ∈ ls, k ≠ l.1) → final.linkCost? k = table.linkCost? k) ∧
    ∀ l ∈ ls, final.linkCost? l.1 = (table.linkCost? l.1).map (m.restored l.2) := by
  induction ls generalizing table with
  | nil => exact ⟨.refl table, fun _ _ => rfl, fun _ hl => absurd hl List.not_mem_nil⟩
  | cons l ls ih =>
    obtain ⟨hl, hdistinct⟩ := List.pairwise_cons.1 hdistinct
    have hfirst := m.repriced_restoreCost table l.1 l.2
    -- the links have different names, so what is written for the first is not written over
    obtain ⟨hsame, hothers, hrest⟩ := ih hdistinct (m.restoreCost table l.1 l.2)
    refine ⟨hfirst.same.trans hsame, fun k hk => ?_, fun l' hl' => ?_⟩
    · obtain ⟨hkl, hk⟩ := List.forall_mem_cons.1 hk
      exact (hothers k hk).trans (hfirst.of_ne hkl)
    · rcases List.mem_cons.1 hl' with rfl | hl'
      · exact (hothers _ hl).trans hfirst.self
      · rw [← hfirst.of_ne (hl l' hl').symm]
        exact hrest l' hl'

/-- Stopping an active monitor puts every configured cost in force. -/
theorem currentCost?_stop (ha : m.active = true) (n : Name) :
    m.stop.currentCost? n = m.links[n]?.map (·.configuredCost) := by
  unfold stop
  rw [if_pos ha, currentCost?, Std.ExtTreeMap.getElem?_map, Option.map_map]
  rfl

/-- Stopping an active monitor restores the configured cost of every link in the table. -/
theorem linkCost?_stop (ha : m.active = true) {link : LinkState α} (h : m.links[n]? = some link) :
    m.stop.neighbors.linkCost? n = (m.neighbors.linkCost? n).map (m.restored link) := by
  unfold stop
  rw [if_pos ha]
  exact (foldl_restoreCost m m.distinct_links m.neighbors).2.2 _
    (Std.ExtTreeMap.mem_toList_iff_getElem?_eq_some.2 h)

/-- Stopping takes no neighbor out of the table. -/
theorem sameNeighbors_stop (m : MonitorState α) : SameNeighbors m.neighbors m.stop.neighbors := by
  unfold stop
  split
  · exact (foldl_restoreCost m m.distinct_links m.neighbors).1
  · exact .refl _

end

/-! ## The operations -/

/-- No cost is another one, neither in force nor in the table. -/
def KeepsCosts (m m' : MonitorState α) : Prop :=
  (∀ k, m'.currentCost? k = m.currentCost? k) ∧ m'.neighbors = m.neighbors

/-- A state has the costs that it has. -/
theorem KeepsCosts.refl (m : MonitorState α) : KeepsCosts m m := ⟨fun _ => rfl, rfl⟩

/-- Where neither the links nor the table change, no cost does. -/
theorem KeepsCosts.of_eq (hlinks : m'.links = m.links) (hneighbors : m'.neighbors = m.neighbors) :
    KeepsCosts m m' :=
  ⟨fun k => by rw [currentCost?, hlinks, currentCost?], hneighbors⟩

/-- To record a round-trip time changes no cost. -/
theorem keepsCosts_measure (m : MonitorState α) (seq : UInt32) :
    KeepsCosts m (m.measure seq).2 := by
  rcases m.measure_cases seq with ⟨-, hm⟩ | ⟨probe, -, ⟨-, hm⟩ | ⟨rtt, -, hm⟩⟩
  · rw [hm]
    exact .refl m
  · rw [hm]
    exact .of_eq rfl rfl
  · rw [hm]
    exact ⟨m.map_recordRtt probe.neighbor rtt (·.currentCost) fun _ => rfl, rfl⟩

/-- A cost that is set after a step without other costs has been set from the start. -/
theorem SetsCost.of_keepsCosts {m'' : MonitorState α} {cost : α} (h : KeepsCosts m m')
    (h' : SetsCost m' n cost m'') : SetsCost m n cost m'' where
  current k := by rw [h'.current, h.1]
  neighbors := h.2 ▸ h'.neighbors

/-- An inactive neighbor that is reported active has its configured cost in force again, and in the
table if the table takes it. -/
theorem copies_reactivated {link : LinkState α} (h : m.links[n]? = some link)
    (hinactive : link.status = .inactive) :
    (∀ k, (m.handleNews (.statusChanged n .active)).currentCost? k =
        if k = n then some link.configuredCost else m.currentCost? k) ∧
      m.neighbors.Repriced n (fun old => if m.costsLocked then old else link.configuredCost)
        (m.handleNews (.statusChanged n .active)).neighbors := by
  have hinformed := m.informed_handleNews (.statusChanged n .active)
  refine ⟨fun k => ?_, ?_⟩
  · rw [currentCost?, hinformed.link]
    by_cases hk : k = n
    · subst hk
      simp [NeighborEvent.neighbor, h, LinkState.informed, hinactive]
    · simp [NeighborEvent.neighbor, hk, currentCost?]
  · have htable : m.informedTable (.statusChanged n .active) =
        m.tryWriteCost m.neighbors n link.configuredCost := by simp [informedTable, h, hinactive]
    rw [hinformed.neighbors, htable]
    exact m.repriced_tryWriteCost m.neighbors n link.configuredCost

/-- All other news changes no cost. -/
theorem keepsCosts_handleNews {e : NeighborEvent} (h : ∀ link, m.links[e.neighbor]? = some link →
    e = .statusChanged e.neighbor .active → link.status = .active) :
    KeepsCosts m (m.handleNews e) := by
  have hinformed := m.informed_handleNews e
  have hcurrent : ∀ link, m.links[e.neighbor]? = some link →
      (link.informed m.settings m.clock.now e).currentCost = link.currentCost := by
    intro link hlink
    have hactive := h link hlink
    unfold LinkState.informed
    split
    · rfl
    · rfl
    · split
      · rfl
      · rfl
    · rfl
    · rw [if_pos (hactive rfl)]
  have htable : m.informedTable e = m.neighbors := by
    unfold informedTable
    split
    · next n =>
      split
      · rfl
      · next link hlink => rw [if_pos (h link hlink rfl)]
    · rfl
  refine ⟨fun k => ?_, hinformed.neighbors.trans htable⟩
  rw [currentCost?, hinformed.link]
  split
  · next hk =>
    subst hk
    cases hlink : m.links[e.neighbor]? with
    | none => rw [currentCost?, hlink]; rfl
    | some link => rw [currentCost?, hlink, Option.map_map, Option.map_some, Option.map_some,
        Function.comp_apply, hcurrent link hlink]
  · rfl

end MonitorState

/-- Others do something, or they do not. -/
theorem Operation.surround_or_ne (op : Operation α σ) :
    (∃ change, op = .surround change) ∨ ∀ change, op ≠ .surround change := by
  cases op with
  | surround change => exact .inl ⟨change, rfl⟩
  | _ => exact .inr fun _ heq => by cases heq

namespace Monitor

variable {m : Monitor α σ} {op : Operation α σ}

/-- Others who write to the table keep its entries, and leave their costs to the monitor. -/
def KeepsEntries (m : Monitor α σ) : Operation α σ → Prop
  | .surround change =>
    (m.neighbors.Filed → (change m.toSurroundings).neighbors.Filed) ∧
    ∀ n cost, m.neighbors.linkCost? n = some cost →
      (change m.toSurroundings).neighbors.linkCost? n = some cost
  | _ => True

/-- Whatever leaves the table alone keeps its entries. -/
theorem keepsEntries_of_eq (h : ∀ change, op = .surround change →
    (change m.toSurroundings).neighbors = m.neighbors) : m.KeepsEntries op := by
  cases op with
  | surround change =>
    have heq := h change rfl
    exact ⟨fun hfiled => heq ▸ hfiled, fun n cost hcost => heq ▸ hcost⟩
  | _ => trivial

variable [Scalar α]

/-- A run keeps the entries of the table if all changes from outside do. -/
theorem keepsEntries_steps {ops : List (Operation α σ)} (h : ∀ change, .surround change ∈ ops →
    ∀ s : Surroundings α, (change s).neighbors = s.neighbors) :
    ∀ s ∈ m.steps ops, s.1.KeepsEntries s.2 := fun _ hs =>
  keepsEntries_of_eq fun change heq => h change (heq ▸ mem_of_mem_steps hs) _

open MonitorState (KeepsCosts SetsCost)

/-- A new cost by round-trip times is set, as it is or revised by a hook, or it is not. -/
theorem setsCost_updateCost (m : Monitor α σ) (n : Name) (cost : α) :
    (m.updateCost n cost).toMonitorState = m.toMonitorState ∨
      ∃ final, SetsCost m.toMonitorState n final (m.updateCost n cost).toMonitorState := by
  unfold updateCost
  split
  · exact .inl rfl
  · next advertised metrics _ =>
    have happly := MonitorState.setsCost_applyCost m.toMonitorState n advertised
      (m.transformed n cost metrics).1
    dsimp only [act]
    rw [m.toMonitorState_transformed]
    exact happly.imp_right fun h => ⟨_, h⟩

/-- A revision sets the cost of one neighbor, or does nothing to the state. -/
theorem setsCost_reviseCost (m : Monitor α σ) (n : Name) (x : MonitorState.Measurement α) :
    (m.reviseCost n x).toMonitorState = m.toMonitorState ∨
      ∃ final, SetsCost m.toMonitorState n final (m.reviseCost n x).toMonitorState := by
  unfold reviseCost
  split
  · split
    · exact .inl rfl
    · split
      · exact m.setsCost_updateCost n _
      · exact .inl rfl
  · exact .inl rfl

/-- The outcome of a probe sets the cost of one neighbor at most. -/
theorem setsCost_handleOutcome (m : Monitor α σ) (o : ProbeOutcome) :
    KeepsCosts m.toMonitorState (m.handleOutcome o).toMonitorState ∨
      ∃ n final, SetsCost m.toMonitorState n final (m.handleOutcome o).toMonitorState := by
  unfold handleOutcome
  cases o.kind with
  | nack | timeout => exact .inl (.of_eq rfl rfl)
  | data =>
    have hmeasure := m.keepsCosts_measure o.seq
    dsimp only [handleResponse]
    cases (m.measure o.seq).1 with
    | none => exact .inl hmeasure
    | some measured =>
      obtain ⟨n, x⟩ := measured
      have htold := toMonitorState_tellPerformance
        { m with toMonitorState := (m.measure o.seq).2 } n x
      dsimp only
      rcases setsCost_reviseCost (tellPerformance { m with
        toMonitorState := (m.measure o.seq).2 } n x) n x with hsame | ⟨final, hset⟩
      · refine .inl ?_
        rw [hsame, htold]
        exact hmeasure
      · rw [htold] at hset
        exact .inr ⟨n, final, hset.of_keepsCosts hmeasure⟩

/-- The operation puts the configured cost of a link in force again: the monitor is stopped, or the
neighbor was inactive and is reported active. -/
def Restores (m : Monitor α σ) (op : Operation α σ) (n : Name) (link : LinkState α) : Prop :=
  m.links[n]? = some link ∧
    (op = .stop ∧ m.active = true ∨ op = .news (.statusChanged n .active) ∧ link.status = .inactive)

/-- What an operation does to the costs: it keeps them, or sets one, or restores the configured ones
of the links that it is about. Others who write to the table are left out, and neighbors that are
taken over. -/
theorem costs_apply (m : Monitor α σ) {op : Operation α σ} (hadopt : op ≠ .adoptNeighbors)
    (hothers : ∀ change, op ≠ .surround change) :
    KeepsCosts m.toMonitorState (m.apply op).toMonitorState ∨
    (((∃ o, op = .outcome o) ∨ ∃ k cost, op = .updateCost k cost) ∧
      ∃ n final, SetsCost m.toMonitorState n final (m.apply op).toMonitorState) ∨
    (op = .stop ∧ m.active = true) ∨
    ∃ n link, op = .news (.statusChanged n .active) ∧ m.links[n]? = some link ∧
      link.status = .inactive := by
  cases op with
  | adoptNeighbors => exact absurd rfl hadopt
  | surround change => exact absurd rfl (hothers change)
  | start =>
    refine .inl ?_
    show KeepsCosts _ m.start
    unfold MonitorState.start
    split
    · exact .refl _
    · exact .of_eq rfl rfl
  | stop =>
    by_cases ha : m.active = true
    · exact .inr (.inr (.inl ⟨rfl, ha⟩))
    · refine .inl ?_
      show KeepsCosts _ m.stop
      unfold MonitorState.stop
      rw [if_neg ha]
      exact .refl _
  | poll =>
    obtain ⟨_, _, _, _, _, _, _, heq⟩ := m.probingDiffers_poll
    refine .inl ?_
    show KeepsCosts _ m.poll
    rw [heq]
    exact .of_eq rfl rfl
  | scheduleProbe n =>
    have h := m.timersDiffer_scheduleProbe n
    exact .inl (.of_eq h.links h.neighbors)
  | sendProbe n =>
    refine .inl ?_
    show KeepsCosts _ (m.sendProbe n).2
    rcases m.sendProbe_cases n with heq | heq <;> rw [heq] <;> exact .of_eq rfl rfl
  | outcome o => exact (m.setsCost_handleOutcome o).imp_right fun h => .inl ⟨.inl ⟨o, rfl⟩, h⟩
  | updateCost n cost =>
    rcases m.setsCost_updateCost n cost with heq | ⟨final, hset⟩
    · exact .inl (heq ▸ .refl _)
    · exact .inr (.inl ⟨.inr ⟨n, cost, rfl⟩, n, final, hset⟩)
  | news e =>
    by_cases h : ∃ link, m.links[e.neighbor]? = some link ∧
        e = .statusChanged e.neighbor .active ∧ link.status = .inactive
    · obtain ⟨link, hlink, he, hinactive⟩ := h
      exact .inr (.inr (.inr ⟨e.neighbor, link, congrArg _ he, hlink, hinactive⟩))
    · refine .inl (MonitorState.keepsCosts_handleNews fun link hlink he => ?_)
      cases hs : link.status with
      | active => rfl
      | inactive => exact absurd ⟨link, hlink, he, hs⟩ h
  | report =>
    obtain ⟨_, heq⟩ := m.report_eq
    refine .inl ?_
    show KeepsCosts _ m.report
    rw [heq]
    exact .of_eq rfl rfl
  | setHooks hooks memory | advance elapsed => exact .inl (.of_eq rfl rfl)

/-- The monitor takes no neighbor out of the table, and renames none. -/
theorem sameNeighbors_apply (m : Monitor α σ) {op : Operation α σ}
    (hothers : ∀ change, op ≠ .surround change) :
    SameNeighbors m.neighbors (m.apply op).neighbors := by
  by_cases hadopt : op = .adoptNeighbors
  · subst hadopt
    exact .refl _
  rcases m.costs_apply hadopt hothers with
    hkeep | ⟨-, k, final, hset⟩ | ⟨rfl, ha⟩ | ⟨k, link, rfl, hlink, hinactive⟩
  · exact .of_eq hkeep.2
  · exact hset.neighbors.same
  · exact m.sameNeighbors_stop
  · exact (MonitorState.copies_reactivated hlink hinactive).2.same

end Monitor

end AdaptiveRouting
