import AdaptiveRouting.Proofs.Monitor.CostCopies

/-!
# Link state and neighbor table agree on costs

For every link the cost in force is the one that the neighbor table advertises, in every state of
every run in which others keep the entries of the table and leave their costs to the monitor
(`costs_agree`). Two costs agree when they are the same or compare as equal (`SameCost`): a cost that
compares as equal to the one that is to be restored is not written again.

A table in memory takes every cost for a neighbor that it has. One of another kind might refuse to
take costs for a while. Then nothing is put in force that has not been written, with one exception: a
configured cost is restored in the link state even if the table neither has it nor takes it
(`Monitor.Strays`). The costs agree all along a run exactly if this never happens: it does not happen
while the table takes costs, and the very step that restores such a cost ends the agreement.
-/

namespace AdaptiveRouting

variable {α σ : Type} [Scalar α]

/-- The costs are the same, or compare as equal. -/
def SameCost (a b : α) : Prop := a = b ∨ (a == b) = true

/-- Every cost is the same as itself, one that compares as unequal to itself included. -/
theorem SameCost.refl (a : α) : SameCost a a := .inl rfl

namespace MonitorState

variable {m m' : MonitorState α} {n : Name}

/-- A table that is not locked has the configured cost once it has been restored. -/
theorem sameCost_restored (h : m.costsLocked = false) (link : LinkState α) (cost : α) :
    SameCost (m.restored link cost) link.configuredCost := by
  unfold restored
  rw [if_neg (by rw [h]; exact Bool.false_ne_true)]
  split
  · exact .refl _
  · next hne => exact .inr (by simpa [bne] using hne)

/-- The cost in force on the link to a neighbor, if there is a link, is advertised in the table. -/
def AgreesOn (m : MonitorState α) (n : Name) : Prop :=
  ∀ cost, m.currentCost? n = some cost →
    ∃ advertised, m.neighbors.linkCost? n = some advertised ∧ SameCost advertised cost

/-- For every link the table advertises the cost in force. -/
def CostsAgree (m : MonitorState α) : Prop := ∀ n, m.AgreesOn n

/-- Where no cost changes, the two costs of a link go on agreeing. -/
theorem KeepsCosts.agreesOn (h : KeepsCosts m m') (hn : m.AgreesOn n) : m'.AgreesOn n := by
  intro cost hcost
  rw [h.1] at hcost
  rw [h.2]
  exact hn cost hcost

/-- A cost that is put in force and written to the table keeps them in agreement. -/
theorem SetsCost.agreesOn {k : Name} {final : α} (h : SetsCost m k final m') (hn : m.AgreesOn n) :
    m'.AgreesOn n := by
  intro cost hcost
  rw [h.current] at hcost
  by_cases hk : n = k
  · subst hk
    rw [if_pos rfl] at hcost
    obtain ⟨old, hold, rfl⟩ := Option.map_eq_some_iff.1 hcost
    obtain ⟨advertised, hadvertised, -⟩ := hn old hold
    exact ⟨final, by rw [h.neighbors.self, hadvertised, Option.map_some], .refl final⟩
  · rw [if_neg hk] at hcost
    rw [h.neighbors.of_ne hk]
    exact hn cost hcost

/-- Neighbors are taken over at the costs that the table has. -/
theorem costsAgree_adoptNeighbors (hfiled : m.neighbors.Filed) (h : m.CostsAgree) :
    m.adoptNeighbors.CostsAgree := by
  intro n cost hcost
  obtain ⟨link, hlink, rfl⟩ := Option.map_eq_some_iff.1 hcost
  rcases of_adoptNeighbors hlink with hold | ⟨a, ha, rfl, rfl⟩
  · exact h n _ (by rw [currentCost?, hold, Option.map_some])
  · obtain ⟨⟨k, a'⟩, hmem, rfl⟩ := List.mem_map.1 ha
    have hfind : m.neighbors.find? k = some a' :=
      Std.ExtTreeMap.mem_toList_iff_getElem?_eq_some.1 hmem
    obtain rfl := hfiled k a' hfind
    refine ⟨a'.linkCost, ?_, .refl _⟩
    show m.neighbors.linkCost? a'.name = _
    rw [AdjacencyTable.linkCost?, hfind, Option.map_some]

end MonitorState

namespace Monitor

variable {m : Monitor α σ} {op : Operation α σ} {n : Name} {link : LinkState α}

/-- A configured cost is put in force again that a locked table neither has nor takes. -/
def Strays (m : Monitor α σ) (op : Operation α σ) : Prop :=
  m.costsLocked = true ∧ ∃ n link, m.Restores op n link ∧
    ∀ advertised, m.neighbors.linkCost? n = some advertised →
      ¬ SameCost advertised link.configuredCost

/-- The configured cost of a link is in force when it has been restored, and in the table unless the
table is locked. -/
theorem Restores.copies (h : m.Restores op n link) :
    (m.apply op).currentCost? n = some link.configuredCost ∧
    ∃ f : α → α, (m.apply op).neighbors.linkCost? n = (m.neighbors.linkCost? n).map f ∧
      (m.costsLocked = true → ∀ cost, f cost = cost) ∧
      (m.costsLocked = false → ∀ cost, SameCost (f cost) link.configuredCost) := by
  obtain ⟨hlink, ⟨rfl, ha⟩ | ⟨rfl, hinactive⟩⟩ := h
  · refine ⟨?_, _, MonitorState.linkCost?_stop ha hlink, fun hlocked cost => ?_, fun hopen cost => ?_⟩
    · show m.stop.currentCost? n = _
      rw [MonitorState.currentCost?_stop ha, hlink, Option.map_some]
    · rw [MonitorState.restored, if_pos hlocked]
    · exact MonitorState.sameCost_restored hopen link cost
  · obtain ⟨hcurrent, htable⟩ := MonitorState.copies_reactivated hlink hinactive
    refine ⟨(hcurrent n).trans (if_pos rfl), _, htable.self, fun hlocked cost => ?_,
      fun hopen cost => ?_⟩
    · rw [if_pos hlocked]
    · rw [hopen, if_neg Bool.false_ne_true]
      exact .refl _

/-- A restored link agrees with the table unless a locked table advertises another cost. -/
theorem Restores.agreesOn_iff (h : m.Restores op n link) (hn : m.AgreesOn n) :
    (m.apply op).AgreesOn n ↔ (m.costsLocked = true →
      ∃ advertised, m.neighbors.linkCost? n = some advertised ∧
        SameCost advertised link.configuredCost) := by
  obtain ⟨hcurrent, f, htable, hlocked, hopen⟩ := h.copies
  obtain ⟨advertised, hadvertised, -⟩ :=
    hn link.currentCost (by rw [MonitorState.currentCost?, h.1, Option.map_some])
  rw [hadvertised, Option.map_some] at htable
  constructor
  · intro hagrees hl
    obtain ⟨advertised', h', hsame⟩ := hagrees _ hcurrent
    rw [htable, hlocked hl] at h'
    cases h'
    exact ⟨advertised, hadvertised, hsame⟩
  · intro hagrees cost hcost
    rw [hcurrent] at hcost
    cases hcost
    refine ⟨f advertised, htable, ?_⟩
    -- An open table has been written; a locked one has kept what it had.
    cases hl : m.costsLocked with
    | false => exact hopen hl advertised
    | true =>
      obtain ⟨advertised', h', hsame⟩ := hagrees hl
      rw [hadvertised] at h'
      cases h'
      rw [hlocked hl]
      exact hsame

/-- On all other links every operation keeps the agreement. -/
theorem agreesOn_apply (hfiled : m.neighbors.Filed) (h : m.CostsAgree) (hkeeps : m.KeepsEntries op)
    (hn : ∀ link, ¬ m.Restores op n link) : (m.apply op).AgreesOn n := by
  by_cases hadopt : op = .adoptNeighbors
  · subst hadopt
    exact MonitorState.costsAgree_adoptNeighbors hfiled h n
  rcases op.surround_or_ne with ⟨change, rfl⟩ | hothers
  · intro cost hcost
    obtain ⟨advertised, hadvertised, hsame⟩ := h n cost hcost
    exact ⟨advertised, hkeeps.2 n advertised hadvertised, hsame⟩
  rcases m.costs_apply hadopt hothers with
    hkeep | ⟨-, k, final, hset⟩ | ⟨rfl, ha⟩ | ⟨k, link, rfl, hlink, hinactive⟩
  · exact hkeep.agreesOn (h n)
  · exact hset.agreesOn (h n)
  · intro cost hcost
    rw [show (m.apply .stop).currentCost? n = m.stop.currentCost? n from rfl,
      MonitorState.currentCost?_stop ha] at hcost
    obtain ⟨link, hlink, -⟩ := Option.map_eq_some_iff.1 hcost
    exact absurd ⟨hlink, .inl ⟨rfl, ha⟩⟩ (hn link)
  -- The neighbor that is taken back is another one, or its link would be restored.
  · obtain ⟨hcurrent, htable⟩ := MonitorState.copies_reactivated hlink hinactive
    have hk : n ≠ k := by
      rintro rfl
      exact hn link ⟨hlink, .inr ⟨rfl, hinactive⟩⟩
    intro cost hcost
    obtain ⟨advertised, hadvertised, hsame⟩ :=
      h n cost (((hcurrent n).trans (if_neg hk)).symm.trans hcost)
    exact ⟨advertised, (htable.of_ne hk).trans hadvertised, hsame⟩

/-- After an operation the costs agree unless it strays. -/
theorem costsAgree_apply_iff (hfiled : m.neighbors.Filed) (h : m.CostsAgree)
    (hkeeps : m.KeepsEntries op) : (m.apply op).CostsAgree ↔ ¬ m.Strays op := by
  constructor
  · rintro hagree ⟨hlocked, n, link, hrestores, hdiffers⟩
    obtain ⟨advertised, hadvertised, hsame⟩ := (hrestores.agreesOn_iff (h n)).1 (hagree n) hlocked
    exact hdiffers advertised hadvertised hsame
  · intro hstrays n
    by_cases hn : ∃ link, m.Restores op n link
    · obtain ⟨link, hrestores⟩ := hn
      refine (hrestores.agreesOn_iff (h n)).2 fun hlocked => ?_
      refine Classical.byContradiction fun hdiffers => hstrays ⟨hlocked, n, link, hrestores, ?_⟩
      exact fun advertised hadvertised hsame => hdiffers ⟨advertised, hadvertised, hsame⟩
    · exact agreesOn_apply hfiled h hkeeps fun link hrestores => hn ⟨link, hrestores⟩

/-- No operation takes a neighbor out of the table, or renames it. -/
theorem filed_neighbors_apply (h : m.neighbors.Filed) (hkeeps : m.KeepsEntries op) :
    (m.apply op).neighbors.Filed := by
  rcases op.surround_or_ne with ⟨change, rfl⟩ | hothers
  · exact hkeeps.1 h
  · exact h.of_sameNeighbors (m.sameNeighbors_apply hothers)

/-- The costs agree all along a run exactly if none of its steps strays. -/
theorem costsAgree_run_iff {ops : List (Operation α σ)} (hfiled : m.neighbors.Filed)
    (h : m.CostsAgree) (hkeeps : ∀ s ∈ m.steps ops, s.1.KeepsEntries s.2) :
    (∀ done, done <+: ops → (m.run done).CostsAgree) ↔ ∀ s ∈ m.steps ops, ¬ s.1.Strays s.2 := by
  refine holds_along_iff (I := fun m => m.neighbors.Filed) (P := fun m => m.CostsAgree) hfiled h
    fun s hs hs' => ?_
  have hkeep := hkeeps s hs
  exact ⟨filed_neighbors_apply hs' hkeep, fun hagree => costsAgree_apply_iff hs' hagree hkeep⟩

end Monitor

/-- A new monitor has no links, so nothing can disagree. -/
theorem costsAgree_idle (surroundings : Surroundings α) (settings : LinkSettings α) :
    (MonitorState.idle surroundings settings).CostsAgree := by
  intro n cost hcost
  simp [MonitorState.currentCost?, MonitorState.idle] at hcost

/-- **Link state and neighbor table agree on costs.** Let others keep the entries of the neighbor
table and leave their costs to the monitor. While the table takes costs, every link has the cost in
force that the table advertises, whatever the monitor is called for and whatever its hooks answer.
If it refuses costs at times, this remains so exactly until a configured cost is put in force again
that the table neither has nor takes. -/
theorem costs_agree {surroundings : Surroundings α} (settings : LinkSettings α) (memory : σ)
    {ops : List (Operation α σ)} (hfiled : surroundings.neighbors.Filed)
    (hkeeps : ∀ s ∈ (Monitor.idle surroundings settings memory).steps ops, s.1.KeepsEntries s.2) :
    ((∀ s ∈ (Monitor.idle surroundings settings memory).steps ops, s.1.costsLocked = false) →
      ∀ done, done <+: ops →
        ((Monitor.idle surroundings settings memory).run done).CostsAgree) ∧
    ((∀ done, done <+: ops →
        ((Monitor.idle surroundings settings memory).run done).CostsAgree) ↔
      ∀ s ∈ (Monitor.idle surroundings settings memory).steps ops, ¬ s.1.Strays s.2) := by
  have hiff := Monitor.costsAgree_run_iff hfiled (costsAgree_idle surroundings settings) hkeeps
  refine ⟨fun hopen => hiff.2 fun s hs hstrays => ?_, hiff⟩
  have hlocked := hstrays.1
  rw [hopen s hs] at hlocked
  cases hlocked

namespace Concord

def neighbor : Name := { components := ["partner"] }

def monitor : Monitor Float Nat :=
  .idle { (Surroundings.quiet : Surroundings Float) with
    neighbors := .ofList [⟨neighbor, .active, 10.0, 10.0, 0⟩] } .standard 0

/-- Costs are set directly and through a hook that doubles them, lost with the neighbor, and restored
when it returns and when the monitor is stopped. -/
def ops : List (Operation Float Nat) :=
  [.adoptNeighbors, .start, .updateCost neighbor 14.0,
    .setHooks ⟨some fun _ _ cost _ asked => (some (cost + cost), asked + 1), none⟩ 0,
    .updateCost neighbor 20.0, .news (.helloTimeout neighbor 3), .updateCost neighbor 17.0,
    .news (.statusChanged neighbor .active), .updateCost neighbor 30.0, .stop]

/-- The table refuses costs from the moment when one has been written. -/
def lockedOps : List (Operation Float Nat) :=
  [.adoptNeighbors, .start, .updateCost neighbor 14.0,
    .surround fun s => { s with costsLocked := true }, .stop]

/-- Each neighbor is in the table under its own name. -/
theorem filed_monitor : monitor.neighbors.Filed := AdjacencyTable.filed_ofList _

/-- The costs agree along the first run; in the second one, stopping ends the agreement. -/
theorem costs_agree_unless_locked :
    ((monitor.run (ops.take 9)).neighbors.linkCost? neighbor = some 60.0 ∧
      ∀ done, done <+: ops → (monitor.run done).CostsAgree) ∧
    ¬ ∀ done, done <+: lockedOps → (monitor.run done).CostsAgree := by
  have hkeeps : ∀ s ∈ monitor.steps ops, s.1.KeepsEntries s.2 :=
    Monitor.keepsEntries_steps fun change hmem => by simp [ops] at hmem
  have hlocked : ∀ s ∈ monitor.steps lockedOps, s.1.KeepsEntries s.2 :=
    Monitor.keepsEntries_steps fun change hmem s => by
      simp only [lockedOps, List.mem_cons, List.not_mem_nil, reduceCtorEq, false_or, or_false,
        Operation.surround.injEq] at hmem
      rw [hmem]
  have hopen : ∀ s ∈ monitor.steps ops, s.1.costsLocked = false := by decide +kernel
  have hcost : (monitor.run (ops.take 9)).neighbors.linkCost? neighbor = some 60.0 := by
    decide +kernel
  refine ⟨⟨hcost, (costs_agree .standard 0 filed_monitor hkeeps).1 hopen⟩, fun hagree => ?_⟩
  have hstays := (costs_agree .standard 0 filed_monitor hlocked).2.1 hagree
  have hstop : (monitor.run (lockedOps.take 4), .stop) ∈ monitor.steps lockedOps := by
    simp [lockedOps, Monitor.steps]
  obtain ⟨link, hlink, hconfigured⟩ : ∃ link,
      (monitor.run (lockedOps.take 4)).links[neighbor]? = some link ∧ link.configuredCost = 10.0 :=
    ⟨_, rfl, rfl⟩
  have hkept : (monitor.run (lockedOps.take 4)).neighbors.linkCost? neighbor = some 14.0 := by
    decide +kernel
  refine hstays _ hstop ⟨rfl, neighbor, link, ⟨hlink, .inl ⟨rfl, rfl⟩⟩, fun advertised h hsame => ?_⟩
  rw [hkept] at h
  cases h
  rw [hconfigured] at hsame
  rcases hsame with heq | hequal
  · exact absurd heq (by decide)
  · exact absurd hequal (by decide)

end Concord

end AdaptiveRouting
