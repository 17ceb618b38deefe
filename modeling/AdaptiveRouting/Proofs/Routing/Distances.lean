import AdaptiveRouting.Proofs.Routing.PathCosts
import Mathlib.Data.List.Perm.Subperm

/-!
# Distances are the costs of the cheapest paths

`distances` relaxes every link in as many rounds as there are routers. What it finds are the costs
of paths (`CostsPaths`), no step raises them, and after `k` rounds every trail of at most `k` links
is undercut (`Reaches`). Since each path has a trail that costs no more and a trail visits no more
routers than there are, the table of distances holds the least cost of each router that a path
leads to, and no other router (`isDistanceTable_distances`).
-/

namespace AdaptiveRouting

variable {α : Type} [Scalar α]

/-! ## The routers of a map -/

omit [Scalar α] in
/-- The ends of links are gathered one after the other. -/
private theorem mem_foldl_ends (t : Name) (ls : List (Link α)) (s : NameSet) :
    t ∈ ls.foldl (fun s l => (s.insert l.source).insert l.target) s ↔
      t ∈ s ∨ ∃ l ∈ ls, l.source = t ∨ l.target = t := by
  induction ls generalizing s with
  | nil => simp
  | cons l ls ih =>
    rw [List.foldl_cons, ih]
    simp only [Std.ExtTreeSet.mem_insert, Std.LawfulEqCmp.compare_eq_iff_eq, List.mem_cons,
      exists_eq_or_imp]
    grind

/-- The routers of a map are those that are listed and those at an end of an admitted link. -/
theorem TopologyMap.mem_nodes (m : TopologyMap α) {t : Name} :
    t ∈ m.nodes ↔ t ∈ m.routers ∨ ∃ l ∈ m.admitted, l.source = t ∨ l.target = t :=
  mem_foldl_ends t m.admitted m.routers

/-- Distinct routers of a map are no more than it has. -/
theorem TopologyMap.length_le_of_nodup (m : TopologyMap α) {visited : List Name}
    (hnodup : visited.Nodup) (hsub : ∀ t ∈ visited, t ∈ m.nodes) :
    visited.length ≤ m.nodes.size := by
  have hsub' : visited ⊆ m.nodes.toList := fun t ht => Std.ExtTreeSet.mem_toList.2 (hsub t ht)
  have := (List.subperm_of_subset hnodup hsub').length_le
  rwa [Std.ExtTreeSet.length_toList] at this

/-- A trail from a router of the map visits no more routers than the map has. -/
theorem Trail.length_le (m : TopologyMap α) {source target : Name} {before : List Name} {cost : α}
    (hs : source ∈ m.nodes) (h : Trail m.admitted source target before cost) :
    before.length + 1 ≤ m.nodes.size := by
  refine m.length_le_of_nodup h.nodup fun t ht => ?_
  rcases h.visits t ht with rfl | ⟨l, hl, rfl⟩
  · exact hs
  · exact m.mem_nodes.2 (.inr ⟨l, hl, .inr rfl⟩)

/-! ## Relaxing -/

/-- A table of costs of paths from the source. -/
def CostsPaths (links : List (Link α)) (source : Name) (d : NameMap α) : Prop :=
  ∀ t c, d[t]? = some c → Path links source t c

/-- The table knows a way to a router that costs no more than `cost`. -/
def Reaches (d : NameMap α) (t : Name) (cost : α) : Prop := ∃ c, d[t]? = some c ∧ c ≤ cost

/-- What relaxing a link does: nothing, or the end of the link gets the cost of the way over it. -/
theorem relax_cases (d : NameMap α) (l : Link α) :
    (relax d l = d ∧ ∀ near, d[l.source]? = some near →
      ∃ far, d[l.target]? = some far ∧ ¬ near + l.cost < far) ∨
    ∃ near, d[l.source]? = some near ∧ relax d l = d.insert l.target (near + l.cost) ∧
      ∀ far, d[l.target]? = some far → near + l.cost < far := by
  unfold relax
  cases hs : d[l.source]? with
  | none => simp
  | some near =>
    cases ht : d[l.target]? with
    | none => simp
    | some far =>
      by_cases hlt : near + l.cost < far <;> simp [hlt]

section
variable {links : List (Link α)} {source : Name} {d : NameMap α} {l : Link α}

/-- Relaxing a link enters the cost of a path if anything. -/
theorem CostsPaths.relax (hd : CostsPaths links source d) (hl : l ∈ links) :
    CostsPaths links source (relax d l) := by
  rcases relax_cases d l with ⟨heq, -⟩ | ⟨near, hnear, heq, -⟩
  · rwa [heq]
  · intro t c hc
    rw [heq, Std.ExtTreeMap.getElem?_insert] at hc
    split at hc
    · next ht =>
      obtain rfl := Std.LawfulEqCmp.eq_of_compare ht
      cases hc
      exact (hd _ _ hnear).step hl rfl
    · exact hd t c hc

/-- Relaxing links enters the costs of paths only. -/
theorem CostsPaths.foldl_relax {ls : List (Link α)} (hls : ls ⊆ links)
    (hd : CostsPaths links source d) :
    CostsPaths links source (ls.foldl AdaptiveRouting.relax d) := by
  induction ls generalizing d with
  | nil => exact hd
  | cons l ls ih =>
    obtain ⟨hl, hls⟩ := List.cons_subset.1 hls
    exact ih hls (hd.relax hl)

/-- The rounds can be counted from the first or from the last. -/
theorem relaxRounds_succ (links : List (Link α)) (rounds : Nat) (d : NameMap α) :
    relaxRounds links (rounds + 1) d =
      links.foldl AdaptiveRouting.relax (relaxRounds links rounds d) := by
  induction rounds generalizing d with
  | zero => rfl
  | succ rounds ih => rw [relaxRounds, ih, relaxRounds]

/-- Rounds of relaxing enter the costs of paths only. -/
theorem CostsPaths.relaxRounds (hd : CostsPaths links source d) (rounds : Nat) :
    CostsPaths links source (AdaptiveRouting.relaxRounds links rounds d) := by
  induction rounds with
  | zero => exact hd
  | succ rounds ih =>
    rw [relaxRounds_succ]
    exact ih.foldl_relax (List.Subset.refl _)

variable [PathArithmetic α]

/-- A way at a cost is a way at any higher one. -/
theorem Reaches.trans {t : Name} {a b : α} (h : Reaches d t a) (hab : a ≤ b) : Reaches d t b :=
  let ⟨c, hc, hle⟩ := h
  ⟨c, hc, PathArithmetic.le_trans hle hab⟩

/-- Relaxing a link raises no distance. -/
theorem Reaches.relax (hlinks : NonnegativeLinks links) (hd : CostsPaths links source d)
    (hl : l ∈ links) {t : Name} {cost : α} (h : Reaches d t cost) : Reaches (relax d l) t cost := by
  obtain ⟨c, hc, hle⟩ := h
  rcases relax_cases d l with ⟨heq, -⟩ | ⟨near, hnear, heq, hlt⟩
  · exact ⟨c, by rwa [heq], hle⟩
  · by_cases ht : l.target = t
    · subst ht
      have hnear0 := (hd _ _ hnear).nonneg hlinks
      have hsum0 := PathArithmetic.add_nonneg hnear0 (hlinks l hl)
      have hc0 := (hd _ _ hc).nonneg hlinks
      have hnot := (PathArithmetic.lt_iff_not_le hsum0 hc0).1 (hlt c hc)
      have hsum := (PathArithmetic.le_total hsum0 hc0).resolve_right hnot
      exact ⟨near + l.cost, by rw [heq, Std.ExtTreeMap.getElem?_insert_self],
        PathArithmetic.le_trans hsum hle⟩
    · refine ⟨c, ?_, hle⟩
      rw [heq, Std.ExtTreeMap.getElem?_insert, if_neg (by simpa using ht), hc]

/-- Behind a relaxed link its end is as near as the way over the link. -/
theorem reaches_relax (hlinks : NonnegativeLinks links) (hd : CostsPaths links source d)
    (hl : l ∈ links) {cost : α} (h : Reaches d l.source cost) :
    Reaches (relax d l) l.target (cost + l.cost) := by
  obtain ⟨near, hnear, hle⟩ := h
  have hnear0 := (hd _ _ hnear).nonneg hlinks
  have hup : near + l.cost ≤ cost + l.cost := PathArithmetic.add_le_add hnear0 hle (hlinks l hl)
  have hsum0 := PathArithmetic.add_nonneg hnear0 (hlinks l hl)
  rcases relax_cases d l with ⟨heq, hfar⟩ | ⟨near', hnear', heq, -⟩
  · obtain ⟨far, ht, hnot⟩ := hfar near hnear
    have hfar0 := (hd _ _ ht).nonneg hlinks
    have hle' : far ≤ near + l.cost := by
      by_contra hn
      exact hnot ((PathArithmetic.lt_iff_not_le hsum0 hfar0).2 hn)
    exact ⟨far, by rwa [heq], PathArithmetic.le_trans hle' hup⟩
  · rw [hnear] at hnear'
    cases hnear'
    exact ⟨near + l.cost, by rw [heq, Std.ExtTreeMap.getElem?_insert_self], hup⟩

/-- What is known to be reached at a cost stays so when links are relaxed. -/
theorem Reaches.foldl_relax (hlinks : NonnegativeLinks links) {ls : List (Link α)}
    (hls : ls ⊆ links) (hd : CostsPaths links source d) {t : Name} {cost : α}
    (h : Reaches d t cost) : Reaches (ls.foldl AdaptiveRouting.relax d) t cost := by
  induction ls generalizing d with
  | nil => exact h
  | cons l ls ih =>
    obtain ⟨hl, hls⟩ := List.cons_subset.1 hls
    exact ih hls (hd.relax hl) (h.relax hlinks hd hl)

/-- One round carries what is known of the start of a link over to its end. The links before it in
the round may have lowered the distance of its start, which does no harm. -/
theorem reaches_foldl_relax (hlinks : NonnegativeLinks links) {ls : List (Link α)}
    (hls : ls ⊆ links) (hd : CostsPaths links source d) (hl : l ∈ ls) {cost : α}
    (h : Reaches d l.source cost) :
    Reaches (ls.foldl AdaptiveRouting.relax d) l.target (cost + l.cost) := by
  induction ls generalizing d with
  | nil => cases hl
  | cons l' ls ih =>
    obtain ⟨hl', htail⟩ := List.cons_subset.1 hls
    rcases List.mem_cons.1 hl with rfl | hl
    · exact (reaches_relax hlinks hd hl' h).foldl_relax hlinks htail (hd.relax hl')
    · exact ih htail (hd.relax hl') hl (h.relax hlinks hd hl')

/-- After as many rounds as a trail has links, its end is no farther than the trail is long. -/
theorem Trail.reaches (hlinks : NonnegativeLinks links) (hd : CostsPaths links source d)
    (hsource : Reaches d source 0.0) {t : Name} {before : List Name} {cost : α}
    (h : Trail links source t before cost) {rounds : Nat} (hr : before.length ≤ rounds) :
    Reaches (AdaptiveRouting.relaxRounds links rounds d) t cost := by
  induction h generalizing rounds with
  | here =>
    induction rounds with
    | zero => exact hsource
    | succ rounds ih =>
      rw [relaxRounds_succ]
      exact (ih (Nat.zero_le _)).foldl_relax hlinks (List.Subset.refl _) (hd.relaxRounds rounds)
  | @step middle before cost l hv hl hm hn ih =>
    subst hm
    obtain _ | rounds := rounds
    · simp at hr
    · rw [relaxRounds_succ]
      exact reaches_foldl_relax hlinks (List.Subset.refl _) (hd.relaxRounds rounds) hl
        (ih (Nat.le_of_succ_le_succ hr))

end

/-- A table that holds the cost of the cheapest paths to each router that a path leads to, and no
other router. -/
structure IsDistanceTable (links : List (Link α)) (source : Name) (d : NameMap α) : Prop where
  /-- What it holds is the cost of a cheapest path. -/
  least {t : Name} {c : α} : d[t]? = some c → IsLeastCost links source t c
  /-- It holds the cost for each router that is reached. -/
  reached {t : Name} {c : α} : Path links source t c → ∃ c', d[t]? = some c'

/-- The distances from a router of the map are the costs of the cheapest paths. -/
theorem isDistanceTable_distances [PathArithmetic α] (m : TopologyMap α) {source : Name}
    (hs : source ∈ m.nodes) : IsDistanceTable m.admitted source (distances m source) := by
  have hlinks := m.nonnegative_admitted
  have hd : CostsPaths m.admitted source ((∅ : NameMap α).insert source 0.0) := by
    intro t c hc
    rw [Std.ExtTreeMap.getElem?_insert] at hc
    split at hc
    · next ht =>
      obtain rfl := Std.LawfulEqCmp.eq_of_compare ht
      cases hc
      exact .here
    · simp at hc
  have hsource : Reaches ((∅ : NameMap α).insert source 0.0) source (0.0 : α) :=
    ⟨0.0, Std.ExtTreeMap.getElem?_insert_self, PathArithmetic.zero_le_zero⟩
  have hreach : ∀ {t c}, Path m.admitted source t c → Reaches (distances m source) t c := by
    intro t c hc
    obtain ⟨before, c', hc', hle⟩ := hc.exists_trail hlinks
    -- A trail visits no more routers than there are, so the rounds are enough for it.
    have hlen := hc'.length_le m hs
    exact (hc'.reaches hlinks hd hsource (by omega)).trans hle
  refine ⟨fun {t c} hc => ⟨hd.relaxRounds _ t c hc, fun hp => ?_⟩, fun hp => ?_⟩
  · obtain ⟨c', hc', hle⟩ := hreach hp
    rw [hc] at hc'
    cases hc'
    exact hle
  · obtain ⟨c', hc', -⟩ := hreach hp
    exact ⟨c', hc'⟩

end AdaptiveRouting
