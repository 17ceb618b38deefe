import AdaptiveRouting.Proofs.Quantity
import AdaptiveRouting.Proofs.Routing.FirstHops

/-!
# Link-state routes are the shortest ones

The routes that `linkStateRoutes` returns are listed strictly by destination, there is one for each
router that a path of admitted links leads to, and each has one next hop, the first router on a
cheapest path at the cost of that path (`ShortestRoutes`). This holds for every map, with parallel
links, loops and circles of links that cost nothing, in every arithmetic in which path costs can be
compared; and the repeated pass that finds the first hops ends with a hop for each router that is
reached, in whatever order it visits them.
-/

namespace AdaptiveRouting

variable {α : Type} [Scalar α]

/-- What the routes from `source` to the routers of a map are to be. -/
structure ShortestRoutes (m : TopologyMap α) (source : Name) (routes : List (RoutingEntry α)) :
    Prop where
  /-- They are listed strictly by destination. -/
  ordered : (routes.map (·.destination)).Pairwise fun s t => compare s t = .lt
  /-- Their destinations are the other routers that a path leads to. -/
  destinations (t : Name) : t ∈ routes.map (·.destination) ↔
    t ∈ m.nodes ∧ t ≠ source ∧ ∃ c, Path m.admitted source t c
  /-- Each has one next hop, which is the first router on a cheapest path and has its cost. -/
  hop {e : RoutingEntry α} : e ∈ routes → ∃ hop c, e.hops = [⟨hop, c⟩] ∧
    IsLeastCost m.admitted source e.destination c ∧
    PathVia m.admitted source hop e.destination c

/-- A router that a path leads to is a router of the map. -/
theorem Path.mem_nodes {m : TopologyMap α} {source t : Name} {c : α} (hs : source ∈ m.nodes)
    (h : Path m.admitted source t c) : t ∈ m.nodes := by
  cases h with
  | here => exact hs
  | step _ hl _ => exact m.mem_nodes.2 (.inr ⟨_, hl, .inr rfl⟩)

/-- The first hops are found by the pass that is repeated until it settles nothing more. -/
theorem passesEnd_firstHops (m : TopologyMap α) (source : Name) (d : NameMap α) :
    PassesEnd m.admitted d source (byDistance d source) ∅ (firstHops m source d) :=
  passesEnd_settleHops ∅ (by simp) (by simp)

section
variable [PathArithmetic α] {source : Name}

/-- Where the repeated pass ends, every hop that it has found lies on a cheapest path. -/
theorem PassesEnd.hopsLieOnPaths_of_empty {links : List (Link α)} {d : NameMap α}
    {order : List (Reached α)} {hops : NameMap Name} (hlinks : NonnegativeLinks links)
    (hd : IsDistanceTable links source d) (horder : ListsReached d source order)
    (h : PassesEnd links d source order ∅ hops) : HopsLieOnPaths links source d hops := by
  refine h.hopsLieOnPaths hlinks hd (fun r hr => ((horder r).1 hr).1) ?_
  intro t hop ht
  simp at ht

/-- Where the repeated pass ends, the routers with a hop are those that are reached, and their hops
lie on cheapest paths. -/
theorem PassesEnd.mem_iff {links : List (Link α)} {d : NameMap α} {order : List (Reached α)}
    {hops : NameMap Name} (hlinks : NonnegativeLinks links) (hd : IsDistanceTable links source d)
    (horder : ListsReached d source order) (h : PassesEnd links d source order ∅ hops) (t : Name) :
    t ∈ hops ↔ t ≠ source ∧ ∃ c, d[t]? = some c := by
  constructor
  · intro ht
    obtain ⟨⟨t', c⟩, hmem, rfl⟩ := List.mem_map.1 (h.mem_order (by simp) t ht)
    obtain ⟨hc, hne⟩ := (horder _).1 hmem
    exact ⟨hne, c, hc⟩
  · rintro ⟨hne, c, hc⟩
    exact mem_of_inTree hlinks hd horder h.settled (hd.inTree hlinks hc) hne

/-- **Link-state routes are the shortest ones.** From every router of the map, they are listed
strictly by destination, one for each other router that can be reached, with the first router on a
cheapest path as the next hop; and whatever finds the distances and in whatever order the routers
that are reached are visited, the repeated pass over them ends with the first hop of a cheapest path
for every one of them. -/
theorem linkStateRoutes_shortest (m : TopologyMap α) {source : Name} (hs : source ∈ m.nodes) :
    ShortestRoutes m source (linkStateRoutes source m) ∧
    IsDistanceTable m.admitted source (distances m source) ∧
    ∀ d order, IsDistanceTable m.admitted source d → order.Perm (byDistance d source) →
      ∃ hops, PassesEnd m.admitted d source order ∅ hops ∧
        HopsLieOnPaths m.admitted source d hops ∧
        ∀ t, t ∈ hops ↔ t ≠ source ∧ ∃ c, d[t]? = some c := by
  have hlinks := m.nonnegative_admitted
  have hd := isDistanceTable_distances m hs
  have horder := listsReached_byDistance (distances m source) source
  have hend := passesEnd_firstHops m source (distances m source)
  have hpaths := hend.hopsLieOnPaths_of_empty hlinks hd horder
  have hmem := hend.mem_iff hlinks hd horder
  have hroutes : linkStateRoutes source m = (firstHops m source (distances m source)).toList.map
      fun h => routeVia (distances m source) h.1 h.2 := by
    simp [linkStateRoutes, hs]
  have hdest : (linkStateRoutes source m).map (·.destination) =
      (firstHops m source (distances m source)).keys := by
    rw [hroutes, List.map_map, ← Std.ExtTreeMap.map_fst_toList_eq_keys]
    rfl
  refine ⟨⟨?_, fun t => ?_, fun {e} he => ?_⟩, hd, fun d order hd' hperm => ?_⟩
  · rw [hdest]
    exact Std.ExtTreeMap.ordered_keys
  · rw [hdest, Std.ExtTreeMap.mem_keys, hmem]
    constructor
    · rintro ⟨hne, c, hc⟩
      exact ⟨(hd.least hc).path.mem_nodes hs, hne, c, (hd.least hc).path⟩
    · rintro ⟨-, hne, c, hp⟩
      exact ⟨hne, hd.reached hp⟩
  · rw [hroutes] at he
    obtain ⟨⟨t, hop⟩, hmem', rfl⟩ := List.mem_map.1 he
    rw [Std.ExtTreeMap.mem_toList_iff_getElem?_eq_some] at hmem'
    obtain ⟨c, hc, hvia⟩ := hpaths t hop hmem'
    exact ⟨hop, c, by simp [routeVia, hc], hd.least hc, hvia⟩
  -- Another order lists the same routers, and nothing else about the order matters.
  · have horder' : ListsReached d source order := fun r =>
      hperm.mem_iff.trans (listsReached_byDistance d source r)
    have hend' : PassesEnd m.admitted d source order ∅
        (settleHops m.admitted d source order (order.length + 1) ∅) :=
      passesEnd_settleHops ∅ (by simp) (by simp)
    exact ⟨_, hend', hend'.hopsLieOnPaths_of_empty hlinks hd' horder',
      hend'.mem_iff hlinks hd' horder'⟩

end

namespace Crossing

/-- The source. -/
def a : Name := { components := ["a"] }

/-- Two links lead here from the source. -/
def b : Name := { components := ["b"] }

/-- A circle that costs nothing leads here. -/
def c : Name := { components := ["c"] }

/-- Only a link of an undefined cost leads here. -/
def d : Name := { components := ["d"] }

/-- A map with parallel links, a loop, a circle that costs nothing and a negative cost. -/
noncomputable def map : TopologyMap Quantity where
  kind := .adjacency
  routers := (∅ : NameSet).insert a
  links := [⟨a, b, .number (3 : ℕ)⟩, ⟨a, b, .number 1⟩, ⟨b, b, .number 0⟩, ⟨b, c, .number 0⟩,
    ⟨c, b, .number 0⟩, ⟨a, c, .number (-(2 : ℕ))⟩, ⟨a, d, .undefined⟩]
  coordinates := ∅

/-- Five of the links count. -/
theorem admitted_map : map.admitted = [⟨a, b, .number 3⟩, ⟨a, b, .number 1⟩, ⟨b, b, .number 0⟩,
    ⟨b, c, .number 0⟩, ⟨c, b, .number 0⟩] := by
  simp [TopologyMap.admitted, map, Quantity.zero_eq]

/-- The routes are the shortest ones, with one to `c` and none to `d`. -/
theorem linkStateRoutes_map : a ∈ map.nodes ∧ ShortestRoutes map a (linkStateRoutes a map) ∧
    c ∈ (linkStateRoutes a map).map (·.destination) ∧
    d ∉ (linkStateRoutes a map).map (·.destination) := by
  have ha : a ∈ map.nodes := map.mem_nodes.2 (.inl (by simp [map]))
  have hroutes := (linkStateRoutes_shortest map ha).1
  refine ⟨ha, hroutes, (hroutes.destinations _).2 ?_, fun hd => ?_⟩
  · have hb : Path map.admitted a b _ :=
      Path.here.step (l := ⟨a, b, .number 1⟩) (by simp [admitted_map]) rfl
    have hc : Path map.admitted a c _ :=
      hb.step (l := ⟨b, c, .number 0⟩) (by simp [admitted_map]) rfl
    exact ⟨hc.mem_nodes ha, by decide, _, hc⟩
  · obtain ⟨-, -, cost, hp⟩ := (hroutes.destinations _).1 hd
    generalize ht : d = t at hp
    cases hp with
    | here => exact absurd ht (by decide)
    | step _ hl _ =>
      rw [admitted_map] at hl
      simp only [List.mem_cons, List.not_mem_nil, or_false] at hl
      rcases hl with rfl | rfl | rfl | rfl | rfl <;> exact absurd ht (by decide)

end Crossing

end AdaptiveRouting
