import AdaptiveRouting.Proofs.Routing.ShortestRoutes
import Mathlib.Logic.Relation

/-!
# Forwarding hop by hop

Each router computes its routes on its own and hands a packet to the next hop that they name for
its destination (`nextHop?`). That hop begins a cheapest path, so in exact arithmetic the cost that
remains falls by the cost of the link that the packet takes (`HandsOn.remaining`), and a packet that
comes back to a router has taken links that cost nothing (`free_of_circle`).

Such links can be taken in circles: of two routers that reach each other at no cost, each may have
the other one for its next hop, since among equal paths the lowest name is picked and not the
shortest way (`Standoff`). That is the only way for a packet to get lost
(`delivered_iff_no_free_circle`), and none gets lost in a map where no two routers reach each other
at no cost (`delivered_of_no_free_circle`).
-/

namespace AdaptiveRouting

open Relation

/-! ## The next hop -/

section
variable {α : Type} [Scalar α]

/-- The next hop of a router to a destination, by the routes that it computes. -/
def nextHop? (m : TopologyMap α) (destination router : Name) : Option Name :=
  (((linkStateRoutes router m).find? (·.destination = destination)).bind (·.best?)).map (·.neighbor)

/-- A router hands packets for the destination to another one. -/
def HandsOn (m : TopologyMap α) (destination u v : Name) : Prop :=
  nextHop? m destination u = some v

/-- A packet is handed on from router to router until it is at its destination; these are the
routers that it visits. -/
inductive Delivered (m : TopologyMap α) (destination : Name) : Name → List Name → Prop where
  | arrived : Delivered m destination destination [destination]
  | handedOn {u v : Name} {route : List Name} : HandsOn m destination u v →
      Delivered m destination v route → Delivered m destination u (u :: route)

/-- The first pass finds the hops if a second one finds no more. -/
theorem firstHops_eq_of_pass {m : TopologyMap α} {source : Name} {d : NameMap α}
    {hops : NameMap Name}
    (hfirst : settlePass m.admitted d source (byDistance d source) ∅ = hops)
    (hsecond : settlePass m.admitted d source (byDistance d source) hops = hops) :
    firstHops m source d = hops := by
  have hend := passesEnd_firstHops m source d
  generalize firstHops m source d = last at hend ⊢
  cases hend with
  | done hall => exact hall.symm.trans hfirst
  | again _ hrest =>
    rw [hfirst] at hrest
    cases hrest with
    | done => rfl
    | again hne _ => exact absurd hsecond hne

omit [Scalar α] in
/-- The first entry of a name in a list of hops is its entry in the map. -/
private theorem find?_toList (hops : NameMap Name) (t : Name) :
    hops.toList.find? (·.1 = t) = hops[t]?.map fun hop => (t, hop) := by
  have hp : (fun h : Name × Name => decide (h.1 = t)) = fun h => compare h.1 t == .eq := by
    funext h
    rw [Bool.eq_iff_iff, decide_eq_true_iff, beq_iff_eq, Std.LawfulEqCmp.compare_eq_iff_eq]
  rw [hp]
  cases hh : hops[t]? with
  | none =>
    rw [Option.map_none, Std.ExtTreeMap.find?_toList_eq_none_iff_not_mem]
    simpa using hh
  | some hop =>
    have ht : t ∈ hops := Std.ExtTreeMap.isSome_getElem?_iff_mem.1 (by rw [hh]; rfl)
    rw [Option.map_some,
      Std.ExtTreeMap.find?_toList_eq_some_iff_getKey?_eq_some_and_getElem?_eq_some]
    exact ⟨Std.ExtTreeMap.getKey?_eq_some ht, hh⟩

/-- The next hop is the first one on the way to a router that is reached. -/
theorem nextHop?_eq {m : TopologyMap α} {u : Name} (hu : u ∈ m.nodes) (t : Name) :
    nextHop? m t u = (firstHops m u (distances m u))[t]?.bind fun hop =>
      (distances m u)[t]?.map fun _ => hop := by
  have hroutes : linkStateRoutes u m = (firstHops m u (distances m u)).toList.map
      fun h => routeVia (distances m u) h.1 h.2 := by
    simp [linkStateRoutes, hu]
  rw [nextHop?, hroutes, List.find?_map]
  have hp : ((fun e : RoutingEntry α => decide (e.destination = t)) ∘
      fun h : Name × Name => routeVia (distances m u) h.1 h.2) = fun h => decide (h.1 = t) := rfl
  rw [hp, find?_toList]
  cases hh : (firstHops m u (distances m u))[t]? with
  | none => rfl
  | some hop => cases hd : (distances m u)[t]? <;> simp [routeVia, RoutingEntry.best?, hd]

/-- Nobody's first hop is the source. -/
def NotThroughSource (source : Name) (hops : NameMap Name) : Prop :=
  ∀ t hop : Name, hops[t]? = some hop → hop ≠ source

section
variable {links : List (Link α)} {d : NameMap α} {source : Name} {order : List (Reached α)}
  {hops last : NameMap Name}

/-- To settle the hop of another router makes nobody's hop the source. -/
theorem NotThroughSource.settleHop {target : Reached α} (hne : target.1 ≠ source)
    (hhops : NotThroughSource source hops) :
    NotThroughSource source (settleHop links d source hops target) := by
  rcases settleHop_cases links d source hops target with ⟨heq, -⟩ | ⟨l, -, hop, hhop, -, heq⟩
  · rwa [heq]
  obtain ⟨-, _, -, -, hhop⟩ := handedOn_eq_some_iff.1 hhop
  rw [heq]
  intro t hop' ht
  rw [Std.ExtTreeMap.getElem?_insert] at ht
  split at ht
  · cases ht
    split at hhop
    · exact hhop ▸ hne
    · exact hhops _ _ hhop
  · exact hhops t hop' ht

/-- A pass over the other routers makes nobody's hop the source. -/
theorem NotThroughSource.settlePass (horder : ∀ r ∈ order, r.1 ≠ source)
    (hhops : NotThroughSource source hops) :
    NotThroughSource source (settlePass links d source order hops) := by
  induction order generalizing hops with
  | nil => exact hhops
  | cons r order ih =>
    obtain ⟨hr, horder⟩ := List.forall_mem_cons.1 horder
    exact ih horder (hhops.settleHop hr)

/-- The source is not among the routers that are visited, so it is not handed on as a hop. -/
theorem PassesEnd.notThroughSource (horder : ∀ r ∈ order, r.1 ≠ source)
    (h : PassesEnd links d source order hops last) (hhops : NotThroughSource source hops) :
    NotThroughSource source last := by
  induction h with
  | done => exact hhops
  | again _ _ ih => exact ih (hhops.settlePass horder)

end

variable [PathArithmetic α] {m : TopologyMap α} {t u v : Name}

/-- A next hop is another router, at the beginning of a cheapest path. -/
theorem HandsOn.pathVia (h : HandsOn m t u v) :
    u ≠ t ∧ v ≠ u ∧ ∃ c, IsLeastCost m.admitted u t c ∧ PathVia m.admitted u v t c := by
  have hu : u ∈ m.nodes := by
    by_contra hu
    simp [HandsOn, nextHop?, linkStateRoutes, hu] at h
  have hlinks := m.nonnegative_admitted
  have hd := isDistanceTable_distances m hu
  have horder := listsReached_byDistance (distances m u) u
  have hend := passesEnd_firstHops m u (distances m u)
  rw [HandsOn, nextHop?_eq hu] at h
  obtain ⟨hop, hhop, h⟩ := Option.bind_eq_some_iff.1 h
  obtain ⟨c, hc, rfl⟩ := Option.map_eq_some_iff.1 h
  have hmem : t ∈ firstHops m u (distances m u) :=
    Std.ExtTreeMap.isSome_getElem?_iff_mem.1 (by rw [hhop]; rfl)
  obtain ⟨c', hc', hvia⟩ := hend.hopsLieOnPaths_of_empty hlinks hd horder t hop hhop
  exact ⟨((hend.mem_iff hlinks hd horder t).1 hmem).1.symm,
    hend.notThroughSource (fun r hr => ((horder r).1 hr).2) (by simp [NotThroughSource]) t hop hhop,
    c', hd.least hc', hvia⟩

omit [PathArithmetic α] in
/-- A path that leads elsewhere begins at a router of the map. -/
theorem Path.source_mem_nodes {c : α} (h : Path m.admitted u t c) (hne : u ≠ t) : u ∈ m.nodes := by
  induction h with
  | here => exact absurd rfl hne
  | @step middle _ l hp hl hm ih =>
    by_cases hu : u = middle
    · exact m.mem_nodes.2 (.inr ⟨l, hl, .inl (hm.trans hu.symm)⟩)
    · exact ih hu

/-- On the way to the destination every router has a next hop. -/
theorem Path.exists_handsOn {c : α} (h : Path m.admitted u t c) (hne : u ≠ t) :
    ∃ v, HandsOn m t u v := by
  have hu := h.source_mem_nodes hne
  have hlinks := m.nonnegative_admitted
  have hd := isDistanceTable_distances m hu
  have hend := passesEnd_firstHops m u (distances m u)
  obtain ⟨c', hc'⟩ := hd.reached h
  have hmem := (hend.mem_iff hlinks hd (listsReached_byDistance _ u) t).2 ⟨hne.symm, c', hc'⟩
  obtain ⟨v, hv⟩ := Option.isSome_iff_exists.1 (Std.ExtTreeMap.isSome_getElem?_iff_mem.2 hmem)
  exact ⟨v, by rw [HandsOn, nextHop?_eq hu, hv, hc']; rfl⟩

end

/-! ## The cost that remains -/

section
variable {links : List (Link Quantity)} {source target hop : Name} {c : Quantity}

/-- A link can be put in front of a path. -/
theorem Path.prepend {l : Link Quantity} (hl : l ∈ links) (h : Path links l.target target c) :
    Path links l.source target (l.cost + c) := by
  induction h with
  | here => simpa using Path.here.step hl rfl
  | step _ hl' hm ih =>
    rw [← Quantity.add_assoc]
    exact ih.step hl' hm

/-- Behind the first hop of a path there is the rest of it. -/
theorem PathVia.exists_rest (h : PathVia links source hop target c) :
    ∃ l ∈ links, l.source = source ∧ l.target = hop ∧
      ∃ rest, Path links hop target rest ∧ c = l.cost + rest := by
  induction h with
  | @first l hl hs ht => exact ⟨l, hl, hs, ht, 0.0, .here, by simp⟩
  | step _ hl' hm ih =>
    obtain ⟨l, hl, hs, ht, rest, hrest, rfl⟩ := ih
    exact ⟨l, hl, hs, ht, _, hrest.step hl' hm, Quantity.add_assoc ..⟩

/-- The rest of a cheapest path is a cheapest path. -/
theorem IsLeastCost.exists_rest (hlinks : NonnegativeLinks links)
    (h : IsLeastCost links source target c) (hvia : PathVia links source hop target c) :
    ∃ l ∈ links, l.source = source ∧ l.target = hop ∧ ∃ x y : ℝ, 0 ≤ x ∧ l.cost = .number x ∧
      IsLeastCost links hop target (.number y) ∧ c = .number (x + y) := by
  obtain ⟨l, hl, hs, ht, rest, hrest, rfl⟩ := hvia.exists_rest
  obtain ⟨x, hx, hcost⟩ := Quantity.zero_le_iff.1 (hlinks l hl)
  obtain ⟨y, -, rfl⟩ := Quantity.zero_le_iff.1 (hrest.nonneg hlinks)
  refine ⟨l, hl, hs, ht, x, y, hx, hcost, ⟨hrest, fun {c'} hc' => ?_⟩, by simp [hcost]⟩
  obtain ⟨y', -, rfl⟩ := Quantity.zero_le_iff.1 (hc'.nonneg hlinks)
  subst hs ht
  have hle := h.le (hc'.prepend hl)
  simpa [hcost] using hle

end

/-- A packet is handed on over a link that costs nothing. -/
def HandsOnFree (m : TopologyMap Quantity) (destination u v : Name) : Prop :=
  HandsOn m destination u v ∧ ∃ l ∈ m.admitted, l.source = u ∧ l.target = v ∧ l.cost = .number 0

section
variable {m : TopologyMap Quantity} {t u v : Name}

/-- A packet that is handed on has less to go, or no more and is handed on for nothing. -/
theorem HandsOn.remaining (h : HandsOn m t u v) : ∃ x y : ℝ,
    IsLeastCost m.admitted u t (.number x) ∧ IsLeastCost m.admitted v t (.number y) ∧
    (y < x ∨ y = x ∧ HandsOnFree m t u v) := by
  obtain ⟨-, -, c, hleast, hvia⟩ := h.pathVia
  obtain ⟨l, hl, hs, ht, x, y, hx, hcost, hrest, rfl⟩ :=
    hleast.exists_rest m.nonnegative_admitted hvia
  refine ⟨x + y, y, hleast, hrest, ?_⟩
  rcases hx.lt_or_eq with hx | rfl
  · exact .inl (by linarith)
  · exact .inr ⟨by simp, h, l, hl, hs, ht, hcost⟩

/-- Wherever a packet gets, it has less to go, or no more and has come for nothing. -/
theorem remaining_of_transGen (h : TransGen (HandsOn m t) u v) : ∃ x y : ℝ,
    IsLeastCost m.admitted u t (.number x) ∧ IsLeastCost m.admitted v t (.number y) ∧
    (y < x ∨ y = x ∧ TransGen (HandsOnFree m t) u v) := by
  induction h with
  | single h =>
    obtain ⟨x, y, hu, hv, hxy⟩ := h.remaining
    exact ⟨x, y, hu, hv, hxy.imp_right fun ⟨heq, hfree⟩ => ⟨heq, .single hfree⟩⟩
  | tail _ h ih =>
    obtain ⟨x, y, hu, hv, hxy⟩ := ih
    obtain ⟨y', z, hv', hw, hyz⟩ := h.remaining
    have hy : y = y' := Quantity.number.inj (hv.unique m.nonnegative_admitted hv')
    subst hy
    refine ⟨x, z, hu, hw, ?_⟩
    rcases hxy with hxy | ⟨rfl, hfree⟩ <;> rcases hyz with hyz | ⟨rfl, hfree'⟩
    · exact .inl (hyz.trans hxy)
    · exact .inl hxy
    · exact .inl hyz
    · exact .inr ⟨rfl, hfree.tail hfree'⟩

/-- A packet that comes back to a router has come for nothing. -/
theorem free_of_circle (h : TransGen (HandsOn m t) v v) : TransGen (HandsOnFree m t) v v := by
  obtain ⟨x, y, hx, hy, hxy⟩ := remaining_of_transGen h
  have heq : x = y := Quantity.number.inj (hx.unique m.nonnegative_admitted hy)
  rcases hxy with hlt | ⟨-, hfree⟩
  · exact absurd heq hlt.ne'
  · exact hfree

/-! ## Delivery -/

/-- A packet that sets out at `u` comes into a circle of at least two routers that hand it on to
each other for nothing. -/
def RunsInFreeCircle (m : TopologyMap Quantity) (destination u : Name) : Prop :=
  ∃ v w, v ≠ w ∧ ReflTransGen (HandsOn m destination) u v ∧ HandsOnFree m destination v w ∧
    ReflTransGen (HandsOnFree m destination) w v

/-- A packet that reaches a circle runs in one in which every link is free. -/
theorem runsInFreeCircle_of_circle (hv : ReflTransGen (HandsOn m t) u v)
    (h : TransGen (HandsOn m t) v v) : RunsInFreeCircle m t u := by
  obtain ⟨w, hvw, hwv⟩ := TransGen.head'_iff.1 (free_of_circle h)
  exact ⟨v, w, hvw.1.pathVia.2.1.symm, hv, hvw, hwv⟩

/-- Every router on the route of a packet is reached by it. -/
theorem Delivered.reached {route : List Name} (h : Delivered m t u route) :
    ∀ v ∈ route, ReflTransGen (HandsOn m t) u v := by
  induction h with
  | arrived =>
    intro v hv
    rw [List.mem_singleton.1 hv]
  | handedOn hstep _ ih =>
    intro v hv
    rcases List.mem_cons.1 hv with rfl | hv
    · exact .refl
    · exact .head hstep (ih v hv)

/-- A packet that is delivered does not come back to where it has been. -/
theorem Delivered.no_circle {route : List Name} (h : Delivered m t u route) :
    ¬ TransGen (HandsOn m t) u u := by
  induction h with
  | arrived =>
    intro hc
    obtain ⟨w, hw, -⟩ := TransGen.head'_iff.1 hc
    exact hw.pathVia.1 rfl
  | @handedOn u v route hstep _ ih =>
    intro hc
    obtain ⟨w, hw, hback⟩ := TransGen.head'_iff.1 hc
    obtain rfl : v = w := Option.some.inj (hstep.symm.trans hw)
    exact ih (TransGen.tail' hback hstep)

/-- A packet that is delivered from a router is delivered from its next hop. -/
theorem Delivered.of_handsOn {route : List Name} (h : Delivered m t u route)
    (hv : HandsOn m t u v) : ∃ route', Delivered m t v route' := by
  cases h with
  | arrived => exact absurd rfl hv.pathVia.1
  | @handedOn _ w route hstep hrest =>
    obtain rfl : w = v := Option.some.inj (hstep.symm.trans hv)
    exact ⟨route, hrest⟩

/-- A packet that is delivered from a router is delivered from every one that it reaches. -/
theorem Delivered.of_reached {route : List Name} (h : Delivered m t u route)
    (hv : ReflTransGen (HandsOn m t) u v) : ∃ route', Delivered m t v route' := by
  induction hv with
  | refl => exact ⟨route, h⟩
  | tail _ hstep ih =>
    obtain ⟨_, hmid⟩ := ih
    exact hmid.of_handsOn hstep

/-- A packet that has visited some routers is delivered, or comes back to one of these or of those
that it visits later. With each router that it visits fewer are left to visit. -/
theorem delivered_or_circle {u : Name} {visited : List Name} {c : Quantity}
    (h : Path m.admitted u t c) (hnodup : visited.Nodup)
    (hvisited : ∀ v ∈ visited, v ∈ m.nodes ∧ TransGen (HandsOn m t) v u) :
    (∃ route, Delivered m t u route ∧ route.Nodup) ∨ RunsInFreeCircle m t u := by
  by_cases hut : u = t
  · exact .inl ⟨[t], hut ▸ .arrived, List.nodup_singleton t⟩
  by_cases hu : u ∈ visited
  · exact .inr (runsInFreeCircle_of_circle .refl (hvisited u hu).2)
  obtain ⟨v, hv⟩ := h.exists_handsOn hut
  obtain ⟨_, _, -, hrest, -⟩ := hv.remaining
  have hnodup' : (u :: visited).Nodup := List.nodup_cons.2 ⟨hu, hnodup⟩
  have hvisited' : ∀ w ∈ u :: visited, w ∈ m.nodes ∧ TransGen (HandsOn m t) w v := by
    intro w hw
    rcases List.mem_cons.1 hw with rfl | hw
    · exact ⟨h.source_mem_nodes hut, .single hv⟩
    · exact ⟨(hvisited w hw).1, (hvisited w hw).2.tail hv⟩
  have hlen : visited.length + 1 ≤ m.nodes.size :=
    m.length_le_of_nodup hnodup' fun w hw => (hvisited' w hw).1
  rcases delivered_or_circle hrest.path hnodup' hvisited' with
    ⟨route, hroute, hdistinct⟩ | ⟨v', w, hne, hreach, hfree, hback⟩
  -- The router may be visited again on the way, which is a circle too.
  · by_cases hmem : u ∈ route
    · exact .inr (runsInFreeCircle_of_circle .refl (.head' hv (hroute.reached u hmem)))
    · exact .inl ⟨_, .handedOn hv hroute, List.nodup_cons.2 ⟨hmem, hdistinct⟩⟩
  · exact .inr ⟨v', w, hne, .head hv hreach, hfree, hback⟩
termination_by m.nodes.size - visited.length

/-- **Packets get lost in circles that cost nothing, and in no other way.** Wherever a path leads to
the destination, a packet is handed on to it without visiting a router twice, unless it comes to
routers that hand it on to each other in a circle over links that cost nothing. -/
theorem delivered_iff_no_free_circle {c : Quantity} (h : Path m.admitted u t c) :
    (∃ route, Delivered m t u route ∧ route.Nodup) ↔ ¬ RunsInFreeCircle m t u := by
  constructor
  · rintro ⟨route, hroute, -⟩ ⟨v, w, -, hreach, hfree, hback⟩
    obtain ⟨_, hv⟩ := hroute.of_reached hreach
    exact hv.no_circle (.head' hfree.1 (ReflTransGen.mono (fun _ _ h => h.1) _ _ hback))
  · exact (delivered_or_circle h .nil (by simp)).resolve_right

/-- A link that costs nothing leads from one router to another. -/
def LinkedFree (m : TopologyMap Quantity) (u v : Name) : Prop :=
  ∃ l ∈ m.admitted, l.source = u ∧ l.target = v ∧ l.cost = .number 0

/-- Where no two different routers reach each other over links that cost nothing, no packet gets
lost: the two ends of a link in a circle would be such routers. -/
theorem delivered_of_no_free_circle {c : Quantity}
    (hfree : ∀ v w, ReflTransGen (LinkedFree m) v w → ReflTransGen (LinkedFree m) w v → v = w)
    (h : Path m.admitted u t c) : ∃ route, Delivered m t u route ∧ route.Nodup := by
  refine (delivered_or_circle h .nil (by simp)).resolve_right ?_
  rintro ⟨v, w, hne, -, hvw, hback⟩
  have hwv : ReflTransGen (LinkedFree m) w v := ReflTransGen.mono (fun _ _ h => h.2) _ _ hback
  exact hne (hfree v w (.single hvw.2) hwv)

end

namespace Standoff

/-- The name is proper. -/
theorem proper_a : ∀ c ∈ ["a"], IsComponent c := by decide

/-- So is the other one. -/
theorem proper_b : ∀ c ∈ ["b"], IsComponent c := by decide

/-- A router with a link of its own to the destination. -/
def a : Name := { components := ["a"], proper := proper_a }

/-- Another one. -/
def b : Name := { components := ["b"], proper := proper_b }

/-- The destination, with the last of the names. -/
def t : Name := { components := ["t"] }

/-- A way to the destination that costs something at each step. -/
noncomputable def lane : TopologyMap Quantity where
  kind := .adjacency
  routers := ∅
  links := [⟨a, b, .number (3 : ℕ)⟩, ⟨b, t, .number (4 : ℕ)⟩]
  coordinates := ∅

/-- The packet is delivered along the lane, and visits no router twice. -/
theorem delivered_lane : (∃ c, Path lane.admitted a t c) ∧
    ∃ route, Delivered lane t a route ∧ route.Nodup := by
  have hlinks : lane.admitted = [⟨a, b, .number 3⟩, ⟨b, t, .number 4⟩] := by
    simp [TopologyMap.admitted, lane, Quantity.zero_eq]
  have hb : Path lane.admitted a b _ :=
    Path.here.step (l := ⟨a, b, .number 3⟩) (by simp [hlinks]) rfl
  have ht : Path lane.admitted a t _ :=
    hb.step (l := ⟨b, t, .number 4⟩) (by simp [hlinks]) rfl
  refine ⟨⟨_, ht⟩, (delivered_iff_no_free_circle ht).2 ?_⟩
  rintro ⟨_, _, -, -, ⟨-, l, hl, -, -, hfree⟩, -⟩
  rw [hlinks] at hl
  simp only [List.mem_cons, List.not_mem_nil, or_false] at hl
  rcases hl with rfl | rfl <;> simp at hfree

/-- The two routers are different. -/
theorem a_ne_b : a ≠ b := by decide

/-- The first of them is not the destination. -/
theorem a_ne_t : a ≠ t := by decide

/-- Nor is the second. -/
theorem b_ne_t : b ≠ t := by decide

noncomputable def links : List (Link Quantity) :=
  [⟨a, b, .number 0⟩, ⟨b, a, .number 0⟩, ⟨a, t, .number 1⟩, ⟨b, t, .number 1⟩]

/-- Two routers that reach each other at no cost, and the destination at the same one. -/
noncomputable def map : TopologyMap Quantity where
  kind := .adjacency
  routers := ∅
  links := links
  coordinates := ∅

/-- Every link of the map counts. -/
theorem admitted_eq : map.admitted = links := by
  simp [TopologyMap.admitted, map, links, Quantity.zero_eq]

/-- There are three routers on the map. -/
theorem size_nodes : map.nodes.size = 3 := by
  rw [TopologyMap.nodes, admitted_eq]
  rfl

/-- The distances from either of the two. -/
noncomputable def table : NameMap Quantity :=
  (((∅ : NameMap Quantity).insert a (.number 0)).insert b (.number 0)).insert t (.number 1)

/-- The first router is at no distance. -/
theorem table_a : table[a]? = some (.number 0) := rfl

/-- Nor is the second. -/
theorem table_b : table[b]? = some (.number 0) := rfl

/-- The three distances by name. -/
theorem toList_table : table.toList = [(a, .number 0), (b, .number 0), (t, .number 1)] := rfl

/-- These are the distances from the first router. -/
theorem distances_a : distances map a = table := by
  rw [distances, size_nodes, admitted_eq, links, Quantity.zero_eq]
  simp only [relaxRounds, relax, List.foldl_cons, List.foldl_nil, Std.ExtTreeMap.getElem?_insert,
    Std.ExtTreeMap.getElem?_empty, Std.LawfulEqCmp.compare_eq_iff_eq, a_ne_b, a_ne_b.symm, a_ne_t,
    a_ne_t.symm, b_ne_t, b_ne_t.symm, Quantity.number_add_number, Quantity.number_lt_number,
    add_zero, zero_add, lt_self_iff_false, if_true, if_false, table]

/-- They are the same from the second. -/
theorem distances_b : distances map b = table := by
  rw [distances, size_nodes, admitted_eq, links, Quantity.zero_eq]
  simp only [relaxRounds, relax, List.foldl_cons, List.foldl_nil, Std.ExtTreeMap.getElem?_insert,
    Std.ExtTreeMap.getElem?_empty, Std.LawfulEqCmp.compare_eq_iff_eq, a_ne_b, a_ne_b.symm, a_ne_t,
    a_ne_t.symm, b_ne_t, b_ne_t.symm, Quantity.number_add_number, Quantity.number_lt_number,
    add_zero, zero_add, lt_self_iff_false, if_true, if_false, table]
  rfl

/-- The one router knows the other one's hop when it settles the destination's, and `b` comes
before `t`. -/
theorem handsOn_a : HandsOn map t a b := by
  have horder : byDistance table a = [(b, .number 0), (t, .number 1)] := by
    rw [byDistance, toList_table]
    simp [a_ne_b.symm, a_ne_t.symm, insertNearer, nearer, Scalar.totalLE]
  have hb : settleHop links table a ∅ (b, .number 0) = (∅ : NameMap Name).insert b b := by
    simp [settleHop, handedOn, links, table_a, a_ne_b, b_ne_t.symm, lowest?]
  have ht : settleHop links table a ((∅ : NameMap Name).insert b b) (t, .number 1) =
      ((∅ : NameMap Name).insert b b).insert t b := by
    have hlow : (compare t b).isLE = false := by decide
    simp [settleHop, handedOn, links, table_a, table_b, a_ne_t, a_ne_b.symm, b_ne_t, lowest?, hlow]
  have hhops : firstHops map a table = ((∅ : NameMap Name).insert b b).insert t b := by
    refine firstHops_eq_of_pass ?_ ?_
    · rw [horder, admitted_eq, settlePass, List.foldl_cons, hb, List.foldl_cons, ht, List.foldl_nil]
    · rw [horder]
      rfl
  have ha : a ∈ map.nodes :=
    map.mem_nodes.2 (.inr ⟨⟨a, t, .number 1⟩, by simp [admitted_eq, links], .inl rfl⟩)
  rw [HandsOn, nextHop?_eq ha, distances_a, hhops]
  rfl

/-- The second router hands packets to the first. -/
theorem handsOn_b : HandsOn map t b a := by
  have horder : byDistance table b = [(a, .number 0), (t, .number 1)] := by
    rw [byDistance, toList_table]
    simp [a_ne_b, b_ne_t.symm, insertNearer, nearer, Scalar.totalLE]
  have ha : settleHop links table b ∅ (a, .number 0) = (∅ : NameMap Name).insert a a := by
    simp [settleHop, handedOn, links, table_b, a_ne_b.symm, a_ne_t.symm, lowest?]
  have ht : settleHop links table b ((∅ : NameMap Name).insert a a) (t, .number 1) =
      ((∅ : NameMap Name).insert a a).insert t a := by
    have hlow : (compare a t).isLE = true := by decide
    simp [settleHop, handedOn, links, table_a, table_b, a_ne_t, a_ne_b, b_ne_t, lowest?, hlow]
  have hhops : firstHops map b table = ((∅ : NameMap Name).insert a a).insert t a := by
    refine firstHops_eq_of_pass ?_ ?_
    · rw [horder, admitted_eq, settlePass, List.foldl_cons, ha, List.foldl_cons, ht, List.foldl_nil]
    · rw [horder]
      rfl
  have hb : b ∈ map.nodes :=
    map.mem_nodes.2 (.inr ⟨⟨b, t, .number 1⟩, by simp [admitted_eq, links], .inl rfl⟩)
  rw [HandsOn, nextHop?_eq hb, distances_b, hhops]
  rfl

/-- The two routers hand a packet to each other for ever. -/
theorem not_delivered : (∀ l ∈ map.links, ∃ x : ℝ, 0 ≤ x ∧ l.cost = .number x) ∧
    (∃ c, Path map.admitted a t c) ∧ ¬ ∃ route, Delivered map t a route ∧ route.Nodup := by
  refine ⟨?_, ⟨_, Path.here.step (l := ⟨a, t, .number 1⟩) ?_ rfl⟩, ?_⟩
  · intro l hl
    simp only [map, links, List.mem_cons, List.not_mem_nil, or_false] at hl
    rcases hl with rfl | rfl | rfl | rfl <;> exact ⟨_, by norm_num, rfl⟩
  · simp [admitted_eq, links]
  · rintro ⟨route, hroute, -⟩
    exact hroute.no_circle (.tail (.single handsOn_a) handsOn_b)

end Standoff

end AdaptiveRouting
