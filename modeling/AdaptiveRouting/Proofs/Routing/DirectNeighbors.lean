import AdaptiveRouting.Proofs.Monitor.CostCopies
import AdaptiveRouting.Proofs.Routing.HyperbolicDistance
import AdaptiveRouting.Proofs.Routing.TableContents
import AdaptiveRouting.Proofs.Routing.TieBreaks

/-!
# Direct neighbors in hyperbolic routing

Towards a destination that is a neighbor itself, `greedyHop?` offers the neighbor at no cost, and
every other neighbor at its distance. That distance can be zero as well. Hops of one cost stay in
the order in which they were added, and neighbors are looked at in the order of their names, so the
neighbor loses to one in the same place whose name comes first (`SamePlace`).

What carries the argument is that adding hops through different neighbors keeps, as the best one,
the first of the cheapest (`RoutingEntry.best?_foldl_add`). No hop costs less than nothing, and
those that cost nothing are the neighbors where the destination is (`IsAt`); hence the lowest name
among them is the best hop (`neighbor_in_place_preferred`).
-/

namespace AdaptiveRouting

/-! ## The cheapest of the hops that are added -/

namespace RoutingEntry

variable {α : Type} [Scalar α]

/-- The cheaper of two hops; the one that was there before stays if the other costs as much. -/
def cheaper? (best : Option (NextHop α)) (hop : NextHop α) : Option (NextHop α) :=
  match best with
  | none => some hop
  | some b => if Scalar.totalLE b.cost hop.cost then some b else some hop

variable {b hop : NextHop α} {e : RoutingEntry α} {hops before after : List (NextHop α)}

/-- The first of the sorted hops is the new one if it costs no more than the first before. -/
theorem head?_insertByCost (hop : NextHop α) (hops : List (NextHop α)) :
    (insertByCost hop hops).head? = hops.head?.elim (some hop) fun h =>
      if Scalar.totalLE hop.cost h.cost then some hop else some h := by
  cases hops with
  | nil => rfl
  | cons h rest =>
    unfold insertByCost
    split
    · next hle => simp [hle]
    · next hle => simp [hle]

section
variable (htrans : ∀ x y z : α, Scalar.totalLE x y = true → Scalar.totalLE y z = true →
  Scalar.totalLE x z = true)
include htrans

/-- A hop behind sorted ones comes first if it costs less than their first. -/
theorem head?_sortByCost_concat (h : CheapestFirst hops) (hop : NextHop α) :
    (sortByCost (hops ++ [hop])).head? = cheaper? hops.head? hop := by
  induction hops with
  | nil => rfl
  | cons k rest ih =>
    show (insertByCost k (sortByCost (rest ++ [hop]))).head? = _
    rw [head?_insertByCost, ih h.tail]
    cases rest with
    | nil => rfl
    | cons l rest =>
      have hkl : Scalar.totalLE k.cost l.cost = true := (List.isChain_cons_cons.1 h).1
      by_cases hl : Scalar.totalLE l.cost hop.cost
      · have hk : Scalar.totalLE k.cost hop.cost = true := htrans _ _ _ hkl hl
        simp [cheaper?, hl, hkl, hk]
      · simp [cheaper?, hl]

variable (htotal : ∀ x y : α, Scalar.totalLE x y = true ∨ Scalar.totalLE y x = true)
include htotal

/-- Of hops through different neighbors the cheapest comes first, and of several the one that was
added first. -/
theorem best?_foldl_add (h : e.InOrder)
    (honce : (e.hops.map (·.neighbor) ++ hops.map (·.neighbor)).Nodup) :
    (hops.foldl add e).best? = hops.foldl cheaper? e.best? := by
  induction hops generalizing e with
  | nil => rfl
  | cons hop rest ih =>
    have hnew : hop.neighbor ∉ e.hops.map (·.neighbor) := by
      intro hmem
      exact (List.nodup_append.1 honce).2.2 _ hmem _ (by simp) rfl
    have hadd : (e.add hop).hops = sortByCost (e.hops ++ [hop]) := by
      rw [add, place_of_new hnew]
    have hnames : ((e.add hop).hops.map (·.neighbor)).Perm
        (e.hops.map (·.neighbor) ++ [hop.neighbor]) := by
      rw [hadd, ← List.map_singleton (f := fun h : NextHop α => h.neighbor), ← List.map_append]
      exact (perm_sortByCost _).map _
    have hbest : (e.add hop).best? = cheaper? e.best? hop := by
      rw [best?, hadd, head?_sortByCost_concat htrans h.cheapestFirst]
      rfl
    rw [List.foldl_cons, List.foldl_cons, ih (h.add htotal hop), hbest]
    refine (hnames.append_right _).nodup_iff.2 ?_
    rwa [List.append_assoc, List.singleton_append]

end

/-- A hop than which none is cheaper stays the cheapest. -/
theorem foldl_cheaper?_of_le (h : ∀ hop ∈ hops, Scalar.totalLE b.cost hop.cost = true) :
    hops.foldl cheaper? (some b) = some b := by
  induction hops with
  | nil => rfl
  | cons hop rest ih =>
    obtain ⟨hhop, hrest⟩ := List.forall_mem_cons.1 h
    rw [List.foldl_cons, cheaper?, if_pos hhop, ih hrest]

/-- The cheapest hop is one of those that were compared. -/
theorem mem_of_foldl_cheaper? {best : Option (NextHop α)}
    (h : hops.foldl cheaper? best = some b) : b ∈ hops ∨ best = some b := by
  induction hops generalizing best with
  | nil => exact .inr h
  | cons hop rest ih =>
    rw [List.foldl_cons] at h
    rcases ih h with hmem | hstep
    · exact .inl (List.mem_cons_of_mem _ hmem)
    · cases best with
      | none =>
        cases hstep
        exact .inl (List.mem_cons_self ..)
      | some a =>
        dsimp only [cheaper?] at hstep
        split at hstep
        · exact .inr hstep
        · cases hstep
          exact .inl (List.mem_cons_self ..)

/-- A hop that costs less than those before it and no more than those behind it is the cheapest. -/
theorem foldl_cheaper?_append (hbefore : ∀ hop ∈ before, ¬ Scalar.totalLE hop.cost b.cost = true)
    (hafter : ∀ hop ∈ after, Scalar.totalLE b.cost hop.cost = true) :
    (before ++ b :: after).foldl cheaper? none = some b := by
  rw [List.foldl_append, List.foldl_cons]
  have hstep : cheaper? (before.foldl cheaper? none) b = some b := by
    cases hbest : before.foldl cheaper? none with
    | none => rfl
    | some a =>
      have ha : a ∈ before := (mem_of_foldl_cheaper? hbest).resolve_right nofun
      exact if_neg (hbefore a ha)
  rw [hstep, foldl_cheaper?_of_le hafter]

end RoutingEntry

open Quantity (number)

/-! ## The ways to a destination -/

section
variable {destination : Name} {target : Coordinate Quantity}
  {neighbor : Name × Coordinate Quantity} {hop : NextHop Quantity}

/-- The hop that a neighbor offers is this neighbor. -/
theorem neighbor_greedyHop? (h : greedyHop? destination target neighbor = some hop) :
    hop.neighbor = neighbor.1 := by
  unfold greedyHop? at h
  split at h
  · cases h
    rfl
  · split at h
    · cases h
    · split at h
      · cases h
        rfl
      · cases h

/-- No way costs less than nothing, and only a neighbor that is the destination or at no distance
from it offers one for nothing. -/
theorem cost_greedyHop? (h : greedyHop? destination target neighbor = some hop) :
    ∃ x, 0 ≤ x ∧ hop.cost = number x ∧
      (x = 0 ↔
        neighbor.1 = destination ∨ hyperbolicDistance? neighbor.2 target = some (number 0)) := by
  unfold greedyHop? at h
  split at h
  · next hdirect =>
    cases h
    exact ⟨0, le_rfl, Quantity.zero_eq, by simp [hdirect]⟩
  · next hother =>
    split at h
    · cases h
    · next cost hcost =>
      split at h
      · next hfinite =>
        cases h
        obtain ⟨x, hx, rfl⟩ := exists_hyperbolicDistance? hcost hfinite
        exact ⟨x, hx, rfl, by simp [hother, hcost]⟩
      · cases h

end

section
variable {neighbors : AdjacencyTable Quantity} (hfiled : neighbors.Filed) (m : TopologyMap Quantity)
include hfiled

/-- The neighbors with a position are those in the table that are active and whose coordinate is
known. -/
theorem mem_locatedNeighbors {n : Name} {position : Coordinate Quantity} :
    (n, position) ∈ locatedNeighbors neighbors m ↔ ∃ a, neighbors.find? n = some a ∧
      a.status = .active ∧ m.coordinates[n]? = some position := by
  simp only [locatedNeighbors, AdjacencyTable.toList, List.filterMap_map, List.mem_filterMap,
    Function.comp_apply, Option.ite_none_right_eq_some, Option.map_eq_some_iff, Prod.mk.injEq]
  constructor
  · rintro ⟨⟨k, a⟩, hmem, hactive, c, hposition, rfl, rfl⟩
    have hfind : neighbors.find? k = some a := Std.ExtTreeMap.mem_toList_iff_getElem?_eq_some.1 hmem
    have hk : a.name = k := hfiled k a hfind
    exact ⟨a, hk.symm ▸ hfind, hactive, hposition⟩
  · rintro ⟨a, hfind, hactive, hposition⟩
    have hn : a.name = n := hfiled n a hfind
    exact ⟨(n, a), Std.ExtTreeMap.mem_toList_iff_getElem?_eq_some.2 hfind, hactive, position,
      hn.symm ▸ hposition, hn, rfl⟩

/-- The neighbors are looked at in the order of their names. -/
theorem pairwise_locatedNeighbors :
    (locatedNeighbors neighbors m).Pairwise fun a b => compare a.1 b.1 = .lt := by
  rw [locatedNeighbors, AdjacencyTable.toList, List.filterMap_map]
  refine List.pairwise_filterMap.2 (Std.ExtTreeMap.ordered_keys_toList.imp_of_mem ?_)
  rintro ⟨k, a⟩ ⟨k', a'⟩ hmem hmem' hlt x hx y hy
  have hk : a.name = k := hfiled k a (Std.ExtTreeMap.mem_toList_iff_getElem?_eq_some.1 hmem)
  have hk' : a'.name = k' := hfiled k' a' (Std.ExtTreeMap.mem_toList_iff_getElem?_eq_some.1 hmem')
  simp only [Function.comp_apply, Option.ite_none_right_eq_some, Option.map_eq_some_iff] at hx hy
  obtain ⟨-, -, -, rfl⟩ := hx
  obtain ⟨-, -, -, rfl⟩ := hy
  rwa [hk, hk']

/-- So are the ways that they offer. -/
theorem pairwise_greedyHops (destination : Name) (target : Coordinate Quantity) :
    ((locatedNeighbors neighbors m).filterMap (greedyHop? destination target)).Pairwise
      fun a b => compare a.neighbor b.neighbor = .lt := by
  refine List.pairwise_filterMap.2 ((pairwise_locatedNeighbors hfiled m).imp ?_)
  intro x y hlt hop hhop hop' hhop'
  rwa [neighbor_greedyHop? hhop, neighbor_greedyHop? hhop']

end

/-- The best way is one that costs less than those of the neighbors before and no more than those of
the neighbors behind. -/
theorem best?_greedyEntry {located : List (Name × Coordinate Quantity)} {destination : Name}
    {target : Coordinate Quantity} {before after : List (NextHop Quantity)} {b : NextHop Quantity}
    (hhops : located.filterMap (greedyHop? destination target) = before ++ b :: after)
    (honce : ((before ++ b :: after).map (·.neighbor)).Nodup)
    (hbefore : ∀ hop ∈ before, ¬ Scalar.totalLE hop.cost b.cost = true)
    (hafter : ∀ hop ∈ after, Scalar.totalLE b.cost hop.cost = true) :
    (greedyEntry located destination target).best? = some b := by
  rw [greedyEntry, hhops, RoutingEntry.best?_foldl_add (fun _ _ _ => Quantity.totalLE_trans)
    Quantity.totalLE_total (RoutingEntry.inOrder_unreachable destination) honce]
  exact RoutingEntry.foldl_cheaper?_append hbefore hafter

section
variable {neighbors : AdjacencyTable Quantity} {source destination : Name}
  {m : TopologyMap Quantity} {target : Coordinate Quantity}

/-- There is a route to each other router whose coordinate is known, unless no neighbor offers a
hop. -/
theorem mem_hyperbolicRoutes_iff {e : RoutingEntry Quantity} :
    e ∈ hyperbolicRoutes neighbors source m ↔ ∃ destination target,
      m.coordinates[destination]? = some target ∧ destination ≠ source ∧ e.hops ≠ [] ∧
      e = greedyEntry (locatedNeighbors neighbors m) destination target := by
  simp only [hyperbolicRoutes, List.mem_filterMap, Option.ite_none_left_eq_some, Option.some.injEq,
    not_or, List.isEmpty_iff, Prod.exists, Std.ExtTreeMap.mem_toList_iff_getElem?_eq_some]
  constructor
  · rintro ⟨destination, target, htarget, ⟨hsource, hhops⟩, rfl⟩
    exact ⟨destination, target, htarget, hsource, hhops, rfl⟩
  · rintro ⟨destination, target, htarget, hsource, hhops, rfl⟩
    exact ⟨destination, target, htarget, ⟨hsource, hhops⟩, rfl⟩

/-- A destination has no other route than the ways to it. -/
theorem eq_greedyEntry (htarget : m.coordinates[destination]? = some target)
    {e : RoutingEntry Quantity} (he : e ∈ hyperbolicRoutes neighbors source m)
    (hdestination : e.destination = destination) :
    e = greedyEntry (locatedNeighbors neighbors m) destination target := by
  obtain ⟨k, target', htarget', -, -, rfl⟩ := mem_hyperbolicRoutes_iff.1 he
  obtain rfl : k = destination := (RoutingEntry.destination_foldl_add _ _).symm.trans hdestination
  rw [htarget, Option.some_inj] at htarget'
  rw [htarget']

/-- It has that one if there is a best way. -/
theorem greedyEntry_mem (htarget : m.coordinates[destination]? = some target)
    (hsource : destination ≠ source) {hop : NextHop Quantity}
    (hbest : (greedyEntry (locatedNeighbors neighbors m) destination target).best? = some hop) :
    greedyEntry (locatedNeighbors neighbors m) destination target ∈
      hyperbolicRoutes neighbors source m := by
  refine mem_hyperbolicRoutes_iff.2 ⟨destination, target, htarget, hsource, fun hnone => ?_, rfl⟩
  rw [RoutingEntry.best?, hnone] at hbest
  cases hbest

end

/-! ## Neighbors in one place -/

/-- A neighbor is where a destination is if it takes part, its position is known, and it is the
destination or at no distance from it. -/
def IsAt (neighbors : AdjacencyTable Quantity) (m : TopologyMap Quantity)
    (destination n : Name) : Prop :=
  ∃ a position target, neighbors.find? n = some a ∧ a.status = .active ∧
    m.coordinates[n]? = some position ∧ m.coordinates[destination]? = some target ∧
    (n = destination ∨ hyperbolicDistance? position target = some (number 0))

section
variable {neighbors : AdjacencyTable Quantity} (hfiled : neighbors.Filed)
  {m : TopologyMap Quantity} {destination n : Name} {target : Coordinate Quantity}
  (htarget : m.coordinates[destination]? = some target)
include hfiled htarget

/-- Such neighbors are the ways that cost nothing. -/
theorem isAt_iff : IsAt neighbors m destination n ↔
    ⟨n, number 0⟩ ∈ (locatedNeighbors neighbors m).filterMap (greedyHop? destination target) := by
  rw [List.mem_filterMap]
  constructor
  · rintro ⟨a, position, _, hfind, hactive, hposition, htarget', hat⟩
    rw [htarget, Option.some_inj] at htarget'
    subst htarget'
    refine ⟨(n, position), (mem_locatedNeighbors hfiled m).2 ⟨a, hfind, hactive, hposition⟩, ?_⟩
    rcases hat with rfl | hdistance
    · rw [greedyHop?, if_pos rfl, Quantity.zero_eq]
    · unfold greedyHop?
      split
      · rw [Quantity.zero_eq]
      · rw [hdistance]
        rfl
  · rintro ⟨⟨k, position⟩, hmem, hhop⟩
    obtain rfl : n = k := neighbor_greedyHop? hhop
    obtain ⟨a, hfind, hactive, hposition⟩ := (mem_locatedNeighbors hfiled m).1 hmem
    obtain ⟨x, -, hcost, hat⟩ := cost_greedyHop? hhop
    obtain rfl : 0 = x := Quantity.number.inj hcost
    exact ⟨a, position, target, hfind, hactive, hposition, htarget, hat.1 rfl⟩

/-- If any neighbor is where the destination is, one of those has the lowest name. -/
theorem IsAt.exists_lowest (h : IsAt neighbors m destination n) :
    ∃ low, IsAt neighbors m destination low ∧
      ∀ k, IsAt neighbors m destination k → (compare low k).isLE := by
  have hsorted := pairwise_greedyHops hfiled m destination target
  have hfound : (((locatedNeighbors neighbors m).filterMap (greedyHop? destination target)).find?
      fun hop => hop.cost == number 0).isSome :=
    List.find?_isSome.2 ⟨_, (isAt_iff hfiled htarget).1 h, Quantity.beq_number_iff.2 rfl⟩
  obtain ⟨⟨low, cost⟩, hlow⟩ := Option.isSome_iff_exists.1 hfound
  obtain ⟨hcost, before, after, hhops, hbefore⟩ := List.find?_eq_some_iff_append.1 hlow
  obtain rfl : cost = number 0 := Quantity.beq_number_iff.1 hcost
  rw [hhops] at hsorted
  refine ⟨low, (isAt_iff hfiled htarget).2 (by simp [hhops]), fun k hk => ?_⟩
  have hmem := (isAt_iff hfiled htarget).1 hk
  rw [hhops, List.mem_append, List.mem_cons] at hmem
  rcases hmem with hmem | heq | hmem
  · have hne := hbefore _ hmem
    rw [Quantity.beq_number_iff.2 rfl] at hne
    cases hne
  · cases heq
    exact Std.ReflOrd.isLE_rfl
  · have hbehind := (List.pairwise_append.1 hsorted).2.1
    exact Ordering.isLE_of_eq_lt ((List.pairwise_cons.1 hbehind).1 _ hmem)

/-- The lowest of the neighbors where the destination is offers the best way. -/
theorem IsAt.best?_greedyEntry (h : IsAt neighbors m destination n)
    (hlow : ∀ k, IsAt neighbors m destination k → (compare n k).isLE) :
    (greedyEntry (locatedNeighbors neighbors m) destination target).best? =
      some ⟨n, number 0⟩ := by
  have hsorted := pairwise_greedyHops hfiled m destination target
  obtain ⟨before, after, hhops⟩ := List.append_of_mem ((isAt_iff hfiled htarget).1 h)
  have hnonneg : ∀ hop ∈ before ++ ⟨n, number 0⟩ :: after, ∃ x, 0 ≤ x ∧ hop.cost = number x := by
    intro hop hmem
    rw [← hhops] at hmem
    obtain ⟨neighbor, -, hhop⟩ := List.mem_filterMap.1 hmem
    obtain ⟨x, hx, hcost, -⟩ := cost_greedyHop? hhop
    exact ⟨x, hx, hcost⟩
  rw [hhops] at hsorted
  refine AdaptiveRouting.best?_greedyEntry hhops ?_ (fun hop hmem hle => ?_) (fun hop hmem => ?_)
  · refine List.pairwise_map.2 (hsorted.imp fun hlt heq => ?_)
    rw [heq, Std.ReflOrd.compare_self] at hlt
    cases hlt
  · -- a way before it that costs nothing is that of a lower name
    obtain ⟨x, hx, hcost⟩ := hnonneg hop (List.mem_append_left _ hmem)
    rw [hcost] at hle
    obtain rfl : x = 0 := le_antisymm (decide_eq_true_iff.1 hle) hx
    have hat : IsAt neighbors m destination hop.neighbor := by
      rw [isAt_iff hfiled htarget, hhops, ← hcost]
      exact List.mem_append_left _ hmem
    have hlt := (List.pairwise_append.1 hsorted).2.2 hop hmem _ (List.mem_cons_self ..)
    have hle := hlow _ hat
    rw [Std.OrientedCmp.gt_of_lt hlt] at hle
    cases hle
  · obtain ⟨x, hx, hcost⟩ := hnonneg hop (by simp [hmem])
    rw [hcost]
    exact decide_eq_true hx

end

/-- **A neighbor in the place of the destination is preferred.** In hyperbolic routing every active
neighbor whose position is known has one entry, its best hop costs nothing, and it is the lowest
name among the neighbors that are where the destination is: the destination itself, unless the name
of another neighbor at no distance from it comes first. -/
theorem neighbor_in_place_preferred {neighbors : AdjacencyTable Quantity}
    (hfiled : neighbors.Filed) (m : TopologyMap Quantity) {source destination : Name}
    {a : Adjacency Quantity} {target : Coordinate Quantity}
    (hfind : neighbors.find? destination = some a) (hactive : a.status = .active)
    (htarget : m.coordinates[destination]? = some target) (hsource : destination ≠ source) :
    ∃ entry ∈ hyperbolicRoutes neighbors source m, entry.destination = destination ∧
      (∀ e ∈ hyperbolicRoutes neighbors source m, e.destination = destination → e = entry) ∧
      ∃ low, entry.best? = some ⟨low, 0.0⟩ ∧ IsAt neighbors m destination low ∧
        (∀ n, IsAt neighbors m destination n → (compare low n).isLE) ∧
        (low = destination ↔
          ∀ n, IsAt neighbors m destination n → (compare destination n).isLE) := by
  have hdirect : IsAt neighbors m destination destination :=
    ⟨a, target, target, hfind, hactive, htarget, htarget, .inl rfl⟩
  obtain ⟨low, hat, hlow⟩ := hdirect.exists_lowest hfiled htarget
  have hbest := hat.best?_greedyEntry hfiled htarget hlow
  refine ⟨_, greedyEntry_mem htarget hsource hbest, RoutingEntry.destination_foldl_add _ _,
    fun _ => eq_greedyEntry htarget, low, ?_, hat, hlow, fun heq => heq ▸ hlow, fun hfirst => ?_⟩
  · rw [hbest, Quantity.zero_eq]
  · exact Std.LawfulEqCmp.eq_of_compare
      (Std.OrientedCmp.isLE_antisymm (hlow _ hdirect) (hfirst _ hat))

namespace SamePlace

/-- The router itself. -/
def here : Name := { components := ["cedar"] }

/-- The neighbor with the lower name. -/
def first : Name := { components := ["ash"] }

/-- The neighbor with the higher name. -/
def second : Name := { components := ["beech"] }

/-- Where both are. -/
noncomputable def place : Coordinate Quantity := ⟨number 1, [number 0]⟩

noncomputable def adjacency (n : Name) : Adjacency Quantity := ⟨n, .active, number 1, number 1, 0⟩

noncomputable def neighbors : AdjacencyTable Quantity :=
  .ofList [adjacency first, adjacency second]

noncomputable def map : TopologyMap Quantity :=
  { TopologyMap.empty .coordinate with
    coordinates := ((∅ : NameMap _).insert first place).insert second place }

/-- The distance of a place to itself is zero. -/
theorem hyperbolicDistance?_place : hyperbolicDistance? place place = some (number 0) :=
  hyperbolicDistance?_self (List.cons_ne_nil 0 [])

/-- The first neighbor is where both are, and no neighbor that is there has a lower name. -/
theorem isAt_first {destination : Name} (h : map.coordinates[destination]? = some place) :
    IsAt neighbors map destination first ∧
      ∀ n, IsAt neighbors map destination n → (compare first n).isLE := by
  refine ⟨⟨adjacency first, place, place, rfl, rfl, rfl, h, .inr hyperbolicDistance?_place⟩, ?_⟩
  rintro n ⟨a, -, -, hfind, -⟩
  have hname : n = second ∨ n = first := by
    change ((((∅ : NameMap _).insert first (adjacency first)).insert second
      (adjacency second)))[n]? = some a at hfind
    rw [Std.ExtTreeMap.getElem?_insert, Std.ExtTreeMap.getElem?_insert] at hfind
    split at hfind
    · next heq => exact .inl (Std.LawfulEqCmp.eq_of_compare heq).symm
    · split at hfind
      · next heq => exact .inr (Std.LawfulEqCmp.eq_of_compare heq).symm
      · simp at hfind
  rcases hname with rfl | rfl <;> decide

/-- Towards the second neighbor the best hop is the first one, and not the neighbor itself. -/
theorem best_hop_first : (neighbors.find? second).map (·.status) = some .active ∧
    map.coordinates[second]? = some place ∧ second ≠ here ∧
    (∃ e ∈ hyperbolicRoutes neighbors here map, e.destination = second) ∧
    ∀ e ∈ hyperbolicRoutes neighbors here map, e.destination = second →
      e.best? = some ⟨first, number 0⟩ ∧ first ≠ second := by
  have hplace : map.coordinates[second]? = some place := rfl
  have hfiled : neighbors.Filed := AdjacencyTable.filed_ofList _
  have hbest : (greedyEntry (locatedNeighbors neighbors map) second place).best? =
      some ⟨first, number 0⟩ :=
    (isAt_first hplace).1.best?_greedyEntry hfiled hplace (isAt_first hplace).2
  have hne : second ≠ here := by decide
  refine ⟨rfl, hplace, hne,
    ⟨_, greedyEntry_mem hplace hne hbest, RoutingEntry.destination_foldl_add _ _⟩,
    fun e he hdestination => ⟨?_, by decide⟩⟩
  rw [eq_greedyEntry hplace he hdestination, hbest]

/-- Towards the first neighbor the best hop is that neighbor. -/
theorem preferred_first : neighbors.Filed ∧
    neighbors.find? first = some (adjacency first) ∧ (adjacency first).status = .active ∧
    map.coordinates[first]? = some place ∧ first ≠ here ∧
    ∃ entry ∈ hyperbolicRoutes neighbors here map, entry.destination = first ∧
      entry.best? = some ⟨first, 0.0⟩ := by
  have hfiled : neighbors.Filed := AdjacencyTable.filed_ofList _
  have hplace : map.coordinates[first]? = some place := rfl
  have hne : first ≠ here := by decide
  obtain ⟨entry, hmem, hdestination, -, low, hbest, -, -, hself⟩ :=
    neighbor_in_place_preferred hfiled map (a := adjacency first) rfl rfl hplace hne
  obtain rfl : low = first := hself.2 (isAt_first hplace).2
  exact ⟨hfiled, rfl, rfl, hplace, hne, entry, hmem, hdestination, hbest⟩

end SamePlace

end AdaptiveRouting
