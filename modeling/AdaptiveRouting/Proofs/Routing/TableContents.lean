import AdaptiveRouting.Routing.Hyperbolic
import AdaptiveRouting.Routing.ShortestPath
import Mathlib.Data.List.Chain
import Mathlib.Data.List.Nodup

/-!
# The table lists the routes that it is given

Routes enter the table hop by hop, and every hop is put in its place by cost. An entry whose hops
are in order already, cheapest first and with no neighbor twice (`RoutingEntry.InOrder`), comes out
as it went in (`RoutingEntry.InOrder.settled`), and the table lists the entries by destination. So
it lists exactly the routes that it is given whenever these are in such a form (`listed_replace`),
which is the form that both kinds of routes have (`linkStateRoutes_tabular`,
`hyperbolicRoutes_tabular`).

Hops are compared in a total order, and nothing but totality is asked of it: two hops of different
costs may precede each other, and the sort leaves them as they are.
-/

namespace AdaptiveRouting

variable {α : Type} [Scalar α]

/-! ## Entries -/

namespace RoutingEntry

/-- Cheapest first. -/
def CheapestFirst (hops : List (NextHop α)) : Prop :=
  hops.IsChain fun a b => Scalar.totalLE a.cost b.cost = true

/-- The hops stand cheapest first, with no neighbor twice. -/
structure InOrder (e : RoutingEntry α) : Prop where
  cheapestFirst : CheapestFirst e.hops
  once : (e.hops.map (·.neighbor)).Nodup

variable {hops : List (NextHop α)} {hop : NextHop α} {e : RoutingEntry α}

omit [Scalar α] in
/-- A hop through a new neighbor is put at the end. -/
theorem place_of_new (h : hop.neighbor ∉ hops.map (·.neighbor)) :
    place hop hops = hops ++ [hop] := by
  induction hops with
  | nil => rfl
  | cons k rest ih =>
    obtain ⟨hk, hrest⟩ : hop.neighbor ≠ k.neighbor ∧ hop.neighbor ∉ rest.map (·.neighbor) := by
      simpa using h
    rw [place, if_neg (Ne.symm hk), ih hrest, List.cons_append]

omit [Scalar α] in
/-- A hop takes the place of the one through the same neighbor, or a new place at the end. -/
theorem neighbors_place (hop : NextHop α) (hops : List (NextHop α)) :
    (place hop hops).map (·.neighbor) = hops.map (·.neighbor) ∨
    hop.neighbor ∉ hops.map (·.neighbor) ∧
      (place hop hops).map (·.neighbor) = hops.map (·.neighbor) ++ [hop.neighbor] := by
  induction hops with
  | nil => exact .inr ⟨by simp, rfl⟩
  | cons k rest ih =>
    unfold place
    split
    · exact .inl rfl
    · next hk =>
      rcases ih with hsame | ⟨hnew, hadded⟩
      · exact .inl (by simp [hsame])
      · exact .inr ⟨by simpa [Ne.symm hk] using hnew, by simp [hadded]⟩

/-- Nothing is lost or added when a hop is sorted in. -/
theorem perm_insertByCost (hop : NextHop α) (hops : List (NextHop α)) :
    (insertByCost hop hops).Perm (hop :: hops) := by
  induction hops with
  | nil => exact .refl _
  | cons k rest ih =>
    unfold insertByCost
    split
    · exact .refl _
    · exact (ih.cons k).trans (.swap hop k rest)

/-- Sorting loses and adds no hops. -/
theorem perm_sortByCost (hops : List (NextHop α)) : (sortByCost hops).Perm hops := by
  induction hops with
  | nil => exact .refl _
  | cons k rest ih => exact (perm_insertByCost k _).trans (ih.cons k)

/-- What is in order stays as it is. -/
theorem sortByCost_of_cheapestFirst (h : CheapestFirst hops) : sortByCost hops = hops := by
  induction hops with
  | nil => rfl
  | cons k rest ih =>
    have hrest : sortByCost rest = rest := ih h.tail
    show insertByCost k (sortByCost rest) = k :: rest
    rw [hrest]
    cases rest with
    | nil => rfl
    | cons l rest => rw [insertByCost, if_pos (List.isChain_cons_cons.1 h).1]

/-- An entry in order is put together from its own hops. -/
theorem InOrder.settled (h : e.InOrder) : e.hops.foldl add (unreachable e.destination) = e := by
  -- the hops so far are a first part of the entry, and the next one goes behind them
  have hfold : ∀ later before : List (NextHop α), CheapestFirst (before ++ later) →
      ((before ++ later).map (·.neighbor)).Nodup →
      later.foldl add ⟨e.destination, before⟩ = ⟨e.destination, before ++ later⟩ := by
    intro later
    induction later with
    | nil => simp
    | cons hop later ih =>
      intro before hfirst honce
      have hnew : hop.neighbor ∉ before.map (·.neighbor) := by
        rw [List.map_append, List.nodup_append] at honce
        intro hmem
        exact honce.2.2 _ hmem _ (by simp) rfl
      have hbefore : CheapestFirst (before ++ [hop]) := by
        rw [List.append_cons] at hfirst
        exact hfirst.left_of_append
      have hadd : add ⟨e.destination, before⟩ hop = ⟨e.destination, before ++ [hop]⟩ := by
        rw [add, place_of_new hnew, sortByCost_of_cheapestFirst hbefore]
      rw [List.foldl_cons, hadd, ih _ (by rwa [← List.append_cons]) (by rwa [← List.append_cons]),
        ← List.append_cons]
  exact hfold e.hops [] h.cheapestFirst h.once

/-- No hops are in order. -/
theorem inOrder_unreachable (destination : Name) :
    (unreachable destination : RoutingEntry α).InOrder := ⟨.nil, .nil⟩

section
variable (htotal : ∀ x y : α, Scalar.totalLE x y = true ∨ Scalar.totalLE y x = true)
include htotal

/-- A hop that is sorted in leaves the cheapest first. -/
theorem cheapestFirst_insertByCost (h : CheapestFirst hops) :
    CheapestFirst (insertByCost hop hops) := by
  induction hops with
  | nil => exact .singleton _
  | cons k rest ih =>
    unfold insertByCost
    split
    · next hle => exact .cons_cons hle h
    · next hle =>
      have hk : Scalar.totalLE k.cost hop.cost = true := (htotal _ _).resolve_left hle
      have hrest := ih h.tail
      cases rest with
      | nil => exact .cons_cons hk (.singleton _)
      | cons l rest =>
        unfold insertByCost at hrest ⊢
        split at hrest
        · next hl => rw [if_pos hl]; exact .cons_cons hk hrest
        · next hl => rw [if_neg hl]; exact .cons_cons (List.isChain_cons_cons.1 h).1 hrest

/-- Sorted hops stand cheapest first. -/
theorem cheapestFirst_sortByCost (hops : List (NextHop α)) : CheapestFirst (sortByCost hops) := by
  induction hops with
  | nil => exact .nil
  | cons k rest ih => exact cheapestFirst_insertByCost htotal ih

/-- A hop that is added leaves the entry in order. -/
theorem InOrder.add (h : e.InOrder) (hop : NextHop α) : (e.add hop).InOrder where
  cheapestFirst := cheapestFirst_sortByCost htotal _
  once := by
    refine ((perm_sortByCost _).map _).nodup_iff.2 ?_
    rcases neighbors_place hop e.hops with hsame | ⟨hnew, hadded⟩
    · rw [hsame]
      exact h.once
    · rw [hadded]
      exact List.nodup_append.2 ⟨h.once, by simp, by grind⟩

/-- Adding hops keeps an entry in order. -/
theorem InOrder.foldl_add (h : e.InOrder) (hops : List (NextHop α)) :
    (hops.foldl RoutingEntry.add e).InOrder := by
  induction hops generalizing e with
  | nil => exact h
  | cons hop hops ih => exact ih (h.add htotal hop)

end

/-- Adding hops does not change the destination. -/
theorem destination_foldl_add (e : RoutingEntry α) (hops : List (NextHop α)) :
    (hops.foldl add e).destination = e.destination := by
  induction hops generalizing e with
  | nil => rfl
  | cons hop hops ih => exact ih (e.add hop)

end RoutingEntry

/-! ## Tables -/

/-- Entries as a table lists them: by destination, and each in order. -/
structure Tabular (entries : List (RoutingEntry α)) : Prop where
  byDestination : entries.Pairwise fun a b => compare a.destination b.destination = .lt
  inOrder : ∀ e ∈ entries, e.InOrder

variable {entries : List (RoutingEntry α)}

/-- What is found once entries have been taken in, of which none was there before. -/
theorem getElem?_foldl_merge (h : Tabular entries) {r : Routes α}
    (hnew : ∀ e ∈ entries, r[e.destination]? = none) (k : Name) (e : RoutingEntry α) :
    (entries.foldl Routes.merge r)[k]? = some e ↔
      e ∈ entries ∧ e.destination = k ∨ r[k]? = some e := by
  induction entries generalizing r with
  | nil => simp
  | cons first rest ih =>
    obtain ⟨hfirst, hrest⟩ := List.pairwise_cons.1 h.byDestination
    obtain ⟨hnone, hnew⟩ := List.forall_mem_cons.1 hnew
    -- The destination is new, so its entry starts from nothing, and an entry in order settles as it
    -- is.
    have hmerge : r.merge first = r.insert first.destination first := by
      have hentry : r.entry first.destination = .unreachable first.destination := by
        simp [Routes.entry, hnone]
      rw [Routes.merge, hentry, (h.inOrder first (by simp)).settled]
    rw [List.foldl_cons, hmerge, ih ⟨hrest, fun e he => h.inOrder e (by simp [he])⟩]
    · rw [Std.ExtTreeMap.getElem?_insert]
      by_cases hk : first.destination = k
      · subst hk
        simp only [Std.ReflCmp.compare_self, if_true, Option.some.injEq, hnone, List.mem_cons]
        grind
      · simp only [Std.LawfulEqCmp.compare_eq_iff_eq, hk, if_false, List.mem_cons]
        grind
    · intro e he
      have hne : first.destination ≠ e.destination := by
        intro heq
        have := hfirst e he
        simp [heq] at this
      simp [Std.ExtTreeMap.getElem?_insert, hne, hnew e he]

/-- **The table lists what it is given**, if that is in the form of a table. -/
theorem listed_replace (h : Tabular entries) (t : RoutingTable α) :
    (t.replace entries).live.listed = entries := by
  -- Both lists are strictly ordered by destination, so it is enough that they hold the same pairs.
  have hpairs :
      (entries.foldl Routes.merge ∅).toList = entries.map fun e => (e.destination, e) := by
    have hirrefl : ∀ {β : Type} {a b : Name × β}, compare a.1 b.1 = .lt → a ≠ b := by
      rintro β a _ hlt rfl
      simp at hlt
    have hleft : (entries.foldl Routes.merge ∅).toList.Pairwise fun a b =>
        compare a.1 b.1 = .lt := Std.ExtTreeMap.ordered_keys_toList
    have hright : (entries.map fun e => (e.destination, e)).Pairwise fun a b =>
        compare a.1 b.1 = .lt := List.pairwise_map.2 h.byDestination
    refine List.Perm.eq_of_pairwise (fun a b _ _ hab hba => ?_) hleft hright
      ((List.perm_ext_iff_of_nodup (hleft.imp hirrefl) (hright.imp hirrefl)).2 ?_)
    · have := Std.OrientedCmp.gt_of_lt hab
      rw [hba] at this
      cases this
    · rintro ⟨k, e⟩
      rw [Std.ExtTreeMap.mem_toList_iff_getElem?_eq_some, getElem?_foldl_merge h (by simp)]
      simp only [List.mem_map, Prod.mk.injEq]
      constructor
      · rintro (⟨he, rfl⟩ | hnone)
        · exact ⟨e, he, rfl, rfl⟩
        · simp at hnone
      · rintro ⟨_, he, rfl, rfl⟩
        exact .inl ⟨he, rfl⟩
  unfold RoutingTable.replace Routes.listed
  rw [hpairs, List.map_map]
  exact List.map_id _

/-- Link-state routes can stand in a table. -/
theorem linkStateRoutes_tabular (source : Name) (m : TopologyMap α) :
    Tabular (linkStateRoutes source m) := by
  unfold linkStateRoutes
  split
  · refine ⟨List.pairwise_map.2 Std.ExtTreeMap.ordered_keys_toList, ?_⟩
    intro e he
    obtain ⟨⟨t, hop⟩, -, rfl⟩ := List.mem_map.1 he
    -- there is one hop at most
    unfold routeVia
    cases (distances m source)[t]? with
    | none => exact RoutingEntry.inOrder_unreachable t
    | some cost => exact ⟨.singleton _, List.nodup_singleton _⟩
  · exact ⟨.nil, by simp⟩

/-- Hyperbolic routes can stand in a table if their costs are in a total order. -/
theorem hyperbolicRoutes_tabular
    (htotal : ∀ x y : α, Scalar.totalLE x y = true ∨ Scalar.totalLE y x = true)
    (neighbors : AdjacencyTable α) (source : Name) (m : TopologyMap α) :
    Tabular (hyperbolicRoutes neighbors source m) := by
  have hentry : ∀ (c : Name × Coordinate α) e,
      (if c.1 = source ∨ (greedyEntry (locatedNeighbors neighbors m) c.1 c.2).hops.isEmpty then none
        else some (greedyEntry (locatedNeighbors neighbors m) c.1 c.2)) = some e →
      e.destination = c.1 ∧ e.InOrder := by
    intro c e he
    split at he
    · cases he
    · cases he
      exact ⟨RoutingEntry.destination_foldl_add _ _,
        (RoutingEntry.inOrder_unreachable c.1).foldl_add htotal _⟩
  constructor
  · refine List.pairwise_filterMap.2 (Std.ExtTreeMap.ordered_keys_toList.imp ?_)
    intro c c' hlt e he e' he'
    rw [(hentry c e he).1, (hentry c' e' he').1]
    exact hlt
  · intro e he
    obtain ⟨c, -, hc⟩ := List.mem_filterMap.1 he
    exact (hentry c e hc).2

end AdaptiveRouting
