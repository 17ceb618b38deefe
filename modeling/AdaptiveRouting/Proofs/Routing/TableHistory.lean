import AdaptiveRouting.Proofs.Routing.TableContents

/-!
# What routing tables have been given

However a table is filled, hop by hop or by whole lists of entries, what it holds depends on one
thing alone: the entries that it was given since it was last replaced or cleared, a single hop
counting as an entry with that hop (`live_after`, `dryRun_after`). A destination is in the table exactly
if one of them names it, and its hops are those offered for it, of which the last one through each
neighbor stands (`mem_foldl_add_iff`), with the cheapest in front (`Routes.Holds`).

Since every entry is in order, a table that is given what it lists stays as it is
(`Routes.Orderly.ofGiven_listed`).
-/

namespace AdaptiveRouting

variable {α : Type}

/-! ## Calls -/

/-- What can be done to a routing table. -/
inductive TableCall (α : Type) where
  | addHop (destination : Name) (hop : NextHop α)
  | replace (entries : List (RoutingEntry α))
  | replaceDryRun (entries : List (RoutingEntry α))
  | clear
  | clearDryRun

namespace TableCall

/-- What the table in force has been given since it was last replaced or cleared. -/
def givenLive (given : List (RoutingEntry α)) : TableCall α → List (RoutingEntry α)
  | addHop destination hop => given ++ [⟨destination, [hop]⟩]
  | replace entries => entries
  | replaceDryRun _ => given
  | clear => []
  | clearDryRun => given

/-- What the table of the dry run has been given since it was last replaced or cleared. -/
def givenDryRun (given : List (RoutingEntry α)) : TableCall α → List (RoutingEntry α)
  | addHop _ _ => given
  | replace _ => given
  | replaceDryRun entries => entries
  | clear => []
  | clearDryRun => []

end TableCall

/-- The hops that entries offer for a destination. -/
def hopsTo (destination : Name) (entries : List (RoutingEntry α)) : List (NextHop α) :=
  (entries.filter fun e => e.destination = destination).flatMap (·.hops)

/-- There are no hops to a destination without an entry. -/
theorem hopsTo_eq_nil {destination : Name} {entries : List (RoutingEntry α)}
    (h : ¬∃ e ∈ entries, e.destination = destination) : hopsTo destination entries = [] := by
  have hfilter : entries.filter (fun e => e.destination = destination) = [] :=
    List.filter_eq_nil_iff.2 fun e he => by simpa using fun heq => h ⟨e, he, heq⟩
  rw [hopsTo, hfilter, List.flatMap_nil]

/-- The last of the costs that are given for the way through a neighbor. -/
def lastCost? (neighbor : Name) (hops : List (NextHop α)) : Option α :=
  (hops.reverse.find? fun h => h.neighbor = neighbor).map (·.cost)

/-- One more hop gives the last cost of its neighbor. -/
theorem lastCost?_concat (neighbor : Name) (hops : List (NextHop α)) (hop : NextHop α) :
    lastCost? neighbor (hops ++ [hop]) =
      if hop.neighbor = neighbor then some hop.cost else lastCost? neighbor hops := by
  rw [lastCost?, List.reverse_append, List.reverse_singleton, List.singleton_append,
    List.find?_cons]
  by_cases h : hop.neighbor = neighbor <;> simp [h, lastCost?]

variable [Scalar α]

/-! ## From calls to what was given -/

/-- The entries that are made of what was given. -/
def Routes.ofGiven (given : List (RoutingEntry α)) : Routes α := given.foldl Routes.merge ∅

namespace RoutingTable

def perform (t : RoutingTable α) : TableCall α → RoutingTable α
  | .addHop destination hop => t.addHop destination hop
  | .replace entries => t.replace entries
  | .replaceDryRun entries => t.replaceDryRun entries
  | .clear => t.clear
  | .clearDryRun => t.clearDryRun

/-- The table after some calls, empty at first. -/
def after (calls : List (TableCall α)) : RoutingTable α := calls.foldl perform empty

/-- One more call is performed at the end. -/
theorem after_concat (calls : List (TableCall α)) (call : TableCall α) :
    after (calls ++ [call]) = (after calls).perform call := by
  rw [after, List.foldl_append]
  rfl

/-- The table in force is made of what it has been given. -/
theorem live_after (calls : List (TableCall α)) :
    (after calls).live = Routes.ofGiven (calls.foldl TableCall.givenLive []) := by
  induction calls using List.reverseRecOn with
  | nil => rfl
  | append_singleton calls call ih =>
    rw [after_concat, List.foldl_append]
    cases call with
    | addHop destination hop =>
      -- a hop is an entry with one hop
      show (after calls).live.merge ⟨destination, [hop]⟩ = Routes.ofGiven (_ ++ [_])
      rw [ih, Routes.ofGiven, Routes.ofGiven, List.foldl_append]
      rfl
    | replaceDryRun | clearDryRun => exact ih
    | replace | clear => rfl

/-- The table of the dry run is made of what it has been given. -/
theorem dryRun_after (calls : List (TableCall α)) :
    (after calls).dryRun = Routes.ofGiven (calls.foldl TableCall.givenDryRun []) := by
  induction calls using List.reverseRecOn with
  | nil => rfl
  | append_singleton calls call ih =>
    rw [after_concat, List.foldl_append]
    cases call with
    | addHop | replace => exact ih
    | replaceDryRun | clear | clearDryRun => rfl

end RoutingTable

/-! ## From what was given to entries -/

namespace Routes

/-- Merging an entry adds its hops to those for its destination. -/
theorem getElem?_merge (r : Routes α) (e : RoutingEntry α) (k : Name) :
    (r.merge e)[k]? =
      if e.destination = k then some (e.hops.foldl .add (r.entry k)) else r[k]? := by
  rw [merge, Std.ExtTreeMap.getElem?_insert]
  by_cases h : e.destination = k
  · subst h
    simp
  · rw [if_neg (by simpa using h), if_neg h]

/-- The entry of a destination takes in the hops that are offered for it. -/
theorem getElem?_foldl_merge_eq (r : Routes α) (given : List (RoutingEntry α)) (k : Name) :
    (given.foldl merge r)[k]? =
      if ∃ e ∈ given, e.destination = k then some ((hopsTo k given).foldl .add (r.entry k))
      else r[k]? := by
  induction given generalizing r with
  | nil => simp
  | cons e given ih =>
    rw [List.foldl_cons, ih, getElem?_merge, entry, getElem?_merge]
    by_cases hk : e.destination = k
    · -- the hops of this entry come first, whether or not others follow
      have hhops : hopsTo k (e :: given) = e.hops ++ hopsTo k given := by simp [hopsTo, hk]
      rw [if_pos hk, if_pos (by simp [hk] : ∃ e' ∈ e :: given, e'.destination = k), hhops,
        List.foldl_append, Option.getD_some]
      split
      · rfl
      · next hnone => rw [hopsTo_eq_nil hnone, List.foldl_nil]
    · have hhops : hopsTo k (e :: given) = hopsTo k given := by simp [hopsTo, hk]
      simp only [hk, if_false, hhops, List.exists_mem_cons_iff, false_or]
      rfl

end Routes

namespace RoutingEntry

variable {hops : List (NextHop α)} {hop other : NextHop α} {e : RoutingEntry α}

omit [Scalar α] in
/-- A hop takes the place of the one through the same neighbor. -/
theorem mem_place_iff (honce : (hops.map (·.neighbor)).Nodup) :
    other ∈ place hop hops ↔ other = hop ∨ other ∈ hops ∧ other.neighbor ≠ hop.neighbor := by
  induction hops with
  | nil => simp [place]
  | cons k rest ih =>
    obtain ⟨hk, hrest⟩ := List.nodup_cons.1 honce
    unfold place
    split
    · next heq =>
      -- no other hop leads through this neighbor
      have hother : other ∈ rest → other.neighbor ≠ hop.neighbor := fun hmem h =>
        hk (List.mem_map.2 ⟨other, hmem, h.trans heq.symm⟩)
      have hplaced : { k with cost := hop.cost } = hop := by rw [heq]
      rw [hplaced, List.mem_cons, List.mem_cons]
      grind
    · next hne =>
      rw [List.mem_cons, List.mem_cons, ih hrest]
      grind

/-- An added hop takes the place of the one through its neighbor. -/
theorem mem_add_iff (h : e.InOrder) :
    other ∈ (e.add hop).hops ↔ other = hop ∨ other ∈ e.hops ∧ other.neighbor ≠ hop.neighbor :=
  (perm_sortByCost _).mem_iff.trans (mem_place_iff h.once)

/-- Of the hops that are added through a neighbor, the last one stands. -/
theorem mem_foldl_add_iff
    (htotal : ∀ x y : α, Scalar.totalLE x y = true ∨ Scalar.totalLE y x = true)
    (destination : Name) (given : List (NextHop α)) :
    hop ∈ (given.foldl add (unreachable destination)).hops ↔
      lastCost? hop.neighbor given = some hop.cost := by
  induction given using List.reverseRecOn with
  | nil => simp [unreachable, lastCost?]
  | append_singleton given last ih =>
    have horder := (inOrder_unreachable destination).foldl_add htotal given
    rw [List.foldl_append, List.foldl_cons, List.foldl_nil, mem_add_iff horder, ih,
      lastCost?_concat]
    by_cases hn : last.neighbor = hop.neighbor
    · have hsame : hop = last ↔ last.cost = hop.cost :=
        ⟨fun h => by rw [h], fun h => by cases hop; cases last; congr 1; exacts [hn.symm, h.symm]⟩
      simp [hn, hsame]
    · have hne : hop ≠ last := fun h => hn (h ▸ rfl)
      simp [hn, Ne.symm hn, hne]

/-- What an entry keeps of the hops that are offered for its destination: the last cost for every
neighbor, cheapest first. -/
structure Gathers (e : RoutingEntry α) (offered : List (NextHop α)) : Prop where
  once : (e.hops.map (·.neighbor)).Nodup
  cheapestFirst : e.hops.Pairwise fun a b => Scalar.totalLE a.cost b.cost = true
  best : ∀ other ∈ e.hops,
    ∃ hop ∈ e.hops, e.best? = some hop ∧ Scalar.totalLE hop.cost other.cost = true
  standing : ∀ hop, hop ∈ e.hops ↔ lastCost? hop.neighbor offered = some hop.cost

end RoutingEntry

/-! ## Tables in order -/

namespace Routes

/-- A table holds the destinations that it was given, each with the hops that were offered. -/
structure Holds (r : Routes α) (given : List (RoutingEntry α)) : Prop where
  named : ∀ k, k ∈ r ↔ ∃ e ∈ given, e.destination = k
  entries : ∀ k (e : RoutingEntry α), r[k]? = some e → e.destination = k ∧ e.Gathers (hopsTo k given)

/-- Entries stand under their destinations, each in order. -/
def Orderly (r : Routes α) : Prop :=
  ∀ k (e : RoutingEntry α), r[k]? = some e → e.destination = k ∧ e.InOrder

variable {r : Routes α} {given : List (RoutingEntry α)}

/-- The entries that are listed are those of the table. -/
theorem Orderly.mem_listed_iff (h : r.Orderly) {e : RoutingEntry α} :
    e ∈ r.listed ↔ r[e.destination]? = some e := by
  simp only [listed, List.mem_map, Prod.exists, exists_eq_right,
    Std.ExtTreeMap.mem_toList_iff_getElem?_eq_some]
  constructor
  · rintro ⟨k, hk⟩
    rw [(h k e hk).1, hk]
  · exact fun he => ⟨_, he⟩

/-- An orderly table is listed by destination. -/
theorem Orderly.tabular_listed (h : r.Orderly) : Tabular r.listed where
  byDestination := by
    refine List.pairwise_map.2 (Std.ExtTreeMap.ordered_keys_toList.imp_of_mem ?_)
    intro a b ha hb hlt
    rw [Std.ExtTreeMap.mem_toList_iff_getElem?_eq_some] at ha hb
    rwa [(h _ _ ha).1, (h _ _ hb).1]
  inOrder e he := (h _ e (h.mem_listed_iff.1 he)).2

/-- A table is put together from what it lists. -/
theorem Orderly.ofGiven_listed (h : r.Orderly) : ofGiven r.listed = r := by
  refine Std.ExtTreeMap.ext_getElem? fun k => Option.ext fun e => ?_
  rw [ofGiven, getElem?_foldl_merge h.tabular_listed (by simp), h.mem_listed_iff]
  constructor
  · rintro (⟨he, rfl⟩ | hnone)
    · exact he
    · simp at hnone
  · intro he
    have hk : e.destination = k := (h k e he).1
    exact .inl ⟨by rw [hk, he], hk⟩

/-- A destination has an entry if it was given one, with all the hops added up. -/
theorem getElem?_ofGiven (given : List (RoutingEntry α)) (k : Name) :
    (ofGiven given)[k]? = if ∃ e ∈ given, e.destination = k then
      some ((hopsTo k given).foldl .add (.unreachable k)) else none := by
  rw [ofGiven, getElem?_foldl_merge_eq]
  simp [entry]

/-- An entry is what its hops add up to. -/
theorem eq_of_getElem?_ofGiven {k : Name} {e : RoutingEntry α}
    (h : (ofGiven given)[k]? = some e) :
    e = (hopsTo k given).foldl .add (.unreachable k) := by
  rw [getElem?_ofGiven, Option.ite_none_right_eq_some] at h
  exact (Option.some.inj h.2).symm

section
variable (htotal : ∀ x y : α, Scalar.totalLE x y = true ∨ Scalar.totalLE y x = true)
include htotal

/-- A table that is made of entries is orderly. -/
theorem orderly_ofGiven (given : List (RoutingEntry α)) : (ofGiven given).Orderly := by
  rintro k _ he
  rw [eq_of_getElem?_ofGiven he]
  exact ⟨RoutingEntry.destination_foldl_add _ _,
    (RoutingEntry.inOrder_unreachable k).foldl_add htotal _⟩

/-- A table that is made of entries holds them. -/
theorem holds_ofGiven
    (htrans : ∀ x y z : α, Scalar.totalLE x y = true → Scalar.totalLE y z = true →
      Scalar.totalLE x z = true)
    (given : List (RoutingEntry α)) : (ofGiven given).Holds given where
  named k := by
    rw [← Std.ExtTreeMap.isSome_getElem?_iff_mem, getElem?_ofGiven]
    split <;> simp_all
  entries k e he := by
    obtain ⟨hk, horder⟩ := orderly_ofGiven htotal given k e he
    -- The hops are in order one by one; costs in a total order are so altogether.
    have hpairwise : e.hops.Pairwise fun a b => Scalar.totalLE a.cost b.cost = true :=
      haveI : IsTrans (NextHop α) fun a b => Scalar.totalLE a.cost b.cost = true :=
        ⟨fun _ _ _ => htrans _ _ _⟩
      List.isChain_iff_pairwise.1 horder.cheapestFirst
    refine ⟨hk, horder.once, hpairwise, ?_, ?_⟩
    · intro other hother
      unfold RoutingEntry.best?
      cases hhops : e.hops with
      | nil => simp [hhops] at hother
      | cons first rest =>
        rw [hhops] at hother hpairwise
        refine ⟨first, by simp, rfl, ?_⟩
        rcases List.mem_cons.1 hother with rfl | hrest
        · exact (htotal _ _).elim id id
        · exact (List.pairwise_cons.1 hpairwise).1 other hrest
    · intro hop
      rw [eq_of_getElem?_ofGiven he]
      exact RoutingEntry.mem_foldl_add_iff htotal k _

end

end Routes

/-! ## Every table -/

end AdaptiveRouting
