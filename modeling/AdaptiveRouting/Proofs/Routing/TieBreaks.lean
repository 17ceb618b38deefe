import AdaptiveRouting.Proofs.Routing.Forwarding
import Mathlib.Data.List.Sort

/-!
# Which of the cheapest paths is taken

Where several cheapest paths lead to a router, `settleHop` picks the lowest name among the hops that
predecessors have when the router is visited. Routers are visited by distance and name, so a
predecessor has been visited before, unless the link from it costs nothing and leads to a name that
is not higher (`Link.Falls`): its hop then comes too late, unless it was found in an earlier pass.

Hence a router gets its hop in the pass that is counted by the falling links on the way to it, as
few as there can be (`LeastFalling`), and the hop is the lowest name among the first routers of the
cheapest paths that have no more of them (`IsPicked`). What carries the argument is the state in the
middle of a pass (`Picks`): which routers have a hop by then, and that these hops are final.
Equal costs alone do not bring the lowest name to the top (`Sidestep`).
-/

namespace AdaptiveRouting

/-! ## The order of the visits -/

/-- What is first by distance and name comes no later by distance, nor by name at one distance. -/
theorem nearer_iff {α : Type} [Scalar α] {a b : Reached α} : nearer a b ↔
    Scalar.totalLE a.2 b.2 ∧ (Scalar.totalLE b.2 a.2 → (compare a.1 b.1).isLE) := by
  unfold nearer
  split
  · split <;> simp [*]
  · simp [*]

/-- Routers are sorted in as into any ordered list. -/
theorem insertNearer_eq_orderedInsert {α : Type} [Scalar α] (a : Reached α)
    (rs : List (Reached α)) : insertNearer a rs = rs.orderedInsert (fun b c => nearer b c) a := by
  induction rs with
  | nil => rfl
  | cons b rs ih => simp only [insertNearer, List.orderedInsert_cons, ih]

/-- Of two quantities one comes first. -/
theorem Quantity.totalLE_total (a b : Quantity) : Scalar.totalLE a b ∨ Scalar.totalLE b a := by
  cases a <;> cases b <;> simp [Scalar.totalLE, le_total]

/-- The total order of quantities is transitive. -/
theorem Quantity.totalLE_trans {a b c : Quantity} (hab : Scalar.totalLE a b)
    (hbc : Scalar.totalLE b c) : Scalar.totalLE a c := by
  cases a <;> cases b <;> cases c <;> simp_all [Scalar.totalLE]
  exact hab.trans hbc

/-- Of two names one comes first. -/
theorem Name.isLE_total (u v : Name) : (compare u v).isLE ∨ (compare v u).isLE := by
  by_cases h : (compare u v).isLE
  · exact .inl h
  · exact .inr (Ordering.isLE_of_eq_lt (Std.OrientedCmp.lt_of_not_isLE h))

/-- Of two routers one is nearer, or its name comes first. -/
theorem nearer_total (a b : Reached Quantity) : nearer a b ∨ nearer b a := by
  rw [nearer_iff, nearer_iff]
  have htotal := Quantity.totalLE_total a.2 b.2
  by_cases hab : Scalar.totalLE a.2 b.2
  · by_cases hba : Scalar.totalLE b.2 a.2
    · simpa [hab, hba] using Name.isLE_total a.1 b.1
    · exact .inl ⟨hab, fun h => absurd h hba⟩
  · exact .inr ⟨htotal.resolve_left hab, fun h => absurd h hab⟩

/-- To be nearer is transitive. -/
theorem nearer_trans {a b c : Reached Quantity} (hab : nearer a b) (hbc : nearer b c) :
    nearer a c := by
  rw [nearer_iff] at *
  refine ⟨Quantity.totalLE_trans hab.1 hbc.1, fun hca => ?_⟩
  exact Std.TransCmp.isLE_trans (hab.2 (Quantity.totalLE_trans hbc.1 hca))
    (hbc.2 (Quantity.totalLE_trans hca hab.1))

/-- Routers that are listed nearest first, none of them twice. -/
structure NearestFirst (order : List (Reached Quantity)) : Prop where
  /-- What comes first is nearer. -/
  ordered : order.Pairwise fun a b => nearer a b
  /-- No router is listed twice. -/
  nodup : (order.map (·.1)).Nodup

/-- The routers by distance are sorted by insertion. -/
theorem byDistance_eq_insertionSort {α : Type} [Scalar α] (d : NameMap α) (source : Name) :
    byDistance d source =
      (d.toList.filter fun p => p.1 ≠ source).insertionSort fun a b => nearer a b := by
  rw [byDistance, List.insertionSort]
  exact congrArg (fun f => List.foldr f [] _) (funext₂ insertNearer_eq_orderedInsert)

/-- Every router but the source is in the order by distance. -/
theorem perm_byDistance {α : Type} [Scalar α] (d : NameMap α) (source : Name) :
    (byDistance d source).Perm (d.toList.filter fun p => p.1 ≠ source) :=
  byDistance_eq_insertionSort d source ▸ List.perm_insertionSort ..

/-- The order by distance has the nearest first. -/
theorem nearestFirst_byDistance (d : NameMap Quantity) (source : Name) :
    NearestFirst (byDistance d source) := by
  let r : Reached Quantity → Reached Quantity → Prop := fun a b => nearer a b
  have : Std.Total r := ⟨nearer_total⟩
  have : IsTrans _ r := ⟨fun _ _ _ => nearer_trans⟩
  have hnodup : (d.toList.map (·.1)).Nodup := by
    rw [Std.ExtTreeMap.map_fst_toList_eq_keys]
    exact Std.ExtTreeMap.nodup_keys
  refine ⟨byDistance_eq_insertionSort d source ▸ List.pairwise_insertionSort r _, ?_⟩
  rw [((perm_byDistance d source).map _).nodup_iff]
  exact hnodup.sublist (List.filter_sublist.map _)

/-! ## Falling links -/

/-- A link that costs nothing and leads to no higher name: the router at its end is not visited
after the one at its start. -/
def Link.Falls (l : Link Quantity) : Prop := l.cost = .number 0 ∧ (compare l.target l.source).isLE

/-- A path that does not come back to the source, with the router behind the source, its cost, and
the number of the links behind the first one that fall. -/
inductive Tour (links : List (Link Quantity)) (source hop : Name) :
    Name → Quantity → Nat → Prop where
  | first {l : Link Quantity} : l ∈ links → l.source = source → l.target = hop → hop ≠ source →
      Tour links source hop hop (0.0 + l.cost) 0
  | rise {middle : Name} {cost : Quantity} {falls : Nat} {l : Link Quantity} :
      Tour links source hop middle cost falls → l ∈ links → l.source = middle →
      l.target ≠ source → ¬ l.Falls → Tour links source hop l.target (cost + l.cost) falls
  | fall {middle : Name} {cost : Quantity} {falls : Nat} {l : Link Quantity} :
      Tour links source hop middle cost falls → l ∈ links → l.source = middle →
      l.target ≠ source → l.Falls → Tour links source hop l.target (cost + l.cost) (falls + 1)

/-- The router is the first one on a cheapest path with so many falling links. -/
def BeginsCheapest (links : List (Link Quantity)) (source t hop : Name) (falls : Nat) : Prop :=
  ∃ c, IsLeastCost links source t c ∧ Tour links source hop t c falls

/-- As few falling links as there can be on a cheapest path. -/
structure LeastFalling (links : List (Link Quantity)) (source t : Name) (falls : Nat) : Prop where
  reached : ∃ hop, BeginsCheapest links source t hop falls
  le {hop : Name} {falls' : Nat} : BeginsCheapest links source t hop falls' → falls ≤ falls'

/-- The lowest name among the first routers of the cheapest paths that have as few falling links as
there can be. -/
def IsPicked (links : List (Link Quantity)) (source t hop : Name) : Prop :=
  ∃ falls, LeastFalling links source t falls ∧ BeginsCheapest links source t hop falls ∧
    ∀ hop', BeginsCheapest links source t hop' falls → (compare hop hop').isLE

section
variable {links : List (Link Quantity)} {source t hop : Name} {c : Quantity} {falls : Nat}

/-- A tour is a path through its first router. -/
theorem Tour.pathVia (h : Tour links source hop t c falls) : PathVia links source hop t c := by
  induction h with
  | first hl hs ht _ => exact .first hl hs ht
  | rise _ hl hm _ _ ih => exact ih.step hl hm
  | fall _ hl hm _ _ ih => exact ih.step hl hm

/-- A tour does not end at the source. -/
theorem Tour.ne_source (h : Tour links source hop t c falls) : t ≠ source := by
  cases h <;> assumption

/-- A path through a router is a path. -/
theorem PathVia.path (h : PathVia links source hop t c) : Path links source t c := by
  induction h with
  | first hl hs ht => exact ht ▸ Path.here.step hl hs
  | step _ hl hm ih => exact ih.step hl hm

/-- There is one least number of falling links. -/
theorem LeastFalling.unique {falls' : Nat} (h : LeastFalling links source t falls)
    (h' : LeastFalling links source t falls') : falls = falls' := by
  obtain ⟨_, hb⟩ := h.reached
  obtain ⟨_, hb'⟩ := h'.reached
  exact Nat.le_antisymm (h.le hb') (h'.le hb)

/-- Where there is a cheapest path, there is one with the fewest falling links. -/
theorem BeginsCheapest.exists_leastFalling (h : BeginsCheapest links source t hop falls) :
    ∃ least ≤ falls, LeastFalling links source t least := by
  classical
  have hex : ∃ n, ∃ hop, BeginsCheapest links source t hop n := ⟨falls, hop, h⟩
  exact ⟨Nat.find hex, Nat.find_min' hex ⟨hop, h⟩, Nat.find_spec hex,
    fun hb => Nat.find_min' hex ⟨_, hb⟩⟩

/-- A cheapest path is cheapest up to its last link. -/
theorem IsLeastCost.of_step {l : Link Quantity} (hlinks : NonnegativeLinks links)
    (h : IsLeastCost links source l.target (c + l.cost)) (hp : Path links source l.source c)
    (hl : l ∈ links) : IsLeastCost links source l.source c := by
  refine ⟨hp, fun {c'} hc' => ?_⟩
  obtain ⟨x, -, rfl⟩ := Quantity.zero_le_iff.1 (hp.nonneg hlinks)
  obtain ⟨y, -, rfl⟩ := Quantity.zero_le_iff.1 (hc'.nonneg hlinks)
  obtain ⟨z, -, hz⟩ := Quantity.zero_le_iff.1 (hlinks l hl)
  simpa [hz] using h.le (hc'.step hl rfl)

end

/-! ## Links at exactly the distance -/

/-- A link whose end is farther than its start by exactly its cost. -/
def Tight (d : NameMap Quantity) (l : Link Quantity) : Prop :=
  ∃ near, d[l.source]? = some near ∧ d[l.target]? = some (near + l.cost)

section
variable {links : List (Link Quantity)} {source t hop : Name} {d : NameMap Quantity}
  {hops : NameMap Name} {falls : Nat} {l : Link Quantity}

/-- A hop is handed on over tight links, and begins at those of the source. -/
theorem handedOn_iff (hlinks : NonnegativeLinks links) (hd : IsDistanceTable links source d)
    (hl : l ∈ links) {r : Reached Quantity} (hr : d[r.1]? = some r.2) :
    handedOn d source hops r l = some hop ↔ l.target = r.1 ∧ Tight d l ∧
      if l.source = source then r.1 = hop else hops[l.source]? = some hop := by
  rw [handedOn_eq_some_iff]
  refine and_congr_right fun ht => ?_
  rw [Tight, ht, hr]
  constructor
  · rintro ⟨near, hnear, hsum, hhop⟩
    have hsum0 := PathArithmetic.add_nonneg ((hd.least hnear).path.nonneg hlinks) (hlinks l hl)
    rw [PathArithmetic.beq_iff_eq hsum0 ((hd.least hr).path.nonneg hlinks)] at hsum
    exact ⟨⟨near, hnear, congrArg some hsum.symm⟩, hhop⟩
  · rintro ⟨⟨near, hnear, hsum⟩, hhop⟩
    have hr0 := (hd.least hr).path.nonneg hlinks
    refine ⟨near, hnear, ?_, hhop⟩
    rw [← Option.some.inj hsum]
    exact (PathArithmetic.beq_iff_eq hr0 hr0).2 rfl

/-- A tight link from the source begins a cheapest path. -/
theorem Tight.beginsCheapest (hlinks : NonnegativeLinks links)
    (hd : IsDistanceTable links source d) (h : Tight d l) (hl : l ∈ links)
    (hs : l.source = source) (hne : l.target ≠ source) :
    BeginsCheapest links source l.target l.target 0 := by
  obtain ⟨near, hnear, hfar⟩ := h
  have hzero : near = 0.0 :=
    (hd.least (hs ▸ hnear)).unique hlinks (isLeastCost_source hlinks)
  subst hzero
  exact ⟨_, hd.least hfar, .first hl hs rfl hne⟩

/-- A tight link prolongs a cheapest path. -/
theorem BeginsCheapest.step (hlinks : NonnegativeLinks links)
    (hd : IsDistanceTable links source d) (h : BeginsCheapest links source l.source hop falls)
    (hl : l ∈ links) (htight : Tight d l) (hne : l.target ≠ source) :
    (¬ l.Falls → BeginsCheapest links source l.target hop falls) ∧
    (l.Falls → BeginsCheapest links source l.target hop (falls + 1)) := by
  obtain ⟨c, hc, htour⟩ := h
  obtain ⟨near, hnear, hfar⟩ := htight
  obtain rfl := hc.unique hlinks (hd.least hnear)
  exact ⟨fun hfalls => ⟨_, hd.least hfar, htour.rise hl rfl hne hfalls⟩,
    fun hfalls => ⟨_, hd.least hfar, htour.fall hl rfl hne hfalls⟩⟩

/-- The last link of a cheapest path: it leads from the source, or from a router to which the rest
of the path is a cheapest one. -/
theorem BeginsCheapest.last (hlinks : NonnegativeLinks links)
    (hd : IsDistanceTable links source d) (h : BeginsCheapest links source t hop falls) :
    ∃ l ∈ links, l.target = t ∧ Tight d l ∧
      ((l.source = source ∧ hop = t) ∨ (l.source ≠ source ∧ ∃ before,
        BeginsCheapest links source l.source hop before ∧
        (¬ l.Falls ∧ falls = before ∨ l.Falls ∧ falls = before + 1))) := by
  obtain ⟨c, hc, htour⟩ := h
  have hreached : ∀ {v x}, IsLeastCost links source v x → d[v]? = some x := by
    intro v x hx
    obtain ⟨x', hx'⟩ := hd.reached hx.path
    rw [hx', (hd.least hx').unique hlinks hx]
  -- A piece of a cheapest path is a cheapest one, so its last link is tight.
  have htight : ∀ {l : Link Quantity} {x}, l ∈ links → Path links source l.source x →
      IsLeastCost links source l.target (x + l.cost) → Tight d l := fun hl hp hx =>
    ⟨_, hreached (hx.of_step hlinks hp hl), hreached hx⟩
  cases htour with
  | @first l hl hs ht hne =>
    subst ht
    exact ⟨l, hl, rfl, htight hl (hs ▸ .here) hc, .inl ⟨hs, rfl⟩⟩
  | @rise _ x _ l hrest hl hm _ hfalls =>
    subst hm
    have hp := hrest.pathVia.path
    exact ⟨l, hl, rfl, htight hl hp hc, .inr ⟨hrest.ne_source, falls,
      ⟨x, hc.of_step hlinks hp hl, hrest⟩, .inl ⟨hfalls, rfl⟩⟩⟩
  | @fall _ x before l hrest hl hm _ hfalls =>
    subst hm
    have hp := hrest.pathVia.path
    exact ⟨l, hl, rfl, htight hl hp hc, .inr ⟨hrest.ne_source, before,
      ⟨x, hc.of_step hlinks hp hl, hrest⟩, .inr ⟨hfalls, rfl⟩⟩⟩

/-- Over a tight link that falls, the end is no farther than the start in the order of the visits,
and the other way around. -/
theorem Tight.falls_iff (hlinks : NonnegativeLinks links) (hd : IsDistanceTable links source d)
    (h : Tight d l) (hl : l ∈ links) {near far : Quantity} (hnear : d[l.source]? = some near)
    (hfar : d[l.target]? = some far) :
    l.Falls ↔ nearer (l.target, far) (l.source, near) := by
  obtain ⟨x, hx, hy⟩ := h
  rw [hnear] at hx
  rw [hfar] at hy
  cases hx
  cases hy
  obtain ⟨x, -, rfl⟩ := Quantity.zero_le_iff.1 ((hd.least hnear).path.nonneg hlinks)
  obtain ⟨z, hz, hcost⟩ := Quantity.zero_le_iff.1 (hlinks l hl)
  rw [nearer_iff, Link.Falls, hcost]
  simp only [Quantity.number_add_number, Scalar.totalLE, decide_eq_true_iff,
    Quantity.number.injEq, add_le_iff_nonpos_right, le_add_iff_nonneg_right, hz, true_imp_iff]
  exact and_congr_left' ⟨fun h => h.le, fun h => le_antisymm h hz⟩

/-- In the order of the visits the start of a tight link comes before its end exactly if the link
does not fall. -/
theorem Tight.mem_visited_iff (hlinks : NonnegativeLinks links)
    (hd : IsDistanceTable links source d) {order done rest : List (Reached Quantity)}
    {r : Reached Quantity} (horder : ListsReached d source order) (hsorted : NearestFirst order)
    (hsplit : order = done ++ r :: rest) (h : Tight d l) (hl : l ∈ links) (ht : l.target = r.1)
    (hs : l.source ≠ source) : l.source ∈ done.map (·.1) ↔ ¬ l.Falls := by
  obtain ⟨near, hnear, -⟩ := id h
  have hr : d[l.target]? = some r.2 := ht ▸ ((horder r).1 (by simp [hsplit])).1
  have hfalls := h.falls_iff hlinks hd hl hnear hr
  rw [ht] at hfalls
  obtain ⟨hordered, hnodup⟩ := hsorted
  rw [hsplit] at hordered hnodup
  constructor
  · intro hmem
    obtain ⟨⟨u, x⟩, hu, heq⟩ := List.mem_map.1 hmem
    obtain rfl : u = l.source := heq
    have hx := ((horder _).1 (hsplit ▸ List.mem_append_left _ hu)).1
    obtain rfl : near = x := Option.some.inj (hnear.symm.trans hx)
    -- The start comes first, so it is nearer; were its end nearer as well, both would be one
    -- router.
    have hbefore := (List.pairwise_append.1 hordered).2.2 _ hu r (by simp)
    have hne : l.source ≠ r.1 := by
      rw [List.map_append, List.nodup_append] at hnodup
      exact hnodup.2.2 _ hmem _ (by simp)
    intro hf
    have hback := hfalls.1 hf
    rw [nearer_iff] at hbefore hback
    exact hne (Std.LawfulEqCmp.eq_of_compare
      (Std.OrientedCmp.isLE_antisymm (hbefore.2 hback.1) (hback.2 hbefore.1)))
  · intro hf
    have hmem : (l.source, near) ∈ done ++ r :: rest := hsplit ▸ (horder _).2 ⟨hnear, hs⟩
    rcases List.mem_append.1 hmem with hmem | hmem
    · exact List.mem_map_of_mem hmem
    refine absurd (hfalls.2 ?_) hf
    rcases List.mem_cons.1 hmem with rfl | hmem
    · exact (nearer_total _ _).elim id id
    · exact List.rel_of_pairwise_cons (List.pairwise_append.1 hordered).2.1 hmem

end

/-! ## One pass -/

/-- None of the names is lower than the lowest one. -/
theorem lowest?_isLE {ns : List Name} {low : Name} (h : lowest? ns = some low) :
    ∀ n ∈ ns, (compare low n).isLE := by
  induction ns generalizing low with
  | nil => simp
  | cons m rest ih =>
    unfold lowest? at h
    split at h
    · next hnone =>
      cases h
      rw [lowest?_eq_none_iff.1 hnone]
      simp
    · next low' hlow =>
      intro n hn
      split at h <;> cases h <;> rcases List.mem_cons.1 hn with rfl | hn
      · exact Std.ReflOrd.isLE_rfl
      · next hle => exact Std.TransCmp.isLE_trans hle (ih hlow n hn)
      · next hle => exact (Name.isLE_total _ _).resolve_left hle
      · exact ih hlow n hn

/-- The hops in the middle of a pass, the first one counted as zero, when it has visited the routers
in `done`. -/
structure Picks (links : List (Link Quantity)) (source : Name) (pass : Nat)
    (done : List (Reached Quantity)) (hops : NameMap Name) : Prop where
  /-- Known are the hops of routers to which fewer links need to fall than there have been passes,
  and as many on the way to those that have been visited. -/
  mem_iff (t : Name) : t ∈ hops ↔ ∃ falls, LeastFalling links source t falls ∧
    (falls < pass ∨ falls = pass ∧ t ∈ done.map (·.1))
  /-- And these are final. -/
  picked {t hop : Name} : hops[t]? = some hop → IsPicked links source t hop

section
variable {links : List (Link Quantity)} {source : Name} {d : NameMap Quantity}
  {hops last : NameMap Name} {pass : Nat} {order done rest : List (Reached Quantity)}
  {r : Reached Quantity}

/-- A hop that is handed on begins a cheapest path, with no more falling links than there have been
passes. -/
theorem Picks.beginsCheapest (hlinks : NonnegativeLinks links)
    (hd : IsDistanceTable links source d) (horder : ListsReached d source order)
    (hsorted : NearestFirst order) (hsplit : order = done ++ r :: rest)
    (h : Picks links source pass done hops) {l : Link Quantity} (hl : l ∈ links) {hop : Name}
    (hhop : handedOn d source hops r l = some hop) :
    ∃ falls ≤ pass, BeginsCheapest links source r.1 hop falls := by
  obtain ⟨hr, hne⟩ := (horder r).1 (by simp [hsplit])
  obtain ⟨ht, htight, hhop⟩ := (handedOn_iff hlinks hd hl hr).1 hhop
  rw [← ht] at hne
  split at hhop
  · next hs =>
    rw [← hhop, ← ht]
    exact ⟨0, Nat.zero_le _, htight.beginsCheapest hlinks hd hl hs hne⟩
  · next hs =>
    obtain ⟨falls, hleast, hbegins, -⟩ := h.picked hhop
    have hmem : l.source ∈ hops := Std.ExtTreeMap.isSome_getElem?_iff_mem.1 (by rw [hhop]; rfl)
    obtain ⟨falls', hleast', hknown⟩ := (h.mem_iff _).1 hmem
    obtain rfl := hleast.unique hleast'
    obtain ⟨hrise, hfall⟩ := hbegins.step hlinks hd hl htight hne
    have hvisited := htight.mem_visited_iff hlinks hd horder hsorted hsplit hl ht hs
    rw [← ht]
    -- The start of a falling link is visited later in the pass, so its hop is from an earlier one.
    by_cases hf : l.Falls
    · refine ⟨falls + 1, ?_, hfall hf⟩
      rcases hknown with hlt | ⟨-, hdone⟩
      · exact hlt
      · exact absurd hf (hvisited.1 hdone)
    · exact ⟨falls, by omega, hrise hf⟩

/-- When a router is visited in its pass, one of its predecessors hands on a hop that is as low as
the first router of any cheapest path with as few falling links. -/
theorem Picks.exists_handedOn (hlinks : NonnegativeLinks links)
    (hd : IsDistanceTable links source d) (horder : ListsReached d source order)
    (hsorted : NearestFirst order) (hsplit : order = done ++ r :: rest)
    (h : Picks links source pass done hops) (hleast : LeastFalling links source r.1 pass)
    {hop : Name} (hbegins : BeginsCheapest links source r.1 hop pass) :
    ∃ l ∈ links, ∃ low, handedOn d source hops r l = some low ∧ (compare low hop).isLE := by
  obtain ⟨hr, hne⟩ := (horder r).1 (by simp [hsplit])
  obtain ⟨l, hl, ht, htight, ⟨hs, rfl⟩ | ⟨hs, before, hbefore, hfalls⟩⟩ := hbegins.last hlinks hd
  · exact ⟨l, hl, r.1, (handedOn_iff hlinks hd hl hr).2 ⟨ht, htight, by simp [hs]⟩,
      Std.ReflOrd.isLE_rfl⟩
  rw [← ht] at hne
  -- The path up to the last link has as few falling links as there can be, or there would be fewer
  -- altogether.
  have hleast' : LeastFalling links source l.source before := by
    refine ⟨⟨hop, hbefore⟩, fun {hop' falls'} hb => ?_⟩
    obtain ⟨hrise, hfall⟩ := hb.step hlinks hd hl htight hne
    rw [ht] at hrise hfall
    rcases hfalls with ⟨hf, rfl⟩ | ⟨hf, rfl⟩
    · exact hleast.le (hrise hf)
    · exact Nat.le_of_succ_le_succ (hleast.le (hfall hf))
  have hmem : l.source ∈ hops := by
    refine (h.mem_iff _).2 ⟨before, hleast', ?_⟩
    have hvisited := htight.mem_visited_iff hlinks hd horder hsorted hsplit hl ht hs
    rcases hfalls with ⟨hf, rfl⟩ | ⟨hf, rfl⟩
    · exact .inr ⟨rfl, hvisited.2 hf⟩
    · exact .inl (Nat.lt_succ_self _)
  obtain ⟨low, hlow⟩ := Option.isSome_iff_exists.1 (Std.ExtTreeMap.isSome_getElem?_iff_mem.2 hmem)
  obtain ⟨falls, hleast'', -, hle⟩ := h.picked hlow
  obtain rfl := hleast'.unique hleast''
  exact ⟨l, hl, low, (handedOn_iff hlinks hd hl hr).2 ⟨ht, htight, by simp [hs, hlow]⟩,
    hle hop hbefore⟩

/-- A router whose hop is not known needs as many falling links as there have been passes. -/
theorem Picks.le_falls (h : Picks links source pass done hops) (hunknown : r.1 ∉ hops) {falls : Nat}
    (hleast : LeastFalling links source r.1 falls) : pass ≤ falls := by
  by_contra hlt
  exact hunknown ((h.mem_iff _).2 ⟨falls, hleast, .inl (by omega)⟩)

/-- Where nothing is handed on, more falling links are needed. -/
theorem Picks.not_leastFalling (hlinks : NonnegativeLinks links)
    (hd : IsDistanceTable links source d) (horder : ListsReached d source order)
    (hsorted : NearestFirst order) (hsplit : order = done ++ r :: rest)
    (h : Picks links source pass done hops)
    (hlow : lowest? (links.filterMap (handedOn d source hops r)) = none) :
    ¬ LeastFalling links source r.1 pass := by
  intro hleast
  obtain ⟨hop, hbegins⟩ := hleast.reached
  obtain ⟨l, hl, low, hhanded, -⟩ :=
    h.exists_handedOn hlinks hd horder hsorted hsplit hleast hbegins
  rw [List.filterMap_eq_nil_iff.1 (lowest?_eq_none_iff.1 hlow) l hl] at hhanded
  cases hhanded

/-- The lowest of the hops that are handed on is the one to be picked. -/
theorem Picks.isPicked_lowest (hlinks : NonnegativeLinks links)
    (hd : IsDistanceTable links source d) (horder : ListsReached d source order)
    (hsorted : NearestFirst order) (hsplit : order = done ++ r :: rest)
    (h : Picks links source pass done hops) (hunknown : r.1 ∉ hops) {hop : Name}
    (hlow : lowest? (links.filterMap (handedOn d source hops r)) = some hop) :
    LeastFalling links source r.1 pass ∧ IsPicked links source r.1 hop := by
  obtain ⟨l, hl, hhanded⟩ := List.mem_filterMap.1 (lowest?_mem hlow)
  obtain ⟨falls, hle, hbegins⟩ := h.beginsCheapest hlinks hd horder hsorted hsplit hl hhanded
  obtain ⟨least, hleast_le, hleast⟩ := hbegins.exists_leastFalling
  have hpass := h.le_falls hunknown hleast
  obtain rfl : least = pass := by omega
  obtain rfl : falls = least := by omega
  refine ⟨hleast, falls, hleast, hbegins, fun hop' hbegins' => ?_⟩
  obtain ⟨l', hl', low, hlow', hle'⟩ :=
    h.exists_handedOn hlinks hd horder hsorted hsplit hleast hbegins'
  exact Std.TransCmp.isLE_trans
    (lowest?_isLE hlow low (List.mem_filterMap.2 ⟨l', hl', hlow'⟩)) hle'

/-- When one more router has been visited, its hop is settled if it can be in this pass. -/
theorem Picks.settleHop (hlinks : NonnegativeLinks links) (hd : IsDistanceTable links source d)
    (horder : ListsReached d source order) (hsorted : NearestFirst order)
    (hsplit : order = done ++ r :: rest) (h : Picks links source pass done hops) :
    Picks links source pass (done ++ [r]) (settleHop links d source hops r) := by
  -- a router other than the one that is visited is known as before
  have hother : ∀ t falls, t ≠ r.1 →
      (falls = pass ∧ t ∈ (done ++ [r]).map (·.1) ↔ falls = pass ∧ t ∈ done.map (·.1)) := by
    intro t falls hne
    simp [hne]
  by_cases hknown : r.1 ∈ hops
  · have hsame : AdaptiveRouting.settleHop links d source hops r = hops := by
      simp [AdaptiveRouting.settleHop, hknown]
    rw [hsame]
    refine ⟨fun t => ?_, h.picked⟩
    by_cases ht : t = r.1
    · subst ht
      refine iff_of_true hknown ?_
      obtain ⟨falls, hleast, hfalls⟩ := (h.mem_iff _).1 hknown
      exact ⟨falls, hleast, hfalls.imp_right fun h => ⟨h.1, by simp⟩⟩
    · simp only [h.mem_iff, hother t _ ht]
  cases hlow : lowest? (links.filterMap (handedOn d source hops r)) with
  | none =>
    have hsame : AdaptiveRouting.settleHop links d source hops r = hops := by
      simp [AdaptiveRouting.settleHop, hlow]
    rw [hsame]
    refine ⟨fun t => ?_, h.picked⟩
    by_cases ht : t = r.1
    · subst ht
      refine iff_of_false hknown ?_
      rintro ⟨falls, hleast, hfalls⟩
      obtain rfl : falls = pass := by
        have := h.le_falls hknown hleast
        omega
      exact h.not_leastFalling hlinks hd horder hsorted hsplit hlow hleast
    · simp only [h.mem_iff, hother t _ ht]
  | some hop =>
    have hinsert : AdaptiveRouting.settleHop links d source hops r = hops.insert r.1 hop := by
      simp [AdaptiveRouting.settleHop, hknown, hlow]
    rw [hinsert]
    obtain ⟨hleast, hpicked⟩ := h.isPicked_lowest hlinks hd horder hsorted hsplit hknown hlow
    refine ⟨fun t => ?_, fun {t hop'} ht => ?_⟩
    · rw [Std.ExtTreeMap.mem_insert, Std.LawfulEqCmp.compare_eq_iff_eq]
      by_cases ht : t = r.1
      · subst ht
        exact iff_of_true (.inl rfl) ⟨pass, hleast, .inr ⟨rfl, by simp⟩⟩
      · simp only [Ne.symm ht, false_or, h.mem_iff, hother t _ ht]
    · rw [Std.ExtTreeMap.getElem?_insert] at ht
      split at ht
      · next heq =>
        obtain rfl := Std.LawfulEqCmp.eq_of_compare heq
        cases ht
        exact hpicked
      · exact h.picked ht

/-- What holds at the beginning of the rest of a pass leads to what holds at its end. -/
theorem Picks.settlePass (hlinks : NonnegativeLinks links) (hd : IsDistanceTable links source d)
    (horder : ListsReached d source order) (hsorted : NearestFirst order)
    (hsplit : order = done ++ rest) (h : Picks links source pass done hops) :
    Picks links source pass order (settlePass links d source rest hops) := by
  induction rest generalizing done hops with
  | nil =>
    rw [List.append_nil] at hsplit
    exact hsplit ▸ h
  | cons r rest ih =>
    exact ih (by simp [hsplit]) (h.settleHop hlinks hd horder hsorted hsplit)

/-- Where a pass ends the next one begins. -/
theorem Picks.next (hd : IsDistanceTable links source d) (horder : ListsReached d source order)
    (h : Picks links source pass order hops) : Picks links source (pass + 1) [] hops := by
  refine ⟨fun t => (h.mem_iff t).trans ?_, h.picked⟩
  refine exists_congr fun falls => and_congr_right fun hleast => ?_
  obtain ⟨_, c, hc, htour⟩ := hleast.reached
  obtain ⟨c', hc'⟩ := hd.reached hc.path
  have hmem : t ∈ order.map (·.1) :=
    List.mem_map.2 ⟨(t, c'), (horder _).2 ⟨hc', htour.ne_source⟩, rfl⟩
  simp [hmem, Nat.le_iff_lt_or_eq]

/-- Where the repeated pass ends, all hops are those that are to be picked. -/
theorem PassesEnd.isPicked (hlinks : NonnegativeLinks links) (hd : IsDistanceTable links source d)
    (horder : ListsReached d source order) (hsorted : NearestFirst order)
    (h : PassesEnd links d source order hops last) {pass : Nat}
    (hpicks : Picks links source pass [] hops) {t hop : Name} (ht : last[t]? = some hop) :
    IsPicked links source t hop := by
  induction h generalizing pass with
  | done => exact hpicks.picked ht
  | again _ _ ih =>
    exact ih ((hpicks.settlePass hlinks hd horder hsorted rfl).next hd horder) ht

end

/-! ## The routes -/

section
variable {m : TopologyMap Quantity} {source t hop : Name}

/-- A next hop is the lowest of the first routers of those cheapest paths on which the fewest links
fall, and that router is the next hop. -/
theorem nextHop?_eq_some_iff :
    nextHop? m t source = some hop ↔ IsPicked m.admitted source t hop := by
  have hlinks := m.nonnegative_admitted
  have picked : ∀ {hop}, nextHop? m t source = some hop → IsPicked m.admitted source t hop := by
    intro hop hhop
    have hs : source ∈ m.nodes := by
      by_contra hs
      simp [nextHop?, linkStateRoutes, hs] at hhop
    rw [nextHop?_eq hs] at hhop
    obtain ⟨hop', hhop', hmap⟩ := Option.bind_eq_some_iff.1 hhop
    obtain ⟨-, -, rfl⟩ := Option.map_eq_some_iff.1 hmap
    have hnone : Picks m.admitted source 0 [] ∅ := by
      constructor <;> simp
    exact (passesEnd_firstHops m source _).isPicked hlinks (isDistanceTable_distances m hs)
      (listsReached_byDistance _ source) (nearestFirst_byDistance _ source) hnone hhop'
  refine ⟨picked, ?_⟩
  rintro ⟨falls, hleast, hbegins, hle⟩
  -- some next hop there is, and it is the lowest one as well
  obtain ⟨c, hc, htour⟩ := id hbegins
  obtain ⟨hop', hhop'⟩ := hc.path.exists_handsOn htour.ne_source.symm
  obtain ⟨falls', hleast', hbegins', hle'⟩ := picked hhop'
  obtain rfl := hleast.unique hleast'
  rw [hhop', Std.LawfulEqCmp.eq_of_compare (Std.OrientedCmp.isLE_antisymm (hle' hop hbegins)
    (hle hop' hbegins'))]

/-- A path that costs nothing leads to higher names only, if no link falls. -/
theorem PathVia.rises {links : List (Link Quantity)} {c : Quantity}
    (hlinks : NonnegativeLinks links) (hrise : ∀ l ∈ links, ¬ l.Falls)
    (h : PathVia links source hop t c) (hc : c = .number 0) : compare source t = .lt := by
  have hlt : ∀ l ∈ links, l.cost = .number 0 → compare l.source l.target = .lt := fun l hl hcost =>
    Std.OrientedCmp.lt_of_not_isLE fun hle => hrise l hl ⟨hcost, hle⟩
  induction h with
  | @first l hl hs ht =>
    rw [← hs, ← ht]
    exact hlt l hl (by simpa using hc)
  | @step middle c l hp hl hm ih =>
    obtain ⟨x, hx, rfl⟩ := Quantity.zero_le_iff.1 (hp.path.nonneg hlinks)
    obtain ⟨z, hz, hcost⟩ := Quantity.zero_le_iff.1 (hlinks l hl)
    rw [hcost, Quantity.number_add_number, Quantity.number.injEq] at hc
    obtain rfl : x = 0 := by linarith
    obtain rfl : z = 0 := by linarith
    exact Std.TransCmp.lt_trans (hm ▸ ih rfl) (hlt l hl hcost)

/-- If no link falls a cheapest path does not come back to the source. -/
theorem PathVia.beginsCheapest {links : List (Link Quantity)} {c : Quantity}
    (hlinks : NonnegativeLinks links) (hrise : ∀ l ∈ links, ¬ l.Falls)
    (h : PathVia links source hop t c) (hc : IsLeastCost links source t c) (hne : t ≠ source) :
    BeginsCheapest links source t hop 0 := by
  have away : ∀ {t c}, PathVia links source hop t c → IsLeastCost links source t c →
      t ≠ source := by
    rintro t c hvia hc rfl
    have hzero := hc.unique hlinks (isLeastCost_source hlinks)
    have := hvia.rises hlinks hrise (hzero.trans Quantity.zero_eq)
    simp [Std.ReflCmp.compare_self] at this
  refine ⟨c, hc, ?_⟩
  clear hne
  induction h with
  | @first l hl hs ht => exact .first hl hs ht (away (.first hl hs ht) hc)
  | @step middle c l hp hl hm ih =>
    subst hm
    exact (ih (hc.of_step hlinks hp.path hl)).rise hl rfl (away (hp.step hl rfl) hc) (hrise l hl)

/-- The first router of a cheapest path begins a path at the least cost. -/
theorem BeginsCheapest.pathVia {links : List (Link Quantity)} {falls : Nat}
    (h : BeginsCheapest links source t hop falls) :
    ∃ c, IsLeastCost links source t c ∧ PathVia links source hop t c :=
  let ⟨c, hc, htour⟩ := h
  ⟨c, hc, htour.pathVia⟩

end

/-- **Ties go to the lowest name among the paths with the fewest falling links.** For every map and
every router, the next hop to a destination is the lowest name among the first routers of those
cheapest paths on which as few links as possible cost nothing and lead to no higher name; every
other router that can be reached has one. It is the lowest of the first routers of all cheapest
paths exactly if that one begins a path with the fewest such links, so always if there are none. -/
theorem ties_to_fewest_falls (m : TopologyMap Quantity) (source t : Name) :
    (∀ hop, nextHop? m t source = some hop ↔ IsPicked m.admitted source t hop) ∧
    (t ≠ source → (∃ c, Path m.admitted source t c) → ∃ hop, nextHop? m t source = some hop) ∧
    (∀ low, (∀ hop c, IsLeastCost m.admitted source t c → PathVia m.admitted source hop t c →
        (compare low hop).isLE) →
      (nextHop? m t source = some low ↔
        ∃ falls, LeastFalling m.admitted source t falls ∧
          BeginsCheapest m.admitted source t low falls)) ∧
    ((∀ l ∈ m.admitted, ¬ l.Falls) → ∀ hop, nextHop? m t source = some hop →
      ∀ hop' c, IsLeastCost m.admitted source t c → PathVia m.admitted source hop' t c →
        (compare hop hop').isLE) := by
  refine ⟨fun _ => nextHop?_eq_some_iff, fun hne ⟨c, hc⟩ => hc.exists_handsOn hne.symm,
    fun low hlow => ?_, fun hrise hop hhop hop' c hc hvia => ?_⟩
  · rw [nextHop?_eq_some_iff]
    refine exists_congr fun falls => and_congr_right fun _ => and_iff_left_of_imp fun _ => ?_
    intro hop' hbegins'
    obtain ⟨c, hc, hvia⟩ := hbegins'.pathVia
    exact hlow hop' c hc hvia
  · obtain ⟨falls, hleast, hbegins, hle⟩ := nextHop?_eq_some_iff.1 hhop
    obtain ⟨_, _, htour⟩ := hbegins
    -- Where no link falls, every cheapest path has as few falling links as any other.
    have hbegins' := hvia.beginsCheapest m.nonnegative_admitted hrise hc htour.ne_source
    obtain rfl : falls = 0 := Nat.le_zero.1 (hleast.le hbegins')
    exact hle hop' hbegins'

namespace Sidestep

/-- The source. -/
def s : Name := { components := ["sorrel"] }

/-- The lowest name, and the first router of one of the cheapest paths. -/
def a : Name := { components := ["alder"] }

/-- Behind `a` at no cost; the name is higher than that of the destination. -/
def z : Name := { components := ["yew"] }

/-- The destination, behind `z` at no cost and behind the source at the same cost as `a`. -/
def d : Name := { components := ["dogwood"] }

noncomputable def map : TopologyMap Quantity where
  kind := .adjacency
  routers := ∅
  links := [⟨s, a, .number 1⟩, ⟨a, z, .number 0⟩, ⟨z, d, .number 0⟩, ⟨s, d, .number 1⟩]
  coordinates := ∅

/-- Every link of the map counts. -/
theorem admitted_map : map.admitted = [⟨s, a, .number 1⟩, ⟨a, z, .number 0⟩, ⟨z, d, .number 0⟩,
    ⟨s, d, .number 1⟩] := by
  simp [TopologyMap.admitted, map, Quantity.zero_eq]

/-- No router but the source is reached for less than 1. -/
theorem one_le_of_path {t : Name} {c : Quantity} (h : Path map.admitted s t c) :
    t = s ∨ .number 1 ≤ c := by
  induction h with
  | here => exact .inl rfl
  | @step middle c l hp hl hm ih =>
    obtain ⟨x, hx, rfl⟩ := Quantity.zero_le_iff.1 (hp.nonneg map.nonnegative_admitted)
    rw [admitted_map] at hl
    simp only [List.mem_cons, List.not_mem_nil, or_false] at hl
    rcases hl with rfl | rfl | rfl | rfl
    · exact .inr (by simpa using hx)
    · exact .inr (by simpa using ih.resolve_left (by rw [← hm]; decide))
    · exact .inr (by simpa using ih.resolve_left (by rw [← hm]; decide))
    · exact .inr (by simpa using hx)

/-- The destination is reached at a cost of 1. -/
theorem isLeastCost_d : IsLeastCost map.admitted s d (.number 1) := by
  refine ⟨?_, fun h => (one_le_of_path h).resolve_left (by decide)⟩
  have hlink : (⟨s, d, .number 1⟩ : Link Quantity) ∈ map.admitted := by simp [admitted_map]
  have hd := Path.here.step hlink rfl
  simpa using hd

/-- One of the cheapest paths leads through `a`. -/
theorem pathVia_a : PathVia map.admitted s a d (.number 1) := by
  have hlink : (⟨s, a, .number 1⟩ : Link Quantity) ∈ map.admitted := by simp [admitted_map]
  have ha := PathVia.first hlink rfl rfl
  have hz := ha.step (l := ⟨a, z, .number 0⟩) (by simp [admitted_map]) rfl
  have hd := hz.step (l := ⟨z, d, .number 0⟩) (by simp [admitted_map]) rfl
  simpa using hd

/-- The direct link is taken, since the hop of `z` is found too late: the link from there to the
destination falls. -/
theorem nextHop_d : nextHop? map d s = some d ∧ compare a d = .lt ∧
    IsLeastCost map.admitted s d (.number 1) ∧ PathVia map.admitted s a d (.number 1) := by
  have hdirect : BeginsCheapest map.admitted s d d 0 := by
    have hlink : (⟨s, d, .number 1⟩ : Link Quantity) ∈ map.admitted := by simp [admitted_map]
    have htour := Tour.first hlink rfl rfl (by decide)
    exact ⟨_, isLeastCost_d, by simpa using htour⟩
  refine ⟨((ties_to_fewest_falls map s d).1 d).2
      ⟨0, ⟨⟨d, hdirect⟩, fun _ => Nat.zero_le _⟩, hdirect, ?_⟩,
    by decide, isLeastCost_d, pathVia_a⟩
  rintro hop' ⟨c, -, htour⟩
  generalize ht : d = t at htour
  cases htour with
  | first => exact Std.ReflOrd.isLE_rfl
  | rise hrest hl hm _ hrises =>
    rw [admitted_map] at hl
    simp only [List.mem_cons, List.not_mem_nil, or_false] at hl
    rcases hl with rfl | rfl | rfl | rfl
    · exact absurd ht (by decide)
    · exact absurd ht (by decide)
    · exact absurd ⟨rfl, by decide⟩ hrises
    · exact absurd hm.symm hrest.ne_source

end Sidestep

end AdaptiveRouting
