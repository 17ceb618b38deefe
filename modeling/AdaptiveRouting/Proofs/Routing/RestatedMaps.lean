import AdaptiveRouting.Proofs.Routing.TieBreaks

/-!
# Maps that are written down differently

Link-state routes are those of the map and not of the way in which it is written down: the order of
its links does not matter, nor do further copies of a link that cost as much or more, nor links that
do not count (`Restates`). Neither do the orders in which a calculation goes through what it has
found (`Calculates`).

The reason is the same for all of these. Links of which each has a counterpart that costs no more,
in either direction (`Interchangeable`), lead everywhere at the same cost, since a path over the
counterparts costs no more than the path itself (`Undercut.exists_path`). A link at the end of which
a cheapest path arrives has a counterpart of exactly its cost, so it hands on the same hop
(`Interchangeable.handedOn`); and the lowest of the hops that are handed on does not depend on the
order in which they come (`lowest?_congr`). The routers that are reached have one sorted order, as
no two of them have the same name, so the passes are the same as well (`PassesEnd.unique`).

A copy has to be one of a link that counts: next to a link of a negative cost, one that costs more
may be the only way (`Discounted`).
-/

namespace AdaptiveRouting

/-! ## Counterparts -/

/-- Every link of the first list has a counterpart in the second one, between the same routers,
that costs no more. -/
def Undercut (links links' : List (Link Quantity)) : Prop :=
  ∀ l ∈ links, ∃ l' ∈ links', l'.source = l.source ∧ l'.target = l.target ∧ l'.cost ≤ l.cost

/-- Two lists of links that count, each with counterparts for the links of the other one. -/
structure Interchangeable (links links' : List (Link Quantity)) : Prop where
  left : NonnegativeLinks links
  right : NonnegativeLinks links'
  undercut : Undercut links links'
  undercut_symm : Undercut links' links

/-- Sums of costs that are not negative are in the order of their parts. -/
theorem Quantity.add_le_add {a b c e : Quantity} (ha : 0.0 ≤ a) (hc : 0.0 ≤ c) (hab : a ≤ b)
    (hce : c ≤ e) : a + c ≤ b + e := by
  obtain ⟨x, -, rfl⟩ := zero_le_iff.1 ha
  obtain ⟨z, -, rfl⟩ := zero_le_iff.1 hc
  cases b <;> cases e <;> simp_all
  linarith

section
variable {links links' links'' : List (Link Quantity)} {source t : Name} {c : Quantity}

/-- Links are undercut by any list that they are in. -/
theorem undercut_of_subset (hlinks : NonnegativeLinks links) (h : links ⊆ links') :
    Undercut links links' := fun l hl =>
  ⟨l, h hl, rfl, rfl, PathArithmetic.le_refl (hlinks l hl)⟩

/-- Counterparts of counterparts are counterparts. -/
theorem Undercut.trans (h : Undercut links links') (h' : Undercut links' links'') :
    Undercut links links'' := by
  intro l hl
  obtain ⟨l', hl', hs', ht', hle'⟩ := h l hl
  obtain ⟨l'', hl'', hs'', ht'', hle''⟩ := h' l' hl'
  exact ⟨l'', hl'', hs''.trans hs', ht''.trans ht', PathArithmetic.le_trans hle'' hle'⟩

/-- To be interchangeable goes both ways. -/
theorem Interchangeable.symm (h : Interchangeable links links') : Interchangeable links' links :=
  ⟨h.right, h.left, h.undercut_symm, h.undercut⟩

/-- Two lists that can stand for a third can stand for each other. -/
theorem Interchangeable.trans (h : Interchangeable links links')
    (h' : Interchangeable links' links'') : Interchangeable links links'' :=
  ⟨h.left, h'.right, h.undercut.trans h'.undercut, h'.undercut_symm.trans h.undercut_symm⟩

/-- The order of the links makes no difference. -/
theorem interchangeable_of_perm (hlinks : NonnegativeLinks links) (h : links'.Perm links) :
    Interchangeable links' links := by
  have hlinks' : NonnegativeLinks links' := fun l hl => hlinks l (h.subset hl)
  exact ⟨hlinks', hlinks, undercut_of_subset hlinks' h.subset,
    undercut_of_subset hlinks h.symm.subset⟩

/-- A path over the counterparts of the links of a path costs no more. -/
theorem Undercut.exists_path (hu : Undercut links links') (hlinks' : NonnegativeLinks links')
    (h : Path links source t c) : ∃ c', Path links' source t c' ∧ c' ≤ c := by
  induction h with
  | here => exact ⟨0.0, .here, PathArithmetic.zero_le_zero⟩
  | step _ hl hm ih =>
    obtain ⟨c', hc', hle⟩ := ih
    obtain ⟨l', hl', hs, ht, hcost⟩ := hu _ hl
    refine ⟨c' + l'.cost, ht ▸ hc'.step hl' (hs.trans hm), ?_⟩
    exact Quantity.add_le_add (hc'.nonneg hlinks') (hlinks' l' hl') hle hcost

/-- Interchangeable links lead to the same places at the same least costs. -/
theorem Interchangeable.isLeastCost (h : Interchangeable links links')
    (hc : IsLeastCost links source t c) : IsLeastCost links' source t c := by
  have hback : ∀ {x}, Path links' source t x → c ≤ x := by
    intro x hx
    obtain ⟨y, hy, hyx⟩ := h.undercut_symm.exists_path h.left hx
    exact PathArithmetic.le_trans (hc.le hy) hyx
  obtain ⟨c', hc', hle⟩ := h.undercut.exists_path h.right hc.path
  obtain rfl := PathArithmetic.le_antisymm (hc.path.nonneg h.left) (hback hc') hle
  exact ⟨hc', hback⟩

/-- Interchangeable links have the same distances. -/
theorem Interchangeable.isDistanceTable {d : NameMap Quantity} (h : Interchangeable links links')
    (hd : IsDistanceTable links source d) : IsDistanceTable links' source d where
  least ht := h.isLeastCost (hd.least ht)
  reached hp :=
    let ⟨_, hp', _⟩ := h.undercut_symm.exists_path h.left hp
    hd.reached hp'

/-- There is one table of distances. -/
theorem IsDistanceTable.unique {d d' : NameMap Quantity} (hlinks : NonnegativeLinks links)
    (hd : IsDistanceTable links source d) (hd' : IsDistanceTable links source d') : d = d' := by
  have agree : ∀ {d d' : NameMap Quantity}, IsDistanceTable links source d →
      IsDistanceTable links source d' → ∀ {t : Name} {c}, d[t]? = some c → d'[t]? = some c := by
    intro d d' hd hd' t c hc
    obtain ⟨c', hc'⟩ := hd'.reached (hd.least hc).path
    rw [hc', (hd'.least hc').unique hlinks (hd.least hc)]
  refine Std.ExtTreeMap.ext_getElem? fun t => Option.ext fun c => ?_
  exact ⟨agree hd hd', agree hd' hd⟩

end

/-! ## The hops that are handed on -/

/-- The lowest of some names is the same in whatever order they come, and how often. -/
theorem lowest?_congr {ns ms : List Name} (h : ∀ n, n ∈ ns ↔ n ∈ ms) :
    lowest? ns = lowest? ms := by
  cases hn : lowest? ns with
  | none =>
    obtain rfl := lowest?_eq_none_iff.1 hn
    refine (lowest?_eq_none_iff.2 (List.eq_nil_iff_forall_not_mem.2 fun m hm => ?_)).symm
    simpa using (h m).2 hm
  | some low =>
    cases hm : lowest? ms with
    | none =>
      obtain rfl := lowest?_eq_none_iff.1 hm
      simpa using (h low).1 (lowest?_mem hn)
    | some low' =>
      have hle := lowest?_isLE hn low' ((h low').2 (lowest?_mem hm))
      have hle' := lowest?_isLE hm low ((h low).1 (lowest?_mem hn))
      rw [Std.LawfulEqCmp.eq_of_compare (Std.OrientedCmp.isLE_antisymm hle hle')]

section
variable {links links' : List (Link Quantity)} {source : Name} {d : NameMap Quantity}
  {hops last last' : NameMap Name} {order : List (Reached Quantity)} {r : Reached Quantity}

/-- A tight link has a counterpart that is tight as well: if that cost less, there would be a path
to the end that costs less than the distance. -/
theorem Interchangeable.tight (h : Interchangeable links links')
    (hd : IsDistanceTable links source d) {l : Link Quantity} (hl : l ∈ links)
    (htight : Tight d l) :
    ∃ l' ∈ links', l'.source = l.source ∧ l'.target = l.target ∧ Tight d l' := by
  obtain ⟨l', hl', hs, ht, hcost⟩ := h.undercut l hl
  obtain ⟨near, hnear, hfar⟩ := htight
  have hnear0 := (hd.least hnear).path.nonneg h.left
  have hle : near + l'.cost ≤ near + l.cost :=
    Quantity.add_le_add hnear0 (h.right l' hl') (PathArithmetic.le_refl hnear0) hcost
  have hpath : Path links' source l.target (near + l'.cost) :=
    ht ▸ (h.isLeastCost (hd.least hnear)).path.step hl' hs
  have hge := (h.isLeastCost (hd.least hfar)).le hpath
  have hsum := PathArithmetic.le_antisymm ((hd.least hfar).path.nonneg h.left) hge hle
  exact ⟨l', hl', hs, ht, near, hs ▸ hnear, by rw [ht, hfar, hsum]⟩

/-- A hop that is handed on over a link is so over its counterpart too. -/
theorem Interchangeable.handedOn (h : Interchangeable links links')
    (hd : IsDistanceTable links source d) (hr : d[r.1]? = some r.2) {l : Link Quantity}
    (hl : l ∈ links) {hop : Name} (hhop : handedOn d source hops r l = some hop) :
    ∃ l' ∈ links', AdaptiveRouting.handedOn d source hops r l' = some hop := by
  obtain ⟨ht, htight, hhop⟩ := (handedOn_iff h.left hd hl hr).1 hhop
  obtain ⟨l', hl', hs', ht', htight'⟩ := h.tight hd hl htight
  refine ⟨l', hl', (handedOn_iff h.right (h.isDistanceTable hd) hl' hr).2 ?_⟩
  exact ⟨ht'.trans ht, htight', by rwa [hs']⟩

/-- The hop of a router is settled in the same way. -/
theorem Interchangeable.settleHop (h : Interchangeable links links')
    (hd : IsDistanceTable links source d) (hr : d[r.1]? = some r.2) :
    settleHop links d source hops r = settleHop links' d source hops r := by
  unfold AdaptiveRouting.settleHop
  rw [lowest?_congr fun hop => ?_]
  simp only [List.mem_filterMap]
  exact ⟨fun ⟨_, hl, hhop⟩ => h.handedOn hd hr hl hhop,
    fun ⟨_, hl, hhop⟩ => h.symm.handedOn (h.isDistanceTable hd) hr hl hhop⟩

/-- A pass settles the same hops. -/
theorem Interchangeable.settlePass (h : Interchangeable links links')
    (hd : IsDistanceTable links source d) (horder : ∀ r ∈ order, d[r.1]? = some r.2) :
    settlePass links d source order hops = settlePass links' d source order hops := by
  induction order generalizing hops with
  | nil => rfl
  | cons r order ih =>
    obtain ⟨hr, horder⟩ := List.forall_mem_cons.1 horder
    show settlePass links d source order (AdaptiveRouting.settleHop links d source hops r) = _
    rw [h.settleHop hd hr]
    exact ih horder

/-- The repeated pass ends in one way. -/
theorem PassesEnd.unique (hpass : ∀ hops,
      settlePass links d source order hops = settlePass links' d source order hops)
    (h : PassesEnd links d source order hops last)
    (h' : PassesEnd links' d source order hops last') : last = last' := by
  induction h with
  | done hall =>
    cases h' with
    | done => rfl
    | again hne => exact absurd ((hpass _).symm.trans hall) hne
  | again hne _ ih =>
    cases h' with
    | done hall => exact absurd ((hpass _).trans hall) hne
    | again _ hrest => exact ih ((hpass _) ▸ hrest)

end

/-! ## Calculations -/

/-- The routes of a calculation that goes through links and tables in orders of its own: it finds
the distances, sorts the routers that are reached, repeats the pass over them and sorts the entries
that come of the hops. If the routers are numbered, the numbers show in such orders only. -/
inductive Calculates (m : TopologyMap Quantity) (source : Name) :
    List (RoutingEntry Quantity) → Prop where
  /-- From a router that is not in the map there are no routes. -/
  | unknown : source ∉ m.nodes → Calculates m source []
  | known {links : List (Link Quantity)} {d : NameMap Quantity} {order : List (Reached Quantity)}
      {hops : NameMap Name} {routes : List (RoutingEntry Quantity)} : source ∈ m.nodes →
      links.Perm m.admitted → IsDistanceTable links source d →
      order.Perm (d.toList.filter fun r => r.1 ≠ source) →
      (order.Pairwise fun a b => nearer a b) → PassesEnd links d source order ∅ hops →
      routes.Perm (hops.toList.map fun h => routeVia d h.1 h.2) →
      (routes.Pairwise fun e f => (compare e.destination f.destination).isLE) →
      Calculates m source routes

/-- Sorting routers with their distances by distance and name leaves one order. -/
theorem perm_eq_of_nearer {d : NameMap Quantity} {order order' : List (Reached Quantity)}
    (hmem : ∀ r ∈ order, d[r.1]? = some r.2) (hperm : order.Perm order')
    (hsorted : order.Pairwise fun a b => nearer a b)
    (hsorted' : order'.Pairwise fun a b => nearer a b) : order = order' := by
  refine hperm.eq_of_pairwise (fun a b ha hb hab hba => ?_) hsorted hsorted'
  rw [nearer_iff] at hab hba
  have hname : a.1 = b.1 := Std.LawfulEqCmp.eq_of_compare
    (Std.OrientedCmp.isLE_antisymm (hab.2 hba.1) (hba.2 hab.1))
  have hdist : some a.2 = some b.2 :=
    (hmem a ha).symm.trans (hname ▸ hmem b (hperm.symm.subset hb))
  exact Prod.ext hname (Option.some.inj hdist)

/-- So does sorting the routes by destination, as there is one for each. -/
theorem routes_eq_of_perm {d : NameMap Quantity} {hops : NameMap Name}
    {routes routes' : List (RoutingEntry Quantity)}
    (hroutes : routes.Perm (hops.toList.map fun h => routeVia d h.1 h.2))
    (hroutes' : routes'.Perm (hops.toList.map fun h => routeVia d h.1 h.2))
    (hsorted : routes.Pairwise fun e f => (compare e.destination f.destination).isLE)
    (hsorted' : routes'.Pairwise fun e f => (compare e.destination f.destination).isLE) :
    routes = routes' := by
  refine (hroutes.trans hroutes'.symm).eq_of_pairwise (fun e f he hf hef hfe => ?_) hsorted hsorted'
  obtain ⟨⟨t, hop⟩, hmem, rfl⟩ := List.mem_map.1 (hroutes.subset he)
  obtain ⟨⟨t', hop'⟩, hmem', rfl⟩ := List.mem_map.1 (hroutes'.subset hf)
  rw [Std.ExtTreeMap.mem_toList_iff_getElem?_eq_some] at hmem hmem'
  obtain rfl : t = t' :=
    Std.LawfulEqCmp.eq_of_compare (Std.OrientedCmp.isLE_antisymm hef hfe)
  rw [Option.some.inj (hmem.symm.trans hmem')]

section
variable {m m' : TopologyMap Quantity} {source : Name}
  {routes routes' : List (RoutingEntry Quantity)}

/-- What is calculated are the link-state routes, in one of these orders. -/
theorem calculates_linkStateRoutes (m : TopologyMap Quantity) (source : Name) :
    Calculates m source (linkStateRoutes source m) := by
  by_cases hs : source ∈ m.nodes
  · have hroutes : linkStateRoutes source m = (firstHops m source (distances m source)).toList.map
        fun h => routeVia (distances m source) h.1 h.2 := by
      simp [linkStateRoutes, hs]
    have hordered : (linkStateRoutes source m).Pairwise fun e f =>
        (compare e.destination f.destination).isLE := by
      rw [hroutes, List.pairwise_map]
      exact Std.ExtTreeMap.ordered_keys_toList.imp Ordering.isLE_of_eq_lt
    exact .known hs (.refl _) (isDistanceTable_distances m hs) (perm_byDistance _ source)
      (nearestFirst_byDistance _ source).ordered (passesEnd_firstHops m source _)
      (.of_eq hroutes) hordered
  · have hroutes : linkStateRoutes source m = [] := by simp [linkStateRoutes, hs]
    exact hroutes ▸ .unknown hs

/-- Calculations from interchangeable links agree. -/
theorem Calculates.unique (hnodes : source ∈ m.nodes ↔ source ∈ m'.nodes)
    (hlinks : Interchangeable m.admitted m'.admitted) (h : Calculates m source routes)
    (h' : Calculates m' source routes') : routes = routes' := by
  cases h with
  | unknown hs =>
    cases h' with
    | unknown => rfl
    | known hs' => exact absurd (hnodes.2 hs') hs
  | @known links d order hops _ hs hperm hd horder hsorted hend hroutes hlisted =>
    cases h' with
    | unknown hs' => exact absurd (hnodes.1 hs) hs'
    | @known links' d' order' hops' _ _ hperm' hd' horder' hsorted' hend' hroutes' hlisted' =>
      have hsame : Interchangeable links links' :=
        (interchangeable_of_perm hlinks.left hperm).trans
          (hlinks.trans (interchangeable_of_perm hlinks.right hperm').symm)
      obtain rfl : d = d' := (hsame.isDistanceTable hd).unique hsame.right hd'
      have hmem : ∀ r ∈ order, d[r.1]? = some r.2 := fun r hr =>
        Std.ExtTreeMap.mem_toList_iff_getElem?_eq_some.1 (List.mem_filter.1 (horder.subset hr)).1
      obtain rfl := perm_eq_of_nearer hmem (horder.trans horder'.symm) hsorted hsorted'
      obtain rfl := hend.unique (fun _ => hsame.settlePass hd hmem) hend'
      exact routes_eq_of_perm hroutes hroutes' hlisted hlisted'

end

/-! ## Maps written down differently -/

/-- One list of links is another one written down differently: in another order, with a copy of a
link that counts at the same cost or a higher one, with a link of a negative or undefined cost, or
the other way around. -/
inductive Restates : List (Link Quantity) → List (Link Quantity) → Prop where
  | reordered {links links' : List (Link Quantity)} : links.Perm links' → Restates links links'
  | copied {links : List (Link Quantity)} {l : Link Quantity} {c : Quantity} : l ∈ links →
      0.0 ≤ l.cost → l.cost ≤ c → Restates links (⟨l.source, l.target, c⟩ :: links)
  | uncounted {links : List (Link Quantity)} {l : Link Quantity} : ¬ (0.0 : Quantity) ≤ l.cost →
      Restates links (l :: links)
  | symm {links links' : List (Link Quantity)} : Restates links links' → Restates links' links
  | trans {links links' links'' : List (Link Quantity)} : Restates links links' →
      Restates links' links'' → Restates links links''

/-- The links that count are interchangeable. -/
theorem Restates.interchangeable {links links' : List (Link Quantity)} (h : Restates links links') :
    Interchangeable (links.filter fun l => decide ((0.0 : Quantity) ≤ l.cost))
      (links'.filter fun l => decide ((0.0 : Quantity) ≤ l.cost)) := by
  have counted : ∀ links : List (Link Quantity),
      NonnegativeLinks (links.filter fun l => decide ((0.0 : Quantity) ≤ l.cost)) :=
    fun links l hl => of_decide_eq_true (List.mem_filter.1 hl).2
  induction h with
  | reordered hperm => exact interchangeable_of_perm (counted _) (hperm.filter _)
  | @copied links l c hl hpos hle =>
    have hc : (0.0 : Quantity) ≤ c := PathArithmetic.le_trans hpos hle
    rw [List.filter_cons_of_pos (by simpa using hc)]
    refine ⟨counted _, ?_, undercut_of_subset (counted _) (List.subset_cons_self ..), ?_⟩
    · exact List.forall_mem_cons.2 ⟨hc, counted links⟩
    · intro l' hl'
      rcases List.mem_cons.1 hl' with rfl | hl'
      · exact ⟨l, List.mem_filter.2 ⟨hl, decide_eq_true hpos⟩, rfl, rfl, hle⟩
      · exact undercut_of_subset (counted _) (List.Subset.refl _) l' hl'
  | uncounted hcost =>
    rw [List.filter_cons_of_neg (by simpa using hcost)]
    exact interchangeable_of_perm (counted _) (.refl _)
  | symm _ ih => exact ih.symm
  | trans _ _ ih ih' => exact ih.trans ih'

/-- The maps have the same routers. -/
theorem mem_nodes_of_interchangeable {m m' : TopologyMap Quantity}
    (hrouters : m.routers = m'.routers) (hlinks : Interchangeable m.admitted m'.admitted)
    {t : Name} (ht : t ∈ m.nodes) : t ∈ m'.nodes := by
  refine m'.mem_nodes.2 ((m.mem_nodes.1 ht).imp (fun h => hrouters ▸ h) ?_)
  rintro ⟨l, hl, hend⟩
  obtain ⟨l', hl', hs, ht, -⟩ := hlinks.undercut l hl
  exact ⟨l', hl', by rwa [hs, ht]⟩

/-- **Routes do not depend on how the map is written down.** Two maps with the same routers, the
links of one of which are those of the other one in any order, with any copies of links that count
at the same cost or a higher one and with any links of negative or undefined costs, have the same
routes from every source; and these are the routes of every calculation, in whatever orders it goes
through the links, the routers that it reaches and the hops that it finds. -/
theorem routes_of_restated {m m' : TopologyMap Quantity} (hrouters : m.routers = m'.routers)
    (hlinks : Restates m.links m'.links) (source : Name) :
    linkStateRoutes source m' = linkStateRoutes source m ∧
    ∀ routes, Calculates m' source routes ↔ routes = linkStateRoutes source m := by
  have hsame : Interchangeable m.admitted m'.admitted := hlinks.interchangeable
  have hnodes : source ∈ m.nodes ↔ source ∈ m'.nodes :=
    ⟨mem_nodes_of_interchangeable hrouters hsame,
      mem_nodes_of_interchangeable hrouters.symm hsame.symm⟩
  have unique : ∀ {routes}, Calculates m' source routes → linkStateRoutes source m = routes :=
    (calculates_linkStateRoutes m source).unique hnodes hsame
  have hroutes := unique (calculates_linkStateRoutes m' source)
  refine ⟨hroutes.symm, fun routes => ⟨fun h => (unique h).symm, ?_⟩⟩
  rintro rfl
  exact hroutes ▸ calculates_linkStateRoutes m' source

namespace Crossing

/-- The map without the links that make no difference, in another order. -/
noncomputable def tidied : TopologyMap Quantity where
  kind := .adjacency
  routers := (∅ : NameSet).insert a
  links := [⟨c, b, .number 0⟩, ⟨b, c, .number 0⟩, ⟨b, b, .number 0⟩, ⟨a, b, .number 1⟩]
  coordinates := ∅

/-- The tidy map is the other one written down differently. -/
theorem restates_tidied : Restates tidied.links map.links := by
  have hnegative : Restates tidied.links (⟨a, c, .number (-2)⟩ :: tidied.links) :=
    .uncounted (by simp [Quantity.zero_eq])
  have hundefined := hnegative.trans (.uncounted (l := ⟨a, d, .undefined⟩) (by simp))
  have hcopy := hundefined.trans (.copied (l := ⟨a, b, .number 1⟩) (c := .number 3)
    (by simp [tidied]) (by simp [Quantity.zero_eq]) (by simp))
  exact hcopy.trans (.reordered (.cons _ (List.reverse_perm map.links.tail)))

/-- Both maps have a route to `c`, and it is the same one. -/
theorem routes_tidied : tidied.routers = map.routers ∧ Restates tidied.links map.links ∧
    linkStateRoutes a map = linkStateRoutes a tidied ∧ ∃ hop, nextHop? tidied c a = some hop := by
  have hb : Path tidied.admitted a b _ :=
    Path.here.step (l := ⟨a, b, .number 1⟩)
      (by simp [TopologyMap.admitted, tidied, Quantity.zero_eq]) rfl
  have hc : Path tidied.admitted a c _ :=
    hb.step (l := ⟨b, c, .number 0⟩)
      (by simp [TopologyMap.admitted, tidied, Quantity.zero_eq]) rfl
  have hrouters : tidied.routers = map.routers := rfl
  obtain ⟨hroutes, -⟩ := routes_of_restated hrouters restates_tidied a
  exact ⟨hrouters, restates_tidied, hroutes, hc.exists_handsOn (by decide)⟩

end Crossing

namespace Discounted

def s : Name := { components := ["sender"] }

def t : Name := { components := ["recipient"] }

/-- The only link does not count, as its cost is negative. -/
noncomputable def bare : TopologyMap Quantity where
  kind := .adjacency
  routers := ((∅ : NameSet).insert s).insert t
  links := [⟨s, t, .number (-1)⟩]
  coordinates := ∅

/-- The link has a copy of a higher cost. -/
noncomputable def doubled : TopologyMap Quantity :=
  { bare with links := ⟨s, t, .number (2 : ℕ)⟩ :: bare.links }

/-- A copy of a link that does not count makes a difference, if the copy counts. -/
theorem routes_doubled : doubled.routers = bare.routers ∧
    doubled.links = ⟨s, t, .number 2⟩ :: bare.links ∧ ⟨s, t, .number (-1)⟩ ∈ bare.links ∧
    Quantity.number (-1) ≤ .number 2 ∧ linkStateRoutes s doubled ≠ linkStateRoutes s bare := by
  have hnone : bare.admitted = [] := by
    simp [TopologyMap.admitted, bare, Quantity.zero_eq]
  have hpath : Path doubled.admitted s t _ :=
    Path.here.step (l := ⟨s, t, .number 2⟩)
      (by simp [TopologyMap.admitted, doubled, Quantity.zero_eq]) rfl
  obtain ⟨hop, hhop⟩ := hpath.exists_handsOn (by decide)
  refine ⟨rfl, rfl, by simp [bare], by norm_num, fun hroutes => ?_⟩
  have hbare : HandsOn bare t s hop := by
    rwa [HandsOn, nextHop?, ← hroutes]
  have hnopath : ∀ {u x}, ¬ PathVia ([] : List (Link Quantity)) s hop u x := by
    intro u x h
    cases h with
    | first hl => exact List.not_mem_nil hl
    | step _ hl => exact List.not_mem_nil hl
  obtain ⟨-, -, _, -, hvia⟩ := hbare.pathVia
  exact hnopath (hnone ▸ hvia)

end Discounted

end AdaptiveRouting
