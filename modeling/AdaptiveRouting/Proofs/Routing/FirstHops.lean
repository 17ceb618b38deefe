import AdaptiveRouting.Proofs.Routing.Distances

/-!
# First hops lie on cheapest paths

`settleHop` gives a router the first hop of a predecessor from which a link leads to it at exactly
its distance. A hop that is found this way is the first one on a cheapest path (`HopsLieOnPaths`),
whatever the order in which the routers are visited.

That every reached router gets a hop is less obvious. A link that costs nothing, or whose cost is
lost in rounding, can lead to a router from one that comes later in the order, so one pass does not
suffice; and not every cheapest path will do, since its beginning need not be a cheapest path. What
carries the argument is a tree of links each of which raises the distance by exactly its cost
(`InTree`): it spans the reached routers (`IsDistanceTable.inTree`), and a pass that settles
nothing has settled every router of the tree (`mem_of_inTree`). `PassesEnd` is the repetition
of the pass without a bound, and `passesEnd_settleHops` says that it ends within the bound that
`firstHops` gives it.
-/

namespace AdaptiveRouting

variable {α : Type} [Scalar α]

/-! ## One step -/

/-- There is a lowest name unless there are no names. -/
theorem lowest?_eq_none_iff {ns : List Name} : lowest? ns = none ↔ ns = [] := by
  cases ns with
  | nil => simp [lowest?]
  | cons n rest => simp only [lowest?]; split <;> [skip; split] <;> simp

/-- The lowest of some names is one of them. -/
theorem lowest?_mem {ns : List Name} {n : Name} (h : lowest? ns = some n) : n ∈ ns := by
  induction ns generalizing n with
  | nil => simp [lowest?] at h
  | cons m rest ih =>
    unfold lowest? at h
    split at h
    · cases h
      exact List.mem_cons_self ..
    · next low hlow =>
      split at h <;> cases h
      · exact List.mem_cons_self ..
      · exact List.mem_cons_of_mem _ (ih hlow)

section
variable {links : List (Link α)} {source : Name} {d : NameMap α} {hops : NameMap Name}
  {target : Reached α}

/-- When a link hands a first hop on. -/
theorem handedOn_eq_some_iff {l : Link α} {hop : Name} :
    handedOn d source hops target l = some hop ↔
      l.target = target.1 ∧ ∃ near, d[l.source]? = some near ∧
        (near + l.cost == target.2) = true ∧
        if l.source = source then target.1 = hop else hops[l.source]? = some hop := by
  unfold handedOn
  by_cases ht : l.target = target.1
  · cases hs : d[l.source]? with
    | none => simp [ht]
    | some near =>
      by_cases he : (near + l.cost == target.2) = true
      · by_cases hsource : l.source = source <;> simp [ht, he, hsource]
      · simp [ht, he]
  · simp [ht]

/-- What settling a router does: it has a hop, or no link hands one on, or it gets one that some
link hands on. -/
theorem settleHop_cases (links : List (Link α)) (d : NameMap α) (source : Name)
    (hops : NameMap Name) (target : Reached α) :
    (settleHop links d source hops target = hops ∧
      (target.1 ∈ hops ∨ ∀ l ∈ links, handedOn d source hops target l = none)) ∨
    ∃ l ∈ links, ∃ hop, handedOn d source hops target l = some hop ∧ target.1 ∉ hops ∧
      settleHop links d source hops target = hops.insert target.1 hop := by
  unfold settleHop
  by_cases hc : target.1 ∈ hops
  · simp [hc]
  · simp only [Std.ExtTreeMap.contains_iff_mem, hc, if_false]
    cases hlow : lowest? (links.filterMap (handedOn d source hops target)) with
    | none =>
      rw [lowest?_eq_none_iff, List.filterMap_eq_nil_iff] at hlow
      exact .inl ⟨rfl, .inr hlow⟩
    | some hop =>
      obtain ⟨l, hl, hhop⟩ := List.mem_filterMap.1 (lowest?_mem hlow)
      exact .inr ⟨l, hl, hop, hhop, not_false, rfl⟩

/-! ## Hops that are found are right -/

/-- Every router that has a hop is reached through it by a path that costs its distance. -/
def HopsLieOnPaths (links : List (Link α)) (source : Name) (d : NameMap α)
    (hops : NameMap Name) : Prop :=
  ∀ t hop, hops[t]? = some hop → ∃ c, d[t]? = some c ∧ PathVia links source hop t c

variable [PathArithmetic α]

/-- To settle the hop of a router keeps all hops on cheapest paths. -/
theorem HopsLieOnPaths.settleHop (hlinks : NonnegativeLinks links)
    (hd : IsDistanceTable links source d) (hhops : HopsLieOnPaths links source d hops)
    (ht : d[target.1]? = some target.2) :
    HopsLieOnPaths links source d (settleHop links d source hops target) := by
  rcases settleHop_cases links d source hops target with ⟨heq, -⟩ | ⟨l, hl, hop, hhop, -, heq⟩
  · rwa [heq]
  obtain ⟨htarget, near, hnear, hsum, hhop⟩ := handedOn_eq_some_iff.1 hhop
  have hnear0 := (hd.least hnear).path.nonneg hlinks
  have ht0 := (hd.least ht).path.nonneg hlinks
  rw [PathArithmetic.beq_iff_eq (PathArithmetic.add_nonneg hnear0 (hlinks l hl)) ht0] at hsum
  rw [heq]
  intro t hop' ht'
  rw [Std.ExtTreeMap.getElem?_insert] at ht'
  split at ht'
  · next hcmp =>
    obtain rfl := Std.LawfulEqCmp.eq_of_compare hcmp
    cases ht'
    refine ⟨target.2, ht, ?_⟩
    split at hhop
    · next hsource =>
      -- the source is at distance zero, so the link alone is the path
      have hzero : near = 0.0 :=
        (hd.least (hsource ▸ hnear)).unique hlinks (isLeastCost_source hlinks)
      rw [← hhop, ← hsum, hzero]
      exact .first hl hsource htarget
    · obtain ⟨near', hnear', hvia⟩ := hhops _ _ hhop
      rw [hnear] at hnear'
      cases hnear'
      rw [← hsum, ← htarget]
      exact hvia.step hl rfl
  · exact hhops t hop' ht'

/-! ## The tree of cheapest paths -/

omit [PathArithmetic α] in
/-- Of some routers with their distances one is nearest. -/
theorem exists_nearest [PathArithmetic α] {rs : List (Reached α)} (hne : rs ≠ [])
    (hrs : ∀ r ∈ rs, (0.0 : α) ≤ r.2) : ∃ r ∈ rs, ∀ r' ∈ rs, r.2 ≤ r'.2 := by
  induction rs with
  | nil => exact absurd rfl hne
  | cons r rs ih =>
    obtain ⟨hr, hrs⟩ := List.forall_mem_cons.1 hrs
    by_cases hnil : rs = []
    · subst hnil
      exact ⟨r, by simp, by simpa using PathArithmetic.le_refl hr⟩
    · obtain ⟨r₀, hr₀, hmin⟩ := ih hnil hrs
      rcases PathArithmetic.le_total hr (hrs r₀ hr₀) with hle | hle
      · refine ⟨r, by simp, ?_⟩
        rintro r' (_ | ⟨_, hr'⟩)
        · exact PathArithmetic.le_refl hr
        · exact PathArithmetic.le_trans hle (hmin r' hr')
      · refine ⟨r₀, by simp [hr₀], ?_⟩
        rintro r' (_ | ⟨_, hr'⟩)
        · exact hle
        · exact hmin r' hr'

/-- The routers to which links lead from the source each of which raises the distance by exactly
its cost. -/
inductive InTree (links : List (Link α)) (source : Name) (d : NameMap α) : Name → Prop where
  /-- The source is the root. -/
  | root : InTree links source d source
  /-- A link that leads on at exactly its cost. -/
  | step {l : Link α} {near : α} : InTree links source d l.source → l ∈ links →
      d[l.source]? = some near → d[l.target]? = some (near + l.cost) →
      InTree links source d l.target

/-- A path to a router outside the tree has a link that leaves the tree, and up to there it costs
no more. -/
theorem Path.exists_exit (hlinks : NonnegativeLinks links) {t : Name} {c : α}
    (h : Path links source t c) (ht : ¬ InTree links source d t) :
    ∃ l ∈ links, ∃ p, Path links source l.source p ∧ InTree links source d l.source ∧
      ¬ InTree links source d l.target ∧ p + l.cost ≤ c := by
  induction h with
  | here => exact absurd .root ht
  | @step middle c l hp hl hm ih =>
    subst hm
    have hsum := PathArithmetic.add_nonneg (hp.nonneg hlinks) (hlinks l hl)
    by_cases hmid : InTree links source d l.source
    · exact ⟨l, hl, c, hp, hmid, ht, PathArithmetic.le_refl hsum⟩
    · obtain ⟨l', hl', p, hp', hin, hout, hle⟩ := ih hmid
      exact ⟨l', hl', p, hp', hin, hout,
        PathArithmetic.le_trans hle (PathArithmetic.le_add (hp.nonneg hlinks) (hlinks l hl))⟩

/-- The tree spans the routers that are reached. Of those outside it one would be nearest; a
cheapest path to it leaves the tree at a link whose end is no farther, hence at exactly that
distance, and so belongs to the tree. -/
theorem IsDistanceTable.inTree (hlinks : NonnegativeLinks links)
    (hd : IsDistanceTable links source d) {t : Name} {c : α} (ht : d[t]? = some c) :
    InTree links source d t := by
  classical
  by_contra hout
  let outside := d.toList.filter fun r => ¬ InTree links source d r.1
  have mem_outside : ∀ r : Reached α, r ∈ outside ↔
      d[r.1]? = some r.2 ∧ ¬ InTree links source d r.1 := by
    rintro ⟨v, far⟩
    simp [outside, Std.ExtTreeMap.mem_toList_iff_getElem?_eq_some]
  have hne : outside ≠ [] := List.ne_nil_of_mem ((mem_outside (t, c)).2 ⟨ht, hout⟩)
  obtain ⟨⟨v, far⟩, hv, hnearest⟩ := exists_nearest hne fun r hr =>
    (hd.least ((mem_outside r).1 hr).1).path.nonneg hlinks
  obtain ⟨hfar, hvout⟩ := (mem_outside _).1 hv
  obtain ⟨l, hl, p, hp, hin, hexit, hle⟩ :=
    (hd.least hfar).path.exists_exit hlinks hvout
  obtain ⟨near, hnear⟩ := hd.reached hp
  have hnear0 := (hd.least hnear).path.nonneg hlinks
  have hway : Path links source l.target (near + l.cost) := (hd.least hnear).path.step hl rfl
  obtain ⟨far', hfar'⟩ := hd.reached hway
  -- Up to the link the path costs at least the distance of its start, and its end is no nearer than
  -- the nearest router outside.
  have hup : near + l.cost ≤ far' := by
    have hle₁ := PathArithmetic.add_le_add hnear0 ((hd.least hnear).le hp) (hlinks l hl)
    have hle₂ := hnearest (l.target, far') ((mem_outside _).2 ⟨hfar', hexit⟩)
    exact PathArithmetic.le_trans hle₁ (PathArithmetic.le_trans hle hle₂)
  have hsum := PathArithmetic.le_antisymm (PathArithmetic.add_nonneg hnear0 (hlinks l hl)) hup
    ((hd.least hfar').le hway)
  exact hexit (.step hin hl hnear (hsum ▸ hfar'))

end

/-! ## Passes -/

/-- What one pass over the routers makes of some hops. -/
def settlePass (links : List (Link α)) (d : NameMap α) (source : Name) (order : List (Reached α))
    (hops : NameMap Name) : NameMap Name :=
  order.foldl (settleHop links d source) hops

/-- The second table of hops is what the pass makes of the first when it is repeated until it
settles nothing more. -/
inductive PassesEnd (links : List (Link α)) (d : NameMap α) (source : Name)
    (order : List (Reached α)) : NameMap Name → NameMap Name → Prop where
  /-- A pass settles nothing. -/
  | done {hops : NameMap Name} : settlePass links d source order hops = hops →
      PassesEnd links d source order hops hops
  /-- A pass settles something, and the others follow. -/
  | again {hops last : NameMap Name} : settlePass links d source order hops ≠ hops →
      PassesEnd links d source order (settlePass links d source order hops) last →
      PassesEnd links d source order hops last

/-- Some routers are listed in an order when each router but the source is in it with its
distance. -/
def ListsReached (d : NameMap α) (source : Name) (order : List (Reached α)) : Prop :=
  ∀ r, r ∈ order ↔ d[r.1]? = some r.2 ∧ r.1 ≠ source

/-- Nothing is lost or added when a router is sorted in. -/
private theorem mem_insertNearer {a r : Reached α} {rs : List (Reached α)} :
    r ∈ insertNearer a rs ↔ r = a ∨ r ∈ rs := by
  induction rs with
  | nil => simp [insertNearer]
  | cons b rs ih =>
    unfold insertNearer
    split
    · simp
    · simp only [List.mem_cons, ih]
      tauto

/-- The routers by distance are those that are reached. -/
theorem listsReached_byDistance (d : NameMap α) (source : Name) :
    ListsReached d source (byDistance d source) := by
  have hmem : ∀ r (rs : List (Reached α)), r ∈ rs.foldr insertNearer [] ↔ r ∈ rs := by
    intro r rs
    induction rs with
    | nil => simp
    | cons a rs ih => rw [List.foldr_cons, mem_insertNearer, ih, List.mem_cons]
  rintro ⟨t, c⟩
  rw [byDistance, hmem]
  simp [Std.ExtTreeMap.mem_toList_iff_getElem?_eq_some]

section
variable {links : List (Link α)} {source : Name} {d : NameMap α} {hops last : NameMap Name}
  {order : List (Reached α)}

/-- A pass leaves the hops as they are, and then so does each of its steps, or there are more of
them. -/
theorem settlePass_cases (links : List (Link α)) (d : NameMap α) (source : Name)
    (order : List (Reached α)) (hops : NameMap Name) :
    (settlePass links d source order hops = hops ∧
      ∀ r ∈ order, settleHop links d source hops r = hops) ∨
    hops.size < (settlePass links d source order hops).size := by
  induction order generalizing hops with
  | nil => simp [settlePass]
  | cons r order ih =>
    have hcons : settlePass links d source (r :: order) hops =
      settlePass links d source order (settleHop links d source hops r) := rfl
    rw [hcons]
    rcases settleHop_cases links d source hops r with ⟨heq, -⟩ | ⟨_, _, hop, _, hnew, heq⟩
    · rw [heq]
      refine (ih hops).imp_left fun ⟨hall, hrest⟩ => ⟨hall, ?_⟩
      rintro r' (_ | ⟨_, hr'⟩)
      · exact heq
      · exact hrest r' hr'
    · refine .inr ?_
      rw [heq]
      -- A hop that is settled is never taken back, so the hops grow with the first one.
      have hsize : (hops.insert r.1 hop).size = hops.size + 1 := by
        rw [Std.ExtTreeMap.size_insert, if_neg (by simpa using hnew)]
      rcases ih (hops.insert r.1 hop) with ⟨hall, -⟩ | hlt
      · rw [hall, hsize]
        exact Nat.lt_succ_self _
      · omega

/-- A pass gives hops to routers in the order only. -/
theorem mem_settlePass {t : Name} (ht : t ∈ settlePass links d source order hops) :
    t ∈ hops ∨ t ∈ order.map (·.1) := by
  induction order generalizing hops with
  | nil => exact .inl ht
  | cons r order ih =>
    have ht' : t ∈ settlePass links d source order (settleHop links d source hops r) := ht
    rcases ih ht' with h | h
    · rcases settleHop_cases links d source hops r with ⟨heq, -⟩ | ⟨_, _, hop, _, -, heq⟩
      · exact .inl (heq ▸ h)
      · rw [heq, Std.ExtTreeMap.mem_insert, Std.LawfulEqCmp.compare_eq_iff_eq] at h
        rcases h with rfl | h
        · simp
        · exact .inl h
    · exact .inr (List.mem_cons_of_mem _ h)

omit [Scalar α] in
/-- Hops of routers in an order are no more than these. -/
theorem size_le_of_subset_order (h : ∀ t ∈ hops, t ∈ order.map (·.1)) :
    hops.size ≤ order.length := by
  have hsub : hops.keys ⊆ order.map (·.1) := fun t ht => h t (Std.ExtTreeMap.mem_keys.1 ht)
  have := (List.subperm_of_subset Std.ExtTreeMap.nodup_keys hsub).length_le
  rwa [Std.ExtTreeMap.length_keys, List.length_map] at this

/-- The repetition ends within the bound: every pass but the last one settles a router. -/
theorem passesEnd_settleHops (hops : NameMap Name) (hsub : ∀ t ∈ hops, t ∈ order.map (·.1))
    {passes : Nat} (hp : order.length < hops.size + passes) :
    PassesEnd links d source order hops (settleHops links d source order passes hops) := by
  induction passes generalizing hops with
  | zero =>
    have := size_le_of_subset_order hsub
    omega
  | succ passes ih =>
    have hnext : order.foldl (settleHop links d source) hops =
      settlePass links d source order hops := rfl
    rw [settleHops, hnext]
    rcases settlePass_cases links d source order hops with ⟨hall, -⟩ | hlt
    · rw [if_pos (by rw [hall])]
      exact .done hall
    · rw [if_neg (by omega)]
      refine .again (fun h => ?_) (ih _ (fun t ht => ?_) (by omega))
      · rw [h] at hlt
        exact Nat.lt_irrefl _ hlt
      · exact (mem_settlePass ht).elim (hsub t) id

/-- Where the repetition ends no step of a pass settles anything. -/
theorem PassesEnd.settled (h : PassesEnd links d source order hops last) :
    ∀ r ∈ order, settleHop links d source last r = last := by
  induction h with
  | @done hops hall =>
    rcases settlePass_cases links d source order hops with ⟨-, hstep⟩ | hlt
    · exact hstep
    · rw [hall] at hlt
      exact absurd hlt (Nat.lt_irrefl _)
  | again _ _ ih => exact ih

/-- Only routers in the order get a hop. -/
theorem PassesEnd.mem_order (h : PassesEnd links d source order hops last)
    (hsub : ∀ t ∈ hops, t ∈ order.map (·.1)) : ∀ t ∈ last, t ∈ order.map (·.1) := by
  induction h with
  | done => exact hsub
  | again _ _ ih => exact ih fun t ht => (mem_settlePass ht).elim (hsub t) id

variable [PathArithmetic α]

/-- A pass keeps all hops on cheapest paths. -/
theorem HopsLieOnPaths.settlePass (hlinks : NonnegativeLinks links)
    (hd : IsDistanceTable links source d) (hhops : HopsLieOnPaths links source d hops)
    (horder : ∀ r ∈ order, d[r.1]? = some r.2) :
    HopsLieOnPaths links source d (settlePass links d source order hops) := by
  induction order generalizing hops with
  | nil => exact hhops
  | cons r order ih =>
    obtain ⟨hr, horder⟩ := List.forall_mem_cons.1 horder
    exact ih (hhops.settleHop hlinks hd hr) horder

/-- When the passes are over, all hops are on cheapest paths. -/
theorem PassesEnd.hopsLieOnPaths (hlinks : NonnegativeLinks links)
    (hd : IsDistanceTable links source d) (horder : ∀ r ∈ order, d[r.1]? = some r.2)
    (h : PassesEnd links d source order hops last) (hhops : HopsLieOnPaths links source d hops) :
    HopsLieOnPaths links source d last := by
  induction h with
  | done => exact hhops
  | again _ _ ih => exact ih (hhops.settlePass hlinks hd horder)

/-- When no step settles anything, every router of the tree has a hop: along the tree, each router
would be handed one by the router before it. -/
theorem mem_of_inTree (hlinks : NonnegativeLinks links) (hd : IsDistanceTable links source d)
    (horder : ListsReached d source order)
    (hsettled : ∀ r ∈ order, settleHop links d source hops r = hops) {t : Name}
    (ht : InTree links source d t) (hne : t ≠ source) : t ∈ hops := by
  induction ht with
  | root => exact absurd rfl hne
  | @step l near hin hl hnear hfar ih =>
    have hstep := hsettled (l.target, near + l.cost) ((horder _).2 ⟨hfar, hne⟩)
    have hsum0 := (hd.least hfar).path.nonneg hlinks
    have hbeq := (PathArithmetic.beq_iff_eq hsum0 hsum0).2 rfl
    -- the link hands on some hop, so the step would insert one
    obtain ⟨hop, hhop⟩ :
        ∃ hop, handedOn d source hops (l.target, near + l.cost) l = some hop := by
      by_cases hs : l.source = source
      · exact ⟨l.target, handedOn_eq_some_iff.2 ⟨rfl, near, hnear, hbeq, by simp [hs]⟩⟩
      · obtain ⟨hop, hhop⟩ := Option.isSome_iff_exists.1
          (Std.ExtTreeMap.isSome_getElem?_iff_mem.2 (ih hs))
        exact ⟨hop, handedOn_eq_some_iff.2 ⟨rfl, near, hnear, hbeq, by simpa [hs] using hhop⟩⟩
    rcases settleHop_cases links d source hops (l.target, near + l.cost) with
      ⟨-, hmem | hnone⟩ | ⟨_, _, hop', _, hnew, heq⟩
    · exact hmem
    · rw [hnone l hl] at hhop
      cases hhop
    · rw [← hstep, heq]
      simp

end

end AdaptiveRouting
