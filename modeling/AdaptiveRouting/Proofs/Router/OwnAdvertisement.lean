import AdaptiveRouting.Proofs.Router.CatchingUp
import AdaptiveRouting.Proofs.Router.Determinacy

/-!
# Whether the own adjacency advertisement is in force

The selector knows this from two sources that can be out of step: a calculation looks into the
database, while a change is heard of at some later time and then takes the word of the calculation
back. So the selector may be wrong for a while, and a calculation may even set right what an old
change sets wrong again (`Overtaken`).

What it knows is right whenever no change about the own advertisement is left to be heard of, since
the last one that it hears of is true of the database (`Subscriber.FollowsOwn`). And what it knows
governs the table: as long as the selector takes the advertisement not to be in force, the table is
empty, and so is the version that was published last (`Router.Reachable.table_of_unadvertised`).
-/

namespace AdaptiveRouting

variable {α τ : Type}

/-! ## Edits of the database -/

/-- What somebody does to the database. -/
inductive Edit (α : Type) where
  | installAdjacency (origin : Name) (neighbors : List (Name × α))
  | installCoordinate (origin : Name) (coordinate : Coordinate α)
  | remove (origin : Name) (kind : AdvertisementKind)

namespace Database

/-- What an edit reports, if anything, and what it makes of the database. -/
def edit (d : Database α) : Edit α → Option Change × Database α
  | .installAdjacency origin neighbors => (d.installAdjacency origin neighbors).map some id
  | .installCoordinate origin coordinate => (d.installCoordinate origin coordinate).map some id
  | .remove origin kind => d.remove origin kind

/-- An edit reports nothing and changes nothing, or it reports the truth about the adjacency
advertisement of any router, and leaves it alone if it reports nothing about it. -/
theorem edit_cases (d : Database α) (e : Edit α) (router : Name) : d.edit e = (none, d) ∨
    ∃ c d', d.edit e = (some c, d') ∧
      (c.origin = router ∧ c.advertisement = .adjacency →
        (c.kind = .removed ↔ d'.has router .adjacency = false)) ∧
      (¬ (c.origin = router ∧ c.advertisement = .adjacency) →
        d'.has router .adjacency = d.has router .adjacency) := by
  cases e with
  | installAdjacency origin neighbors =>
    refine .inr ⟨_, _, rfl, fun hadjacency => ?_, fun hother => ?_⟩
    · obtain rfl : origin = router := hadjacency.1
      simp [kind_arrival_ne_removed, has]
    · have hne : origin ≠ router := fun h => hother ⟨h, rfl⟩
      simp [has, hne]
  | installCoordinate origin coordinate =>
    refine .inr ⟨_, _, rfl, fun hadjacency => ?_, fun _ => rfl⟩
    cases hadjacency.2
  | remove origin kind =>
    cases hhas : d.has origin kind with
    | false => exact .inl (by simp [edit, remove, hhas])
    | true =>
      refine .inr ⟨_, _, if_pos hhas, ?_, ?_⟩
      · rintro ⟨rfl, rfl⟩
        simp [has]
      · intro hother
        cases kind with
        | adjacency =>
          have hne : origin ≠ router := fun h => hother ⟨h, rfl⟩
          simp [has, hne]
        | coordinate | name => rfl

end Database

/-! ## Without the own advertisement the table is empty -/

namespace Router

/-- Of a change that is noticed the selector follows what is its own. -/
theorem selector_notice (r : Router α τ) (c : Change) :
    (r.notice c).selector = r.selector.followOwn c := by
  unfold notice
  dsimp only
  split <;> rfl

section
variable [Scalar α]

/-- A calculation, and hearing of a loss, empty the table when they take the own advertisement not
to be in force; nothing else takes back that it is. -/
theorem emptied_apply {r : Router α τ} (hfaithful : r.selector.Faithful)
    (h : r.selector.advertised = false → r.selector.table = .empty) (move : Move α τ) :
    (r.apply move).selector.advertised = false → (r.apply move).selector.table = .empty := by
  have calculated : ∀ {r : Router α τ}, r.selector.Faithful →
      (r.selector.advertised = false → r.selector.table = .empty) →
      r.calculate.selector.advertised = false → r.calculate.selector.table = .empty := by
    intro r hfaithful h
    cases hpending : r.monitor.rebuild.pending with
    | true => rwa [calculate, if_pos hpending]
    | false =>
      obtain ⟨_, _, hselector⟩ := selector_calculate hfaithful hpending
      rw [hselector]
      intro hnone
      exact if_neg (by simpa using hnone)
  cases move with
  | hear c =>
    show (r.notice c).selector.advertised = false → (r.notice c).selector.table = .empty
    rw [selector_notice, Selector.followOwn]
    split
    · cases c.kind with
      | removed => exact fun _ => rfl
      | installed | updated => exact fun hnone => by cases hnone
    · exact h
  | poll =>
    show r.poll.2.selector.advertised = false → r.poll.2.selector.table = .empty
    unfold poll
    split
    · exact h
    · next schedule _ => exact calculated (r := r.onSchedule fun _ => schedule) hfaithful h
  | calculate => exact calculated hfaithful h
  | request | gainCosts | surround monitor database => exact h

/-- Whatever a router has been through, it has no routes when it takes the own advertisement not to
be in force. -/
theorem Reachable.table_of_unadvertised {settings : RoutingSettings} {r : Router α τ}
    (h : Reachable settings r) (hnone : r.selector.advertised = false) :
    r.selector.table = .empty := by
  induction h with
  | fresh => rfl
  | apply move hr ih => exact emptied_apply hr.faithful ih move hnone

end

end Router

/-! ## Runs -/

/-- What can happen to a router and its database. -/
inductive Incident (α τ : Type) where
  | edit (e : Edit α)
  /-- The selector hears of the oldest change. -/
  | deliver
  | requestCalculation
  | poll
  /-- A calculation that nobody has scheduled. -/
  | calculate
  /-- The selector gets access to the costs. -/
  | gainCosts
  /-- The monitor becomes what others make of it; rebuilds are requested and carried out, time
  passes. -/
  | surround (monitor : Monitor α (HookMemory α τ))

namespace Subscriber

/-- Edits the database; what is reported is yet to be heard of. -/
def edit (s : Subscriber α τ) (e : Edit α) : Subscriber α τ where
  router := { s.router with database := (s.router.database.edit e).2 }
  unheard := s.unheard ++ (s.router.database.edit e).1.toList

/-- A router whose selector has just been made. The subscription to the database is older, and what
has been done to the database since is yet to be heard of. -/
def subscribed (monitor : Monitor α (HookMemory α τ)) (settings : RoutingSettings)
    (learning : LearningSettings α) (hasCosts : Bool) (database : Database α)
    (before : List (Edit α)) : Subscriber α τ :=
  let s := before.foldl edit ⟨⟨monitor, database, .fresh settings learning hasCosts database⟩, []⟩
  { s with router.selector := .fresh settings learning hasCosts s.router.database }

section
variable [Scalar α]

def meet (s : Subscriber α τ) : Incident α τ → Subscriber α τ
  | .edit e => s.edit e
  | .deliver => s.deliver
  | .requestCalculation => { s with router := s.router.requestCalculation }
  | .poll => { s with router := s.router.poll.2 }
  | .calculate => { s with router := s.router.calculate }
  | .gainCosts => { s with router.selector.hasCosts := true }
  | .surround monitor => { s with router.monitor := monitor }

/-- What a list of incidents makes of a router. -/
def meetAll (s : Subscriber α τ) (incidents : List (Incident α τ)) : Subscriber α τ :=
  incidents.foldl meet s

/-- The incidents are moves of the router. -/
theorem reachable_meet {settings : RoutingSettings} {s : Subscriber α τ}
    (h : Router.Reachable settings s.router) (i : Incident α τ) :
    Router.Reachable settings (s.meet i).router := by
  cases i with
  | edit e => exact h.apply (.surround s.router.monitor (s.router.database.edit e).2)
  | deliver =>
    show Router.Reachable settings s.deliver.router
    unfold deliver
    split
    · exact h
    · next c _ _ => exact h.apply (.hear c)
  | requestCalculation => exact h.apply .request
  | poll => exact h.apply .poll
  | calculate => exact h.apply .calculate
  | gainCosts => exact h.apply .gainCosts
  | surround monitor => exact h.apply (.surround monitor s.router.database)

/-- Incidents lead to a router that can be reached. -/
theorem reachable_meetAll {settings : RoutingSettings} {s : Subscriber α τ}
    (h : Router.Reachable settings s.router) (incidents : List (Incident α τ)) :
    Router.Reachable settings (s.meetAll incidents).router := by
  induction incidents generalizing s with
  | nil => exact h
  | cons i incidents ih => exact ih (reachable_meet h i)

end

/-! ## Following the own advertisement -/

variable {s : Subscriber α τ}

/-- An edit of the database is the last word on what it changes. -/
theorem LastWord.edit (h : s.LastWord) (e : Edit α) : (s.edit e).LastWord := by
  rcases s.router.database.edit_cases e s.self with hsame | ⟨c, d', hedit, hown, hother⟩
  · have hs : s.edit e = s := by simp [Subscriber.edit, hsame]
    rwa [hs]
  · have hs : s.edit e = s.change (c, d') := by simp [Subscriber.edit, Subscriber.change, hedit]
    rw [hs]
    refine h.change (fun hc => hown ((Selector.isOwn_iff _ _).1 hc)) fun hc => hother ?_
    rw [← Bool.not_eq_true, Selector.isOwn_iff] at hc
    exact hc

/-- When the selector is made, the last change that it has not heard of is true. -/
theorem lastWord_subscribed (monitor : Monitor α (HookMemory α τ)) (settings : RoutingSettings)
    (learning : LearningSettings α) (hasCosts : Bool) (database : Database α)
    (before : List (Edit α)) :
    (subscribed monitor settings learning hasCosts database before).LastWord := by
  -- the selector is made anew at the end, with the settings that it has had all along
  suffices hedits : ∀ s : Subscriber α τ, s.router.selector.settings = settings → s.LastWord →
      (before.foldl edit s).router.selector.settings = settings ∧
      (before.foldl edit s).LastWord by
    obtain ⟨hsettings, hword⟩ := hedits ⟨⟨monitor, database, .fresh settings learning hasCosts
      database⟩, []⟩ rfl (fun c hc => by cases hc)
    intro c hc
    unfold LastWord self at hword
    rw [Selector.isOwn_congr (t := (subscribed monitor settings learning hasCosts database
      before).router.selector) hsettings, hsettings] at hword
    exact hword c hc
  induction before with
  | nil => exact fun _ hsettings h => ⟨hsettings, h⟩
  | cons e before ih => exact fun s hsettings h => ih (s.edit e) hsettings (h.edit e)

/-- What the selector knows of the own adjacency advertisement: the last change that it has not
heard of is true of the database, and without one it knows the truth. -/
structure FollowsOwn (s : Subscriber α τ) : Prop where
  lastWord : s.LastWord
  heard : s.unheard.filter s.router.selector.isOwn = [] →
    s.router.selector.advertised = s.router.database.has s.self .adjacency

/-- An edit leaves the selector to follow. -/
theorem FollowsOwn.edit (h : s.FollowsOwn) (e : Edit α) : (s.edit e).FollowsOwn := by
  refine ⟨h.lastWord.edit e, fun hnone => ?_⟩
  change (s.unheard ++ (s.router.database.edit e).1.toList).filter _ = [] at hnone
  show s.router.selector.advertised = (s.router.database.edit e).2.has s.self .adjacency
  rw [List.filter_append, List.append_eq_nil_iff] at hnone
  obtain ⟨hbefore, hnew⟩ := hnone
  rw [h.heard hbefore]
  rcases s.router.database.edit_cases e s.self with hsame | ⟨c, d', hedit, -, hother⟩
  · rw [hsame]
  · rw [hedit] at hnew ⊢
    refine (hother fun hown => ?_).symm
    have hc : s.router.selector.isOwn c = true := (Selector.isOwn_iff _ _).2 hown
    simp [Subscriber.edit, hc] at hnew

/-- When the last change is heard of that is about the own advertisement, the selector knows what
this change says. -/
theorem FollowsOwn.deliver (h : s.FollowsOwn) : s.deliver.FollowsOwn := by
  refine ⟨h.lastWord.deliver, ?_⟩
  unfold Subscriber.deliver
  split
  · exact h.heard
  · next c rest hunheard =>
    have hbasis := s.router.sameBasis_notice c
    dsimp only
    unfold self
    rw [Selector.isOwn_congr hbasis.settings, hbasis.database, hbasis.settings,
      Router.selector_notice]
    -- If another change about the own advertisement is yet to be heard of, nothing is claimed.
    intro hrest
    cases hown : s.router.selector.isOwn c with
    | false =>
      rw [Selector.followOwn, if_neg (by simp [hown])]
      exact h.heard (by rw [hunheard, List.filter_cons_of_neg (by simp [hown]), hrest])
    | true =>
      have hlast := h.lastWord c (by rw [hunheard, List.filter_cons_of_pos hown, hrest]; rfl)
      rw [Selector.followOwn, if_pos hown]
      cases hkind : c.kind with
      | removed => exact (hlast.1 hkind).symm
      | installed | updated =>
        refine (eq_true_of_ne_false fun hnone => ?_).symm
        exact absurd (hlast.2 hnone) (by simp [hkind])

section
variable [Scalar α]

/-- A calculation sees the truth, if it looks at all. -/
theorem FollowsOwn.calculate {r : Router α τ} {unheard : List Change}
    (hfaithful : r.selector.Faithful) (h : FollowsOwn ⟨r, unheard⟩) :
    FollowsOwn ⟨r.calculate, unheard⟩ := by
  have hbasis := r.sameBasis_calculate
  cases hpending : r.monitor.rebuild.pending with
  | true => rwa [Router.calculate, if_pos hpending]
  | false =>
    refine ⟨?_, fun _ => ?_⟩
    · have hword := h.lastWord
      unfold LastWord self at hword ⊢
      dsimp only at hword ⊢
      rwa [Selector.isOwn_congr hbasis.settings, hbasis.settings, hbasis.database]
    · obtain ⟨_, _, hselector⟩ := Router.selector_calculate hfaithful hpending
      unfold self
      dsimp only
      rw [hbasis.settings, hbasis.database, hselector]

/-- An incident leaves the selector to follow. -/
theorem FollowsOwn.meet (hfaithful : s.router.selector.Faithful) (h : s.FollowsOwn)
    (i : Incident α τ) : (s.meet i).FollowsOwn := by
  cases i with
  | edit e => exact h.edit e
  | deliver => exact h.deliver
  | calculate => exact FollowsOwn.calculate hfaithful h
  | poll =>
    show FollowsOwn { s with router := s.router.poll.2 }
    unfold Router.poll
    split
    · exact h
    · next schedule _ =>
      have hbegun : FollowsOwn ⟨s.router.onSchedule fun _ => schedule, s.unheard⟩ :=
        ⟨h.lastWord, h.heard⟩
      obtain ⟨hword, hheard⟩ := FollowsOwn.calculate
        (r := s.router.onSchedule fun _ => schedule) hfaithful hbegun
      exact ⟨hword, hheard⟩
  | requestCalculation | gainCosts | surround monitor => exact ⟨h.lastWord, h.heard⟩

/-- The selector follows along any incidents. -/
theorem FollowsOwn.meetAll {settings : RoutingSettings}
    (hreachable : Router.Reachable settings s.router) (h : s.FollowsOwn)
    (incidents : List (Incident α τ)) : (s.meetAll incidents).FollowsOwn := by
  induction incidents generalizing s with
  | nil => exact h
  | cons i incidents ih => exact ih (reachable_meet hreachable i) (h.meet hreachable.faithful i)

/-- **The selector knows whether the own adjacency advertisement is in force.** Let the database be
edited in any way, by anybody, let the selector hear of each change at some later time and in order,
and let calculations and rebuilds go on meanwhile; the subscription may be older than the selector.
Whenever every change has been heard of, the selector knows whether the own adjacency advertisement
is in force; and at all times when it takes it not to be in force, its tables are empty, and so is
the version that was published last, if any. -/
theorem own_advertisement_followed (monitor : Monitor α (HookMemory α τ))
    (settings : RoutingSettings) (learning : LearningSettings α) (hasCosts : Bool)
    (database : Database α) (before : List (Edit α)) (incidents : List (Incident α τ)) :
    let s := (subscribed monitor settings learning hasCosts database before).meetAll incidents
    (s.unheard = [] →
      s.router.selector.advertised = s.router.database.has settings.router .adjacency) ∧
    (s.router.selector.advertised = false →
      s.router.selector.table = .empty ∧
      ∀ version, s.router.selector.published.getLast? = some version → version = ⟨[], []⟩) := by
  intro s
  have hstart : Router.Reachable settings
      (subscribed monitor settings learning hasCosts database before).router := .fresh _ _ _ _
  have hfollows : s.FollowsOwn := FollowsOwn.meetAll hstart
    ⟨lastWord_subscribed monitor settings learning hasCosts database before, fun _ => rfl⟩ incidents
  have hreachable : Router.Reachable settings s.router := reachable_meetAll hstart incidents
  refine ⟨fun hheard => ?_, fun hnone => ?_⟩
  · have hadvertised := hfollows.heard (by rw [hheard, List.filter_nil])
    rwa [self, hreachable.settings_eq] at hadvertised
  · have htable := hreachable.table_of_unadvertised hnone
    refine ⟨htable, fun version hversion => ?_⟩
    rw [hreachable.faithful.latest hversion, htable]
    rfl

end

end Subscriber

namespace Overtaken

/-- This router. -/
def self : Name := RoutingSettings.standard.router

/-- A router whose own advertisement was put in force before it had a selector. -/
def router : Subscriber Float Unit :=
  .subscribed (.idle Surroundings.quiet .standard ⟨none, ()⟩) .standard .standard true .empty
    [.installAdjacency self []]

/-- A calculation finds the removal before it is heard of, and the old change is heard of then. -/
def incidents : List (Incident Float Unit) :=
  [.edit (.remove self .adjacency), .calculate, .deliver]

/-- The old change takes back what the calculation has found, until the removal is heard of too. -/
theorem set_right_at_last :
    ((router.meetAll incidents).unheard = [⟨.removed, .adjacency, self⟩] ∧
      (router.meetAll incidents).router.selector.advertised = true ∧
      (router.meetAll incidents).router.database.has self .adjacency = false) ∧
    (router.meetAll (incidents ++ [.deliver])).router.selector.advertised = false ∧
    (router.meetAll (incidents ++ [.deliver])).router.selector.table = .empty := by
  have hfollowed := Subscriber.own_advertisement_followed
    (.idle (Surroundings.quiet : Surroundings Float) .standard ⟨none, ()⟩) .standard .standard true
    .empty [.installAdjacency self []] (incidents ++ [.deliver])
  have hnone : (router.meetAll (incidents ++ [.deliver])).router.selector.advertised = false :=
    hfollowed.1 rfl
  exact ⟨⟨rfl, rfl, rfl⟩, hnone, (hfollowed.2 hnone).1⟩

end Overtaken

end AdaptiveRouting
