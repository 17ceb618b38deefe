import AdaptiveRouting.Proofs.Monitor.Runs
import AdaptiveRouting.Proofs.Router.Steps
import Mathlib.Data.List.Induction

/-!
# The routing table catches up with the advertisements

A `Subscriber` is a router together with the changes in its database that its selector has not
heard of. Changes are heard one at a time and in order, so the last one about the own adjacency
advertisement says whether that is in force (`Subscriber.LastWord`).

A table is up to date when it lists the routes of the mode. When it is not, a calculation is
awaited, scheduled or yet to be asked for by a change that is relevant (`Subscriber.Awaits`),
unless the table has been disturbed: a calculation that was due was turned away, or the selector
heard that the own adjacency advertisement was removed. When the mode uses adjacency advertisements,
a disturbance passes by itself: as soon as the router is ready again, there has been a relevant
change (`Subscriber.current_or_unready_run`). In the mode `on`, the table stays behind until
somebody asks for a calculation, or a coordinate changes. So when nothing is left to be heard or
calculated, the table is up to date in the modes `off` and `dryRun`, and in the mode `on` if every
disturbance has been followed by a calculation (`Subscriber.table_catches_up`).
-/

namespace AdaptiveRouting

variable {α τ : Type}

/-- A router whose selector hears of changes in the database late, but of all of them in order. -/
structure Subscriber (α τ : Type) where
  router : Router α τ
  /-- The changes that the selector has not heard of, oldest first. -/
  unheard : List Change

/-- What can happen to a router that does not acquire or lose neighbors. -/
inductive Event (α : Type) where
  | installAdjacency (origin : Name) (neighbors : List (Name × α))
  | installCoordinate (origin : Name) (coordinate : Coordinate α)
  /-- The own adjacency advertisement is removed. -/
  | removeOwn
  | requestRebuild
  /-- The own adjacency advertisement is put in force anew. -/
  | completeRebuild (neighbors : List (Name × α))
  /-- The selector hears of the oldest change. -/
  | deliver
  | requestCalculation
  | advance (elapsed : Duration)
  | poll

namespace Subscriber

/-- A router without advertisements. -/
def starting (monitor : Monitor α (HookMemory α τ)) (settings : RoutingSettings)
    (learning : LearningSettings α) (hasCosts : Bool) : Subscriber α τ where
  router := ⟨monitor, .empty, .fresh settings learning hasCosts .empty⟩
  unheard := []

def onMonitor (s : Subscriber α τ) (f : MonitorState α → MonitorState α) : Subscriber α τ :=
  { s with router.monitor := s.router.monitor.act f }

/-- Changes the database; the change is yet to be heard of. -/
def change (s : Subscriber α τ) (c : Change × Database α) : Subscriber α τ where
  router := { s.router with database := c.2 }
  unheard := s.unheard ++ [c.1]

/-- This router. -/
def self (s : Subscriber α τ) : Name := s.router.selector.settings.router

def removeOwn (s : Subscriber α τ) : Subscriber α τ :=
  match s.router.database.remove s.self .adjacency with
  | (none, _) => s
  | (some c, database) => s.change (c, database)

def deliver (s : Subscriber α τ) : Subscriber α τ :=
  match s.unheard with
  | [] => s
  | c :: rest => ⟨s.router.notice c, rest⟩

/-- Notes that the rebuild is done. -/
def endRebuild (s : Subscriber α τ) : Subscriber α τ :=
  s.onMonitor fun m => { m with rebuild := m.rebuild.complete.2 }

def completeRebuild (s : Subscriber α τ) (neighbors : List (Name × α)) : Subscriber α τ :=
  s.endRebuild.change (s.endRebuild.router.database.installAdjacency s.self neighbors)

section
variable [Scalar α]

def apply (s : Subscriber α τ) : Event α → Subscriber α τ
  | .installAdjacency origin neighbors =>
    s.change (s.router.database.installAdjacency origin neighbors)
  | .installCoordinate origin coordinate =>
    s.change (s.router.database.installCoordinate origin coordinate)
  | .removeOwn => s.removeOwn
  | .requestRebuild => s.onMonitor fun m => { m with rebuild := m.rebuild.request }
  | .completeRebuild neighbors => s.completeRebuild neighbors
  | .deliver => s.deliver
  | .requestCalculation => { s with router := s.router.requestCalculation }
  | .advance elapsed => s.onMonitor fun m => { m with clock := m.clock.advance elapsed }
  | .poll => { s with router := s.router.poll.2 }

/-- What a list of events makes of a router. -/
def run (s : Subscriber α τ) (events : List (Event α)) : Subscriber α τ := events.foldl apply s

/-- The steps of a run: each event with the state that it finds. -/
def steps (s : Subscriber α τ) : List (Event α) → List (Subscriber α τ × Event α)
  | [] => []
  | e :: events => (s, e) :: (s.apply e).steps events

@[simp] theorem run_append_singleton (s : Subscriber α τ) (events : List (Event α)) (e : Event α) :
    s.run (events ++ [e]) = (s.run events).apply e := List.foldl_concat ..

/-- One more event adds one more step. -/
theorem steps_append_singleton (s : Subscriber α τ) (events : List (Event α)) (e : Event α) :
    s.steps (events ++ [e]) = s.steps events ++ [(s.run events, e)] := by
  induction events generalizing s with
  | nil => rfl
  | cons first events ih => rw [List.cons_append, steps, steps, ih]; rfl

end

/-! ## What is to be heard and calculated -/

/-- Whether the selector would hear now that the own adjacency advertisement was removed. -/
def hearsLoss (s : Subscriber α τ) : Bool :=
  s.unheard.head?.any s.router.selector.losesOwn

/-- Whether an event is a calculation that comes to nothing or news that empties the table. -/
def disturbs (s : Subscriber α τ) : Event α → Bool
  | .deliver => s.hearsLoss
  | .poll => s.router.isDue && !s.router.isReady
  | _ => false

/-- Whether an event is a calculation that is carried out. -/
def calculates (s : Subscriber α τ) : Event α → Bool
  | .poll => s.router.isDue && s.router.isReady
  | _ => false

/-- A calculation is scheduled or will be asked for. -/
def Awaits (s : Subscriber α τ) : Prop :=
  s.router.monitor.schedule.phase ≠ .idle ∨ ∃ c ∈ s.unheard, s.router.selector.isRelevant c = true

/-- The last change about the own adjacency advertisement that is yet to be heard of says whether
it is in force. -/
def LastWord (s : Subscriber α τ) : Prop :=
  ∀ c, (s.unheard.filter s.router.selector.isOwn).getLast? = some c →
    (c.kind = .removed ↔ s.router.database.has s.self .adjacency = false)

/-- Everything has been heard of, nothing is to be calculated or rebuilt, and the own adjacency
advertisement is in force. -/
structure Quiet (s : Subscriber α τ) : Prop where
  heard : s.unheard = []
  idle : s.router.monitor.schedule.phase = .idle
  ready : s.router.isReady = true

/-- A quiet router does not await a calculation. -/
theorem Quiet.not_awaits {s : Subscriber α τ} (h : s.Quiet) : ¬ s.Awaits := by
  rintro (hphase | ⟨c, hc, -⟩)
  · exact hphase h.idle
  · simp [h.heard] at hc

section
variable [Scalar α]

/-- The table is up to date, or a calculation is awaited. -/
def Current (s : Subscriber α τ) : Prop := s.router.listed = s.router.routes ∨ s.Awaits

/-- Every disturbance in a run was followed by a calculation. -/
def Undisturbed (s : Subscriber α τ) (events : List (Event α)) : Prop :=
  ∀ before step after, s.steps events = before ++ step :: after →
    step.1.disturbs step.2 = true → ∃ later ∈ after, later.1.calculates later.2 = true

end

/-! ## Steps -/

variable {s : Subscriber α τ}

/-! ### Hearing of a change -/

/-- A router that awaits a calculation still does after hearing of a change. -/
theorem awaits_deliver (h : s.Awaits) : s.deliver.Awaits := by
  unfold deliver
  split
  · exact h
  · next c rest hunheard =>
    rcases h with hphase | ⟨c', hc', hrelevant⟩
    · exact .inl (Router.phase_notice c hphase)
    · rw [hunheard] at hc'
      rcases List.mem_cons.1 hc' with rfl | hrest
      · exact .inl (Router.phase_notice_of_relevant hrelevant)
      · refine .inr ⟨c', hrest, ?_⟩
        rw [Selector.isRelevant_congr (s.router.sameBasis_notice c).settings, hrelevant]

/-- To hear of a change is not to change anything that calculations depend on. -/
theorem sameBasis_deliver (s : Subscriber α τ) : s.router.SameBasis s.deliver.router := by
  unfold deliver
  split
  · exact .refl _
  · exact s.router.sameBasis_notice _

/-- The entries stay in force unless the loss of the own advertisement is heard of. -/
theorem listed_deliver (h : s.hearsLoss = false) : s.deliver.router.listed = s.router.listed := by
  unfold deliver
  split
  · rfl
  · next c rest hunheard =>
    rw [hearsLoss, hunheard] at h
    exact Router.listed_notice h

/-! ### Changes in the database -/

/-- A router that awaits a calculation still does after another change of the database. -/
theorem awaits_change (h : s.Awaits) (c : Change × Database α) : (s.change c).Awaits := by
  rcases h with hphase | ⟨c', hc', hrelevant⟩
  · exact .inl hphase
  · exact .inr ⟨c', List.mem_append_left _ hc', hrelevant⟩

/-- A change that is relevant will have a calculation asked for. -/
theorem awaits_change_of_relevant {c : Change × Database α}
    (h : s.router.selector.isRelevant c.1 = true) : (s.change c).Awaits :=
  .inr ⟨c.1, List.mem_append_right _ (List.mem_singleton_self _), h⟩

section
variable [Scalar α]

/-- A table stays current when the routes stay the same or the change is relevant. -/
theorem Current.change (h : s.Current) {c : Change × Database α}
    (hc : s.router.selector.isRelevant c.1 = true ∨
      { s.router with database := c.2 }.routes = s.router.routes) : (s.change c).Current := by
  rcases hc with hrelevant | hroutes
  · exact .inr (awaits_change_of_relevant hrelevant)
  · rcases h with hlisted | hawaits
    · exact .inl (hlisted.trans hroutes.symm)
    · exact .inr (awaits_change hawaits c)

/-- After an adjacency advertisement the table is up to date or a calculation is awaited. -/
theorem Current.installAdjacency (h : s.Current) (origin : Name) (neighbors : List (Name × α)) :
    (s.change (s.router.database.installAdjacency origin neighbors)).Current := by
  refine h.change ?_
  by_cases hmode : s.router.selector.settings.hyperbolic = .on
  · exact .inr (by simp only [Router.routes, hmode]; rfl)
  · exact .inl ((Selector.isRelevant_arrival ..).trans (by simp [Selector.usesKind, hmode]))

/-- After a coordinate advertisement the table is up to date or a calculation is awaited. -/
theorem Current.installCoordinate (h : s.Current) (origin : Name) (coordinate : Coordinate α) :
    (s.change (s.router.database.installCoordinate origin coordinate)).Current := by
  refine h.change ?_
  by_cases hmode : s.router.selector.settings.hyperbolic = .off
  · exact .inr (by simp only [Router.routes, hmode]; rfl)
  · exact .inl ((Selector.isRelevant_arrival ..).trans (by simp [Selector.usesKind, hmode]))

/-- The table stays current if neither it nor the basis of calculations changes. -/
theorem Current.of_sameBasis {s' : Subscriber α τ} (h : s.Current)
    (hbasis : s.router.SameBasis s'.router) (hlisted : s'.router.listed = s.router.listed)
    (hawaits : s.Awaits → s'.Awaits) : s'.Current := by
  rcases h with hsame | hs
  · exact .inl ((hlisted.trans hsame).trans hbasis.routes.symm)
  · exact .inr (hawaits hs)

end

/-- A router is not ready once its own advertisement is removed, nor if there was none. -/
theorem isReady_removeOwn (s : Subscriber α τ) : s.removeOwn.router.isReady = false := by
  unfold removeOwn Database.remove
  cases hhas : s.router.database.has s.self .adjacency with
  | false => exact Bool.and_eq_false_iff.2 (.inr hhas)
  | true => simp [Router.isReady, Subscriber.change, Database.has, self]

/-! ### The last word -/

/-- The last word is kept when the change that is reported is true of the database. -/
theorem LastWord.change (h : s.LastWord) {c : Change × Database α}
    (hown : s.router.selector.isOwn c.1 = true →
      (c.1.kind = .removed ↔ c.2.has s.self .adjacency = false))
    (hother : s.router.selector.isOwn c.1 = false →
      c.2.has s.self .adjacency = s.router.database.has s.self .adjacency) :
    (s.change c).LastWord := by
  intro c' hc'
  change ((s.unheard ++ [c.1]).filter s.router.selector.isOwn).getLast? = some c' at hc'
  show c'.kind = .removed ↔ c.2.has s.self .adjacency = false
  rw [List.filter_append] at hc'
  cases hlast : s.router.selector.isOwn c.1 with
  | true =>
    rw [List.filter_cons_of_pos hlast, List.filter_nil, List.getLast?_concat] at hc'
    cases hc'
    exact hown hlast
  | false =>
    rw [List.filter_cons_of_neg (by simp [hlast]), List.filter_nil, List.append_nil] at hc'
    rw [hother hlast]
    exact h c' hc'

/-- An adjacency advertisement that is installed is the last word on itself. -/
theorem LastWord.installAdjacency (h : s.LastWord) (origin : Name)
    (neighbors : List (Name × α)) :
    (s.change (s.router.database.installAdjacency origin neighbors)).LastWord := by
  refine h.change (fun hown => ?_) fun hother => ?_
  · obtain ⟨horigin, -⟩ := (Selector.isOwn_iff _ _).1 hown
    have hself : origin = s.self := horigin
    simp [Database.kind_arrival_ne_removed, Database.installAdjacency, Database.has, hself]
  · have hne : origin ≠ s.self := fun hself => by
      rw [(Selector.isOwn_iff _ _).2 ⟨hself, rfl⟩] at hother
      cases hother
    simp [Database.installAdjacency, Database.has, hne]

/-- What is heard of first does not change the last word. -/
theorem LastWord.deliver (h : s.LastWord) : s.deliver.LastWord := by
  unfold Subscriber.deliver
  split
  · exact h
  · next c rest hunheard =>
    have hbasis := s.router.sameBasis_notice c
    intro c' hc'
    rw [Selector.isOwn_congr hbasis.settings] at hc'
    show c'.kind = .removed ↔ (s.router.notice c).database.has
      (s.router.notice c).selector.settings.router .adjacency = false
    rw [hbasis.database, hbasis.settings]
    refine h c' ?_
    rw [hunheard, List.filter_cons]
    split
    · rw [List.getLast?_cons, hc']
      rfl
    · exact hc'

/-- When the loss of an own advertisement that is in force again is heard of, the change that put
it in force again is yet to be heard of. -/
theorem LastWord.awaits_of_hearsLoss (h : s.LastWord) (hready : s.router.isReady = true)
    (hmode : s.router.selector.settings.hyperbolic ≠ .on) (hloss : s.hearsLoss = true) :
    s.deliver.Awaits := by
  obtain ⟨-, hhas⟩ := Bool.and_eq_true_iff.1 hready
  unfold hearsLoss at hloss
  unfold Subscriber.deliver
  split
  · next hunheard => simp [hunheard] at hloss
  · next c rest hunheard =>
    rw [hunheard, List.head?_cons, Option.any_some, Selector.losesOwn, Bool.and_eq_true,
      decide_eq_true_eq] at hloss
    obtain ⟨hown, hremoved⟩ := hloss
    obtain ⟨c', hlast⟩ : ∃ c', (s.unheard.filter s.router.selector.isOwn).getLast? = some c' := by
      refine Option.isSome_iff_exists.1 (List.getLast?_isSome.2 ?_)
      simp [hunheard, hown]
    -- The advertisement is in force, so the last word is not the removal that is heard of now.
    have hkind : c'.kind ≠ .removed := by
      intro hc'
      have hnone : s.router.database.has s.self .adjacency = false := (h c' hlast).1 hc'
      exact absurd (hnone.symm.trans hhas) (by simp)
    obtain ⟨hmem, hown'⟩ := List.mem_filter.1 (List.mem_of_getLast? hlast)
    obtain ⟨-, hadjacency⟩ := (Selector.isOwn_iff _ _).1 hown'
    have hrest : c' ∈ rest := by
      rw [hunheard] at hmem
      refine (List.mem_cons.1 hmem).resolve_left ?_
      rintro rfl
      exact hkind hremoved
    refine .inr ⟨c', hrest, ?_⟩
    rw [Selector.isRelevant_congr (s.router.sameBasis_notice c).settings]
    simp [Selector.isRelevant, Selector.usesKind, hkind, hadjacency, hmode]

/-! ### Every event -/

section
variable [Scalar α]

/-- No event changes the settings. -/
theorem settings_apply (s : Subscriber α τ) (e : Event α) :
    (s.apply e).router.selector.settings = s.router.selector.settings := by
  cases e with
  | removeOwn =>
    show s.removeOwn.router.selector.settings = _
    unfold removeOwn
    split <;> rfl
  | deliver => exact (sameBasis_deliver s).settings
  | poll => exact s.router.sameBasis_poll.settings
  | _ => rfl

/-- No run changes the settings. -/
theorem settings_run (s : Subscriber α τ) (events : List (Event α)) :
    (s.run events).router.selector.settings = s.router.selector.settings := by
  induction events using List.reverseRecOn with
  | nil => rfl
  | append_singleton events e ih => rw [run_append_singleton, settings_apply, ih]

/-- A table stays current unless it is disturbed or the removal of the own advertisement makes
other routes. -/
theorem Current.apply (h : s.Current) {e : Event α} (hcalm : s.disturbs e = false)
    (hcalculated : s.calculates e = false)
    (hremove : e = .removeOwn → s.router.selector.settings.hyperbolic = .on) :
    (s.apply e).Current := by
  cases e with
  | installAdjacency origin neighbors => exact h.installAdjacency origin neighbors
  | installCoordinate origin coordinate => exact h.installCoordinate origin coordinate
  | removeOwn =>
    show s.removeOwn.Current
    unfold removeOwn
    split
    · exact h
    · next c database hremoved =>
      obtain ⟨-, rfl⟩ := Database.remove_adjacency_eq_some hremoved
      exact h.change (.inr (by simp only [Router.routes, hremove rfl]; rfl))
  | requestRebuild | advance elapsed => exact h
  | completeRebuild neighbors =>
    have hended : s.endRebuild.Current := h
    exact hended.installAdjacency _ neighbors
  | deliver =>
    exact h.of_sameBasis (sameBasis_deliver s) (listed_deliver hcalm) awaits_deliver
  | requestCalculation => exact .inr (.inl (Schedule.phase_request_ne_idle _ _))
  | poll =>
    -- a calculation that is due is either carried out or turned away
    have hnone : s.router.isDue = false := by
      cases hdue : s.router.isDue with
      | false => rfl
      | true => simp_all [disturbs, calculates]
    show Current { s with router := s.router.poll.2 }
    rw [Router.poll_of_not_due hnone]
    exact h

/-- A calculation that is carried out lists the routes. -/
theorem calculated_apply
    (htotal : ∀ x y : α, Scalar.totalLE x y = true ∨ Scalar.totalLE y x = true)
    (halg : s.router.selector.settings.algorithm = .linkState) {e : Event α}
    (h : s.calculates e = true) :
    (s.apply e).router.listed = (s.apply e).router.routes := by
  cases e with
  | poll =>
    obtain ⟨hdue, hready⟩ := Bool.and_eq_true_iff.1 h
    exact (Router.listed_poll htotal halg hdue hready).trans s.router.sameBasis_poll.routes.symm
  | _ => cases h

/-- Every event leaves the last word with the change that is heard of last. -/
theorem LastWord.apply (h : s.LastWord) (e : Event α) : (s.apply e).LastWord := by
  -- Only edits of the database are followed by a change that is yet to be heard of, and each is
  -- true of what it leaves.
  cases e with
  | installAdjacency origin neighbors => exact h.installAdjacency origin neighbors
  | installCoordinate origin coordinate =>
    refine h.change (fun hown => ?_) fun _ => rfl
    obtain ⟨-, hkind⟩ := (Selector.isOwn_iff _ _).1 hown
    cases hkind
  | removeOwn =>
    show s.removeOwn.LastWord
    unfold removeOwn
    split
    · exact h
    · next c database hremoved =>
      obtain ⟨rfl, rfl⟩ := Database.remove_adjacency_eq_some hremoved
      refine h.change (fun _ => ?_) fun hother => ?_
      · simp [Database.has]
      · rw [(Selector.isOwn_iff _ _).2 ⟨rfl, rfl⟩] at hother
        cases hother
  | completeRebuild neighbors =>
    have hended : s.endRebuild.LastWord := h
    exact hended.installAdjacency _ neighbors
  | deliver => exact h.deliver
  | poll =>
    have hbasis := s.router.sameBasis_poll
    show LastWord { s with router := s.router.poll.2 }
    unfold LastWord self
    rw [Selector.isOwn_congr hbasis.settings, hbasis.database, hbasis.settings]
    exact h
  | requestRebuild | requestCalculation | advance elapsed => exact h

/-- A router that is not ready becomes ready only by a change that is relevant. -/
theorem unready_apply (hmode : s.router.selector.settings.hyperbolic ≠ .on)
    (h : s.router.isReady = false) (e : Event α) :
    (s.apply e).router.isReady = false ∨ (s.apply e).Awaits := by
  have hrelevant : ∀ origin (d : Database α),
      s.router.selector.isRelevant (d.arrival origin .adjacency) = true := by
    intro origin d
    rw [Selector.isRelevant_arrival]
    simp [Selector.usesKind, hmode]
  cases e with
  | installAdjacency origin neighbors => exact .inr (awaits_change_of_relevant (hrelevant _ _))
  | completeRebuild neighbors =>
    have hended : s.endRebuild.router.selector.isRelevant
        (s.router.database.arrival s.self .adjacency) = true := hrelevant _ _
    exact .inr (awaits_change_of_relevant hended)
  | installCoordinate origin coordinate => exact .inl h
  | removeOwn => exact .inl (isReady_removeOwn s)
  | requestRebuild =>
    left
    simp [Router.isReady, Subscriber.apply, onMonitor, Monitor.act, Rebuild.request]
  | deliver => exact .inl ((sameBasis_deliver s).isReady.trans h)
  | requestCalculation | advance elapsed => exact .inl h
  | poll => exact .inl (s.router.sameBasis_poll.isReady.trans h)

/-! ## Runs -/

/-- The last word is true all along a run. -/
theorem lastWord_run (h : s.LastWord) (events : List (Event α)) : (s.run events).LastWord := by
  induction events using List.reverseRecOn with
  | nil => exact h
  | append_singleton events e ih =>
    rw [run_append_singleton]
    exact ih.apply e

/-- A calculation makes up for every disturbance before it. -/
theorem undisturbed_append_of_calculates {events : List (Event α)} {e : Event α}
    (h : (s.run events).calculates e = true) : s.Undisturbed (events ++ [e]) := by
  intro before step after hsteps hdisturbs
  rw [steps_append_singleton] at hsteps
  rcases List.eq_nil_or_concat after with rfl | ⟨after, last, rfl⟩
  · -- the calculation itself is no disturbance
    obtain ⟨-, rfl⟩ := List.append_singleton_inj.1 hsteps
    cases e with
    | poll => simp_all [disturbs, calculates]
    | _ => cases h
  · rw [List.concat_eq_append, ← List.cons_append, ← List.append_assoc] at hsteps
    obtain ⟨-, rfl⟩ := List.append_singleton_inj.1 hsteps
    exact ⟨(s.run events, e), by simp, h⟩

/-- A run that is undisturbed after an event that calculates nothing was so before, and the event
disturbs nothing. -/
theorem Undisturbed.of_append_singleton {events : List (Event α)} {e : Event α}
    (h : s.Undisturbed (events ++ [e])) (hcalculates : (s.run events).calculates e = false) :
    s.Undisturbed events ∧ (s.run events).disturbs e = false := by
  constructor
  · intro before step after hsteps hdisturbs
    obtain ⟨later, hlater, hcalculated⟩ := h before step (after ++ [(s.run events, e)])
      (by rw [steps_append_singleton, hsteps]; simp) hdisturbs
    rcases List.mem_append.1 hlater with hmem | hmem
    · exact ⟨later, hmem, hcalculated⟩
    · rw [List.mem_singleton.1 hmem, hcalculates] at hcalculated
      cases hcalculated
  · rw [Bool.eq_false_iff]
    intro hdisturbs
    obtain ⟨later, hlater, -⟩ := h _ _ [] (steps_append_singleton s events e) hdisturbs
    cases hlater

section
variable (htotal : ∀ x y : α, Scalar.totalLE x y = true ∨ Scalar.totalLE y x = true)
  (halg : s.router.selector.settings.algorithm = .linkState)
include htotal halg

/-- In the mode `on`, a table is current after a run if every disturbance was followed by a
calculation. -/
theorem current_run_of_undisturbed (hmode : s.router.selector.settings.hyperbolic = .on)
    (h : s.Current) {events : List (Event α)} (hcalm : s.Undisturbed events) :
    (s.run events).Current := by
  -- on the last event: what it does not make up for has been made up for before
  induction events using List.reverseRecOn with
  | nil => exact h
  | append_singleton events e ih =>
    rw [run_append_singleton]
    cases hcalculates : (s.run events).calculates e with
    | true => exact .inl (calculated_apply htotal (by rw [settings_run, halg]) hcalculates)
    | false =>
      obtain ⟨hbefore, hdisturbs⟩ := hcalm.of_append_singleton hcalculates
      exact (ih hbefore).apply hdisturbs hcalculates fun _ => by rw [settings_run, hmode]

/-- In the other modes, a table that is not current belongs to a router that is not ready. -/
theorem current_or_unready_apply (hmode : s.router.selector.settings.hyperbolic ≠ .on)
    (hword : s.LastWord) (h : s.Current ∨ s.router.isReady = false) (e : Event α) :
    (s.apply e).Current ∨ (s.apply e).router.isReady = false := by
  cases hready : s.router.isReady with
  | false => exact (unready_apply hmode hready e).symm.imp_left .inr
  | true =>
    have hcurrent : s.Current := h.resolve_right (by simp [hready])
    cases hcalculates : s.calculates e with
    | true => exact .inl (.inl (calculated_apply htotal halg hcalculates))
    | false =>
      cases hdisturbs : s.disturbs e with
      | false =>
        by_cases hremove : e = .removeOwn
        · subst hremove
          exact .inr (isReady_removeOwn s)
        · exact .inl (hcurrent.apply hdisturbs hcalculates fun heq => absurd heq hremove)
      | true =>
        cases e with
        | deliver => exact .inl (.inr (hword.awaits_of_hearsLoss hready hmode hdisturbs))
        | poll => simp [disturbs, hready] at hdisturbs
        | _ => cases hdisturbs

/-- Unless routes are hyperbolic, the table is current along a run or no calculation can be carried
out. -/
theorem current_or_unready_run (hmode : s.router.selector.settings.hyperbolic ≠ .on)
    (hword : s.LastWord) (h : s.Current) (events : List (Event α)) :
    (s.run events).Current ∨ (s.run events).router.isReady = false := by
  induction events using List.reverseRecOn with
  | nil => exact .inl h
  | append_singleton events e ih =>
    rw [run_append_singleton]
    exact current_or_unready_apply htotal (by rw [settings_run, halg])
      (by rwa [settings_run]) (lastWord_run hword events) ih e

end

/-- A router without advertisements has no routes to list. -/
theorem current_starting (monitor : Monitor α (HookMemory α τ)) (settings : RoutingSettings)
    (learning : LearningSettings α) (hasCosts : Bool) :
    (starting monitor settings learning hasCosts).Current := by
  left
  have hroutes : (starting monitor settings learning hasCosts).router.routes = [] := by
    unfold Router.routes
    split <;> rfl
  exact hroutes.symm

/-- **The table catches up.** Let a router start without advertisements, and let anything happen to
it that leaves its neighbors alone. Whenever every change has been heard of, no calculation is
scheduled, no rebuild is pending and the own adjacency advertisement is in force, the table lists
the routes that the calculator of the mode finds by the advertisements in force. In the mode `on`
this takes that every calculation that was turned away when it was due, and every loss of the own
adjacency advertisement that was heard of, has been followed by a calculation. -/
theorem table_catches_up
    (htotal : ∀ x y : α, Scalar.totalLE x y = true ∨ Scalar.totalLE y x = true)
    (monitor : Monitor α (HookMemory α τ)) {settings : RoutingSettings}
    (learning : LearningSettings α) (hasCosts : Bool) (halg : settings.algorithm = .linkState)
    {events : List (Event α)}
    (hcalm : settings.hyperbolic = .on →
      (starting monitor settings learning hasCosts).Undisturbed events)
    (hquiet : ((starting monitor settings learning hasCosts).run events).Quiet) :
    ((starting monitor settings learning hasCosts).run events).router.listed =
      ((starting monitor settings learning hasCosts).run events).router.routes := by
  have hstart := current_starting monitor settings learning hasCosts
  have hcurrent : ((starting monitor settings learning hasCosts).run events).Current := by
    by_cases hmode : settings.hyperbolic = .on
    · exact current_run_of_undisturbed htotal halg hmode hstart (hcalm hmode)
    · have hword : (starting monitor settings learning hasCosts).LastWord := by
        intro c hc
        cases hc
      refine (current_or_unready_run htotal halg hmode hword hstart events).resolve_right ?_
      simp [hquiet.ready]
  exact hcurrent.resolve_right hquiet.not_awaits

end

/-- A neighbor of which a position becomes known. -/
def peer : Name := { components := ["peer"] }

/-- A router that routes by coordinates and has one active neighbor. -/
def located : Subscriber Float Unit :=
  starting
    (.idle
      { (Surroundings.quiet : Surroundings Float) with
        neighbors := .ofList [⟨peer, .active, 1.0, 1.0, 0⟩]
        schedule := .idle (.ofSeconds 15) }
      .standard ⟨none, ()⟩)
    { RoutingSettings.standard with hyperbolic := .on } .standard false

/-- A rebuild is pending when the calculation is due that the neighbor's coordinate asks for. -/
def rebuildInBetween : List (Event Float) :=
  [.installAdjacency RoutingSettings.standard.router [(peer, 1.0)], .deliver,
    .installCoordinate peer ⟨1.0, [0.5]⟩, .deliver, .requestRebuild, .advance (.ofSeconds 15),
    .poll, .completeRebuild [(peer, 1.0)], .deliver]

/-- The table stays behind after the rebuild, for the own advertisement is not relevant. -/
theorem behind_after_rebuild :
    (located.run rebuildInBetween).Quiet ∧
      (located.run rebuildInBetween).router.listed ≠
        (located.run rebuildInBetween).router.routes := by
  refine ⟨⟨rfl, rfl, rfl⟩, ?_⟩
  have hlisted : (located.run rebuildInBetween).router.listed = [] := rfl
  have hroutes : (located.run rebuildInBetween).router.routes = [⟨peer, [⟨peer, 0.0⟩]⟩] := rfl
  rw [hlisted, hroutes]
  simp

/-- Somebody asks for a calculation after the rebuild. -/
def requestAfterwards : List (Event Float) :=
  rebuildInBetween ++ [.requestCalculation, .advance (.ofSeconds 15)] ++ [.poll]

/-- The table has caught up then. -/
theorem caught_up_on_request :
    located.Undisturbed requestAfterwards ∧ (located.run requestAfterwards).Quiet ∧
      (located.run requestAfterwards).router.listed = [⟨peer, [⟨peer, 0.0⟩]⟩] := by
  have hcalm : located.Undisturbed requestAfterwards := undisturbed_append_of_calculates rfl
  have hquiet : (located.run requestAfterwards).Quiet := ⟨rfl, rfl, rfl⟩
  exact ⟨hcalm, hquiet,
    table_catches_up Float.totalLE_total _ .standard false rfl (fun _ => hcalm) hquiet⟩

end Subscriber

end AdaptiveRouting
