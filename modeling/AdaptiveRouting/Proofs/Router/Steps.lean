import AdaptiveRouting.Proofs.Routing.TableContents
import AdaptiveRouting.Router.Calculation

/-!
# What a router does

A router calculates its table and hears of changes in its database. Neither touches what the routes
and the next calculation start from (`Router.SameBasis`).

The routes of a hyperbolic mode are those that its calculator finds by the advertisements in force
(`Router.routes`). A calculation that is due is carried out if the router is ready, and the table
then lists these routes (`Router.listed_poll`). A change that is relevant has a calculation
scheduled (`Router.phase_notice_of_relevant`), and only the loss of the own adjacency advertisement
changes the table at once (`Router.listed_notice`).
-/

namespace AdaptiveRouting

variable {α τ : Type}

/-! ## The schedule and the database -/

/-- Once a calculation is requested the schedule is not idle. -/
theorem Schedule.phase_request_ne_idle (t : Schedule) (now : Instant) :
    (t.request now).phase ≠ .idle := by
  unfold Schedule.request
  split
  · simp
  · next d hd => simp [hd]
  · simp

namespace Database

@[simp] theorem advertisement_arrival (d : Database α) (origin : Name)
    (kind : AdvertisementKind) : (d.arrival origin kind).advertisement = kind := rfl

/-- What arrives is not removed. -/
theorem kind_arrival_ne_removed (d : Database α) (origin : Name) (kind : AdvertisementKind) :
    (d.arrival origin kind).kind ≠ .removed := by
  unfold arrival
  split <;> simp

/-- What the removal of an adjacency advertisement reports and leaves. -/
theorem remove_adjacency_eq_some {d d' : Database α} {origin : Name} {c : Change}
    (h : d.remove origin .adjacency = (some c, d')) :
    c = ⟨.removed, .adjacency, origin⟩ ∧
      d' = { d with adjacencies := d.adjacencies.erase origin } := by
  unfold remove at h
  split at h
  · cases h
    exact ⟨rfl, rfl⟩
  · cases h

end Database

/-! ## What the selector makes of a change -/

namespace Selector

variable {t t' : Selector α}

/-- Whether hearing of a change empties the table. -/
def losesOwn (t : Selector α) (c : Change) : Bool := t.isOwn c && c.kind = .removed

/-- Which changes are relevant depends on the settings. -/
theorem isRelevant_congr (h : t'.settings = t.settings) : t'.isRelevant = t.isRelevant := by
  funext c
  unfold isRelevant usesKind
  rw [h]

/-- Which changes are its own depends on the settings. -/
theorem isOwn_congr (h : t'.settings = t.settings) : t'.isOwn = t.isOwn := by
  funext c
  unfold isOwn
  rw [h]

/-- A change is the router's own if it is about its adjacency advertisement. -/
theorem isOwn_iff (t : Selector α) (c : Change) :
    t.isOwn c = true ↔ c.origin = t.settings.router ∧ c.advertisement = .adjacency := by
  simp [isOwn]

/-- An arrival is relevant exactly if calculations use its kind. -/
theorem isRelevant_arrival (t : Selector α) (d : Database α) (origin : Name)
    (kind : AdvertisementKind) : t.isRelevant (d.arrival origin kind) = t.usesKind kind := by
  rw [isRelevant, decide_eq_true (d.kind_arrival_ne_removed origin kind), Bool.true_and,
    Database.advertisement_arrival]

/-- To follow a change is not to change the settings. -/
theorem settings_followOwn (t : Selector α) (c : Change) :
    (t.followOwn c).settings = t.settings := by
  unfold followOwn
  split
  · cases c.kind <;> rfl
  · rfl

/-- The table is emptied by the loss of the own advertisement only. -/
theorem table_followOwn {c : Change} (h : t.losesOwn c = false) :
    (t.followOwn c).table = t.table := by
  unfold followOwn
  split
  · next hown =>
    cases hkind : c.kind with
    | removed => simp [losesOwn, hown, hkind] at h
    | installed | updated => rfl
  · rfl

end Selector

namespace Router

/-! ## The basis of the routes -/

/-- Two routers calculate by the same settings, advertisements and neighbors, and are as ready. -/
structure SameBasis (r r' : Router α τ) : Prop where
  settings : r'.selector.settings = r.selector.settings
  database : r'.database = r.database
  neighbors : r'.monitor.neighbors = r.monitor.neighbors
  rebuild : r'.monitor.rebuild = r.monitor.rebuild

/-- Whether a calculation would be carried out: no rebuild is pending, and the own adjacency
advertisement is in force. -/
def isReady (r : Router α τ) : Bool :=
  !r.monitor.rebuild.pending && r.database.has r.selector.settings.router .adjacency

/-- Whether a calculation is due. -/
def isDue (r : Router α τ) : Bool := (r.monitor.schedule.begin? r.now).isSome

/-- The entries in force, by destination. -/
def listed (r : Router α τ) : List (RoutingEntry α) := r.selector.table.live.listed

namespace SameBasis

variable {r r' r'' : Router α τ}

/-- A router has the basis that it has. -/
theorem refl (r : Router α τ) : SameBasis r r := ⟨rfl, rfl, rfl, rfl⟩

/-- What two steps leave alone is left alone by both together. -/
theorem trans (h : SameBasis r r') (h' : SameBasis r' r'') : SameBasis r r'' where
  settings := h'.settings.trans h.settings
  database := h'.database.trans h.database
  neighbors := h'.neighbors.trans h.neighbors
  rebuild := h'.rebuild.trans h.rebuild

/-- Routers with the same basis are as ready. -/
theorem isReady (h : SameBasis r r') : r'.isReady = r.isReady := by
  rw [Router.isReady, h.rebuild, h.database, h.settings, Router.isReady]

end SameBasis

/-- The schedule is no basis of a calculation. -/
theorem sameBasis_onSchedule (r : Router α τ) (f : Schedule → Schedule) :
    SameBasis r (r.onSchedule f) := ⟨rfl, rfl, rfl, rfl⟩

/-- To interrupt a calculation does not change what it is based on. -/
theorem sameBasis_interrupt (r : Router α τ) : SameBasis r r.interrupt := by
  unfold interrupt
  split
  · exact .refl r
  · exact ⟨rfl, rfl, rfl, rfl⟩

section
variable [Scalar α]

/-- A link-state calculation does not change what it is based on. -/
theorem sameBasis_calculateLinkState (r : Router α τ) : SameBasis r r.calculateLinkState := by
  obtain ⟨hsettings, hdatabase, hneighbors, hrebuild⟩ := r.sameBasis_interrupt
  exact ⟨hsettings, hdatabase, hneighbors, hrebuild⟩

/-- To put a strategy in force does not change the basis of calculations. -/
theorem sameBasis_ensureStrategy (r : Router α τ) : SameBasis r r.ensureStrategy := by
  unfold ensureStrategy
  split
  · exact .refl r
  · split
    · exact .refl r
    · next s hs => cases s <;> exact ⟨rfl, rfl, rfl, rfl⟩

/-- A calculation does not change what it is based on, whatever the mode. -/
theorem sameBasis_recalculate (r : Router α τ) : SameBasis r r.recalculate := by
  have hlinkState := r.sameBasis_calculateLinkState
  have hadaptive : SameBasis r r.calculateAdaptive := by
    unfold calculateAdaptive
    split
    · obtain ⟨hsettings, hdatabase, hneighbors, hrebuild⟩ := r.sameBasis_ensureStrategy
      exact ⟨hsettings, hdatabase, hneighbors, hrebuild⟩
    · exact hlinkState
  unfold recalculate
  split
  · exact hlinkState
  · exact ⟨hlinkState.settings, hlinkState.database, hlinkState.neighbors, hlinkState.rebuild⟩
  · exact ⟨rfl, rfl, rfl, rfl⟩
  · exact hadaptive
  · exact hadaptive

/-- A calculation that is asked for does not change what it is based on. -/
theorem sameBasis_calculate (r : Router α τ) : SameBasis r r.calculate := by
  unfold calculate
  split
  · exact .refl r
  · dsimp only
    split
    · obtain ⟨hsettings, hdatabase, hneighbors, hrebuild⟩ := sameBasis_recalculate
        { r.checkOwn with selector.calculations := r.checkOwn.selector.calculations + 1 }
      exact ⟨hsettings, hdatabase, hneighbors, hrebuild⟩
    · exact ⟨rfl, rfl, rfl, rfl⟩

/-- A call of `poll` does not change what calculations are based on. -/
theorem sameBasis_poll (r : Router α τ) : SameBasis r r.poll.2 := by
  unfold poll
  split
  · exact .refl r
  · next schedule hbegin =>
    have hcalculated := (r.sameBasis_onSchedule fun _ => schedule).trans (sameBasis_calculate _)
    exact hcalculated.trans (sameBasis_onSchedule _ (·.finish _))

/-! ## The routes -/

/-- The routes that the calculator of the hyperbolic mode finds. -/
def routes (r : Router α τ) : List (RoutingEntry α) :=
  match r.selector.settings.hyperbolic with
  | .on => r.hyperbolic
  | .off | .dryRun => r.linkState

/-- On the same basis the same routes are found. -/
theorem SameBasis.routes {r r' : Router α τ} (h : SameBasis r r') : r'.routes = r.routes := by
  unfold Router.routes Router.hyperbolic Router.linkState
  rw [h.settings, h.database, h.neighbors]

/-- A call of `poll` does nothing if no calculation is due. -/
theorem poll_of_not_due {r : Router α τ} (h : r.isDue = false) : r.poll.2 = r := by
  unfold poll
  split
  · rfl
  · next schedule hbegin => simp [isDue, hbegin] at h

section
variable (htotal : ∀ x y : α, Scalar.totalLE x y = true ∨ Scalar.totalLE y x = true)
include htotal

/-- A link-state calculation lists the routes. -/
theorem listed_recalculate {r : Router α τ} (halg : r.selector.settings.algorithm = .linkState) :
    r.recalculate.listed = r.routes := by
  have hlinkState : r.calculateLinkState.listed = r.linkState :=
    listed_replace (linkStateRoutes_tabular _ _) _
  have hhyperbolic : (r.install r.hyperbolic).listed = r.hyperbolic :=
    listed_replace (hyperbolicRoutes_tabular htotal _ _ _) _
  unfold recalculate routes
  rw [halg]
  cases r.selector.settings.hyperbolic with
  | off => exact hlinkState
  -- the routes for comparison are kept apart from those in force
  | dryRun => exact hlinkState
  | on => exact hhyperbolic

/-- **A calculation that is carried out** makes the table list the routes of the mode. -/
theorem listed_poll {r : Router α τ} (halg : r.selector.settings.algorithm = .linkState)
    (hdue : r.isDue = true) (hready : r.isReady = true) : r.poll.2.listed = r.routes := by
  obtain ⟨schedule, hbegin⟩ := Option.isSome_iff_exists.1 hdue
  simp only [isReady, Bool.and_eq_true, Bool.not_eq_true'] at hready
  obtain ⟨hrebuild, hown⟩ := hready
  simp only [poll, hbegin]
  generalize hbegun : (r.onSchedule fun _ => schedule) = begun
  have hbasis : SameBasis r begun := hbegun ▸ r.sameBasis_onSchedule _
  have hpending : begun.monitor.rebuild.pending = false := by rw [hbasis.rebuild, hrebuild]
  have hadvertised : begun.checkOwn.selector.advertised = true := by
    show begun.database.has begun.selector.settings.router .adjacency = true
    rw [hbasis.database, hbasis.settings, hown]
  have hcounted : SameBasis r { begun.checkOwn with
      selector.calculations := begun.checkOwn.selector.calculations + 1 } :=
    ⟨hbasis.settings, hbasis.database, hbasis.neighbors, hbasis.rebuild⟩
  rw [calculate, if_neg (by simp [hpending])]
  dsimp only
  rw [if_pos hadvertised]
  exact (listed_recalculate htotal (by rw [hcounted.settings, halg])).trans hcounted.routes

end

end

/-! ## Hearing of a change -/

/-- To notice a change does not change what calculations are based on. -/
theorem sameBasis_notice (r : Router α τ) (c : Change) : SameBasis r (r.notice c) := by
  unfold notice
  dsimp only
  split <;> exact ⟨Selector.settings_followOwn _ _, rfl, rfl, rfl⟩

/-- Hearing of a relevant change has a calculation scheduled. -/
theorem phase_notice_of_relevant {r : Router α τ} {c : Change}
    (h : r.selector.isRelevant c = true) : (r.notice c).monitor.schedule.phase ≠ .idle := by
  have hsame : (r.selector.followOwn c).isRelevant c = true := by
    rw [Selector.isRelevant_congr (Selector.settings_followOwn _ _), h]
  unfold notice
  dsimp only
  rw [if_pos hsame]
  exact Schedule.phase_request_ne_idle _ _

/-- A schedule that is not idle is not so after a change is noticed. -/
theorem phase_notice {r : Router α τ} (c : Change) (h : r.monitor.schedule.phase ≠ .idle) :
    (r.notice c).monitor.schedule.phase ≠ .idle := by
  unfold notice
  dsimp only
  split
  · exact Schedule.phase_request_ne_idle _ _
  · exact h

/-- Nothing but the loss of the own adjacency advertisement changes the table at once. -/
theorem listed_notice {r : Router α τ} {c : Change} (h : r.selector.losesOwn c = false) :
    (r.notice c).listed = r.listed := by
  have htable := Selector.table_followOwn h
  unfold notice listed
  dsimp only
  split <;> exact congrArg (·.live.listed) htable

end Router

end AdaptiveRouting
