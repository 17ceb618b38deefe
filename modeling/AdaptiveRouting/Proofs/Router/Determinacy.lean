import AdaptiveRouting.Daemon.Loop
import AdaptiveRouting.Proofs.Monitor.Runs
import AdaptiveRouting.Proofs.Router.Steps

/-!
# Calculations start from scratch

A calculation that is carried out leaves nothing of the table before it: the table is the one that
the advertisements and neighbors at hand make out of an empty one (`Router.scratchTable`,
`Router.selector_calculate`). So it does not matter how a router came to where it is, which changes
it heard of and which it missed, and what it calculated before.

A router gets along by `Move`s: what its selector does, and whatever happens to the monitor and the
database meanwhile; so does the router of a daemon (`Router.Reachable.handle`). No move changes the
table without publishing it, and none but a calculation in the mode that compares fills the table of
the dry run (`Selector.Faithful`, `Router.Reachable.faithful`). Together these are
`Router.calculations_determined`.
-/

namespace AdaptiveRouting

variable {α τ : Type}

/-- Whether calculations also find routes for comparison. -/
def RoutingSettings.compares (s : RoutingSettings) : Bool :=
  s.algorithm = .linkState && s.hyperbolic = .dryRun

/-! ## The table and its published versions -/

namespace Selector

variable {s s' : Selector α}

/-- The table is the one that was published last, and there are entries for comparison only if
calculations find some. -/
structure Faithful (s : Selector α) : Prop where
  latest {version : Snapshot α} : s.published.getLast? = some version →
    version = s.table.snapshot
  /-- Before anything is published, there is nothing to see. -/
  unpublished : s.published = [] → s.table = .empty
  uncompared : s.settings.compares = false → s.table.dryRun = ∅

/-- A new selector has published nothing and its table is empty. -/
theorem faithful_fresh (settings : RoutingSettings) (learning : LearningSettings α)
    (hasCosts : Bool) (database : Database α) :
    (fresh settings learning hasCosts database).Faithful where
  latest h := by cases h
  unpublished _ := rfl
  uncompared _ := rfl

/-- A selector is faithful if its table, what it has published and its settings are. -/
theorem Faithful.of_same (h : s.Faithful) (htable : s'.table = s.table)
    (hpublished : s'.published = s.published) (hsettings : s'.settings = s.settings) :
    s'.Faithful where
  latest := by rw [hpublished, htable]; exact h.latest
  unpublished := by rw [hpublished, htable]; exact h.unpublished
  uncompared := by rw [hsettings, htable]; exact h.uncompared

/-- A table that has just been published is the one that was published last. -/
theorem faithful_of_published {before : List (Snapshot α)}
    (h : s.published = before ++ [s.table.snapshot])
    (huncompared : s.settings.compares = false → s.table.dryRun = ∅) : s.Faithful where
  latest hversion := by
    rw [h, List.getLast?_concat] at hversion
    cases hversion
    rfl
  unpublished hnil := by simp [hnil] at h
  uncompared := huncompared

/-- To follow a change keeps the selector faithful. -/
theorem Faithful.followOwn (h : s.Faithful) (c : Change) : (s.followOwn c).Faithful := by
  unfold Selector.followOwn
  split
  · cases c.kind with
    | removed => exact faithful_of_published rfl fun _ => rfl
    | installed | updated => exact h.of_same rfl rfl rfl
  · exact h

end Selector

namespace Router

/-! ## What a calculation makes of the table -/

section
variable [Scalar α]

/-- The routes that the settings select. -/
def selected (r : Router α τ) : List (RoutingEntry α) :=
  match r.selector.settings.algorithm, r.selector.settings.hyperbolic with
  | .linkState, .on => r.hyperbolic
  | _, _ => r.linkState

/-- The routes for comparison. -/
def compared (r : Router α τ) : List (RoutingEntry α) :=
  if r.selector.settings.compares then r.hyperbolic else []

/-- The table that the advertisements and neighbors at hand make out of an empty one. -/
def scratchTable (r : Router α τ) : RoutingTable α :=
  if r.database.has r.selector.settings.router .adjacency then
    (RoutingTable.empty.replace r.selected).replaceDryRun r.compared
  else .empty

/-- The table from scratch depends on settings, advertisements and neighbors only. -/
theorem scratchTable_congr {r r' : Router α τ}
    (hsettings : r'.selector.settings = r.selector.settings) (hdatabase : r'.database = r.database)
    (hneighbors : r'.monitor.neighbors = r.monitor.neighbors) :
    r'.scratchTable = r.scratchTable := by
  unfold scratchTable selected compared linkState hyperbolic
  rw [hsettings, hdatabase, hneighbors]

/-- A link-state calculation replaces the table. -/
theorem selector_calculateLinkState (r : Router α τ) : ∃ interruptions,
    r.calculateLinkState.selector = { r.selector with
      table := r.selector.table.replace r.linkState, interruptions } := by
  unfold calculateLinkState interrupt
  split
  · exact ⟨_, rfl⟩
  · exact ⟨_, rfl⟩

/-- To put a strategy in force leaves the selector alone. -/
theorem selector_ensureStrategy (r : Router α τ) : r.ensureStrategy.selector = r.selector := by
  unfold ensureStrategy
  split
  · rfl
  · split <;> rfl

/-- An adaptive calculation replaces the table. -/
theorem selector_calculateAdaptive (r : Router α τ) : ∃ interruptions,
    r.calculateAdaptive.selector = { r.selector with
      table := r.selector.table.replace r.linkState, interruptions } := by
  unfold calculateAdaptive
  split
  · exact ⟨r.selector.interruptions, by rw [install, selector_ensureStrategy]⟩
  · exact r.selector_calculateLinkState

/-- New routes take the place of the old ones. The entries for comparison are replaced if there are
new ones, and there were none before if there are not. -/
theorem selector_recalculate {r : Router α τ} (h : r.selector.Faithful) : ∃ interruptions,
    r.recalculate.selector = { r.selector with
      table := (RoutingTable.empty.replace r.selected).replaceDryRun r.compared
      interruptions } := by
  have huncompared : r.selector.settings.compares = false → ∀ routes,
      r.selector.table.replace routes =
        (RoutingTable.empty.replace routes).replaceDryRun r.compared := by
    intro hmode routes
    rw [compared, if_neg (by simp [hmode])]
    exact congrArg (RoutingTable.mk _) (h.uncompared hmode)
  obtain ⟨interruptions, hlinkState⟩ := r.selector_calculateLinkState
  obtain ⟨interruptions', hadaptive⟩ := r.selector_calculateAdaptive
  unfold recalculate
  split
  · next halg hmode =>
    rw [hlinkState, huncompared (by simp [RoutingSettings.compares, hmode])]
    exact ⟨interruptions, by simp only [selected, halg, hmode]⟩
  · next halg hmode =>
    refine ⟨interruptions, ?_⟩
    rw [compareWith, hlinkState]
    simp only [selected, compared, RoutingSettings.compares, halg, hmode]
    rfl
  · next halg hmode =>
    rw [install, huncompared (by simp [RoutingSettings.compares, hmode])]
    exact ⟨r.selector.interruptions, by simp only [selected, halg, hmode]⟩
  · next halg =>
    rw [hadaptive, huncompared (by simp [RoutingSettings.compares, halg])]
    exact ⟨interruptions', by simp only [selected, halg]⟩
  · next halg =>
    rw [hadaptive, huncompared (by simp [RoutingSettings.compares, halg])]
    exact ⟨interruptions', by simp only [selected, halg]⟩

/-- **A calculation that is not turned away** leaves the table made from scratch, publishes it and
notes whether the own adjacency advertisement is in force. -/
theorem selector_calculate {r : Router α τ} (h : r.selector.Faithful)
    (hidle : r.monitor.rebuild.pending = false) : ∃ calculations interruptions,
    r.calculate.selector = { r.selector with
      table := r.scratchTable
      advertised := r.database.has r.selector.settings.router .adjacency
      published := r.selector.published ++ [r.scratchTable.snapshot]
      calculations, interruptions } := by
  unfold calculate
  rw [if_neg (by simp [hidle])]
  dsimp only
  split
  · next hown =>
    have hown : r.database.has r.selector.settings.router .adjacency = true := hown
    have hchecked : ({ r.checkOwn.selector with
        calculations := r.checkOwn.selector.calculations + 1 } : Selector α).Faithful :=
      h.of_same rfl rfl rfl
    obtain ⟨interruptions, hselector⟩ := selector_recalculate (r := { r.checkOwn with
      selector.calculations := r.checkOwn.selector.calculations + 1 }) hchecked
    refine ⟨r.selector.calculations + 1, interruptions, ?_⟩
    rw [hselector, scratchTable, if_pos hown]
    rfl
  · next hown =>
    have hown : ¬ r.database.has r.selector.settings.router .adjacency = true := hown
    refine ⟨r.selector.calculations, r.selector.interruptions, ?_⟩
    rw [scratchTable, if_neg hown]
    rfl

/-! ## Moves -/

/-- What can happen to a router. -/
inductive Move (α τ : Type) where
  /-- The selector hears of a change, be it outdated, one of many or heard of before. -/
  | hear (c : Change)
  /-- Somebody asks for a calculation, for instance because changes were lost. -/
  | request
  | poll
  /-- A calculation that nobody has scheduled. -/
  | calculate
  /-- The selector gets access to the costs. -/
  | gainCosts
  /-- The monitor and the database become what others make of them. -/
  | surround (monitor : Monitor α (HookMemory α τ)) (database : Database α)

/-- What a move makes of a router. -/
def apply (r : Router α τ) : Move α τ → Router α τ
  | .hear c => r.notice c
  | .request => r.requestCalculation
  | .poll => r.poll.2
  | .calculate => r.calculate
  | .gainCosts => { r with selector.hasCosts := true }
  | .surround monitor database => { r with monitor, database }

/-- The routers of some settings, however they have got to where they are. -/
inductive Reachable (settings : RoutingSettings) : Router α τ → Prop where
  | fresh (monitor : Monitor α (HookMemory α τ)) (database : Database α)
      (learning : LearningSettings α) (hasCosts : Bool) :
      Reachable settings ⟨monitor, database, .fresh settings learning hasCosts database⟩
  | apply {r : Router α τ} (move : Move α τ) : Reachable settings r →
      Reachable settings (r.apply move)

/-- A calculation publishes the table that it leaves. -/
theorem faithful_calculate {r : Router α τ} (h : r.selector.Faithful) :
    r.calculate.selector.Faithful := by
  cases hpending : r.monitor.rebuild.pending with
  | true => rwa [calculate, if_pos hpending]
  | false =>
    obtain ⟨calculations, interruptions, hselector⟩ := selector_calculate h hpending
    rw [hselector]
    refine Selector.faithful_of_published rfl fun hmode => ?_
    show r.scratchTable.dryRun = ∅
    have hcompared : r.compared = [] := if_neg (by simpa using hmode)
    rw [scratchTable, hcompared]
    split <;> rfl

/-- Every move keeps the selector faithful. -/
theorem faithful_apply {r : Router α τ} (h : r.selector.Faithful) (move : Move α τ) :
    (r.apply move).selector.Faithful := by
  cases move with
  | hear c =>
    show (r.notice c).selector.Faithful
    unfold notice
    dsimp only
    split <;> exact h.followOwn c
  | poll =>
    show r.poll.2.selector.Faithful
    unfold poll
    split
    · exact h
    · next schedule _ => exact faithful_calculate (r := r.onSchedule fun _ => schedule) h
  | calculate => exact faithful_calculate h
  | request | surround monitor database => exact h
  | gainCosts => exact h.of_same rfl rfl rfl

/-- No move changes the settings. -/
theorem settings_apply (r : Router α τ) (move : Move α τ) :
    (r.apply move).selector.settings = r.selector.settings := by
  cases move with
  | hear c => exact (r.sameBasis_notice c).settings
  | poll => exact r.sameBasis_poll.settings
  | calculate => exact r.sameBasis_calculate.settings
  | request | gainCosts | surround monitor database => rfl

namespace Reachable

variable {settings : RoutingSettings} {r r' : Router α τ}

/-- A router that can be reached is faithful. -/
theorem faithful (h : Reachable settings r) : r.selector.Faithful := by
  induction h with
  | fresh monitor database learning hasCosts => exact Selector.faithful_fresh _ _ _ _
  | apply move _ ih => exact faithful_apply ih move

/-- A router that can be reached has the settings that it began with. -/
theorem settings_eq (h : Reachable settings r) : r.selector.settings = settings := by
  induction h with
  | fresh monitor database learning hasCosts => rfl
  | apply move _ ih => rw [settings_apply, ih]

/-! What a daemon does to its router are such moves. -/

/-- A daemon that is driven leads its router to one that can be reached. -/
theorem drive {d : Daemon α τ} (h : Reachable settings d.router) :
    Reachable settings d.drive.router :=
  (h.apply (.surround (d.router.monitor.act (·.poll)) d.router.database)).apply .poll

/-- A daemon that handles something leads its router to one that can be reached. -/
theorem handle {d : Daemon α τ} (h : Reachable settings d.router) (i : Incoming) :
    Reachable settings (d.handle i).router := by
  have htaken : Reachable settings (d.take i).router := by
    cases i with
    | outcome o =>
      exact h.apply (.surround (d.router.monitor.handleOutcome o) d.router.database)
    | news e =>
      exact h.apply (.surround (d.router.monitor.act (·.handleNews e)) d.router.database)
    | change c =>
      rw [Daemon.take]
      split
      · exact h.apply (.hear c)
      · exact h
    | changesLost =>
      rw [Daemon.take]
      split
      · exact h.apply .request
      · exact h
    | changesEnd => exact h
  exact htaken.drive

end Reachable

/-! ## What the table made from scratch lists -/

section
variable (htotal : ∀ x y : α, Scalar.totalLE x y = true ∨ Scalar.totalLE y x = true)
include htotal

/-- The selected routes can stand in a table. -/
theorem tabular_selected (r : Router α τ) : Tabular r.selected := by
  unfold selected
  split
  · exact hyperbolicRoutes_tabular htotal _ _ _
  · exact linkStateRoutes_tabular _ _

/-- The routes for comparison can stand in a table. -/
theorem tabular_compared (r : Router α τ) : Tabular r.compared := by
  unfold compared
  split
  · exact hyperbolicRoutes_tabular htotal _ _ _
  · exact ⟨.nil, by simp⟩

/-- The table from scratch holds the routes that are found, or none without an own advertisement. -/
theorem snapshot_scratchTable (r : Router α τ) : r.scratchTable.snapshot =
    if r.database.has r.selector.settings.router .adjacency then ⟨r.selected, r.compared⟩
    else ⟨[], []⟩ := by
  unfold scratchTable
  split
  · have hlive : (RoutingTable.empty.replace r.selected).live.listed = r.selected :=
      listed_replace (r.tabular_selected htotal) _
    have hdryRun : (RoutingTable.empty.replace r.compared).live.listed = r.compared :=
      listed_replace (r.tabular_compared htotal) _
    exact congrArg₂ Snapshot.mk hlive hdryRun
  · rfl

/-- **Calculations are determined by what is at hand.** Take two routers of the same settings whose
selectors have been through anything, with the same advertisements and neighbors now. A calculation
that neither turns away leaves both with the same table and the same knowledge of the own adjacency
advertisement: the table lists the routes that the settings select, and those for comparison, and
nothing else, or nothing at all without the own advertisement. And whatever has happened to a
router, its table is the one that was published last, and has no entries for comparison unless its
settings ask for them. -/
theorem calculations_determined (settings : RoutingSettings) :
    (∀ r : Router α τ, Reachable settings r →
      (∀ version, r.selector.published.getLast? = some version →
        version = r.selector.table.snapshot) ∧
      (r.selector.published = [] → r.selector.table = .empty) ∧
      (settings.compares = false → r.selector.table.dryRun = ∅)) ∧
    ∀ r r' : Router α τ, Reachable settings r → Reachable settings r' →
      r'.database = r.database → r'.monitor.neighbors = r.monitor.neighbors →
      r.monitor.rebuild.pending = false → r'.monitor.rebuild.pending = false →
      r'.calculate.selector.table = r.calculate.selector.table ∧
      r'.calculate.selector.advertised = r.calculate.selector.advertised ∧
      r.calculate.selector.advertised = r.database.has settings.router .adjacency ∧
      r.calculate.selector.table.snapshot =
        if r.database.has settings.router .adjacency then ⟨r.selected, r.compared⟩
        else ⟨[], []⟩ := by
  refine ⟨fun r hr => ?_, fun r r' hr hr' hdatabase hneighbors hidle hidle' => ?_⟩
  · obtain ⟨hlatest, hunpublished, huncompared⟩ := hr.faithful
    rw [hr.settings_eq] at huncompared
    exact ⟨fun _ => hlatest, hunpublished, huncompared⟩
  · obtain ⟨_, _, hselector⟩ := selector_calculate hr.faithful hidle
    obtain ⟨_, _, hselector'⟩ := selector_calculate hr'.faithful hidle'
    have hsettings : r'.selector.settings = r.selector.settings := by
      rw [hr.settings_eq, hr'.settings_eq]
    have hsnapshot := r.snapshot_scratchTable htotal
    rw [hr.settings_eq] at hsnapshot
    rw [hselector, hselector', scratchTable_congr hsettings hdatabase hneighbors, hdatabase,
      hsettings, hr.settings_eq]
    exact ⟨rfl, rfl, rfl, hsnapshot⟩

end

end

end Router

namespace Router.Returning

/-- A neighbor. -/
def peer : Name := { components := ["adjacent"] }

/-- A router beyond it. -/
def remote : Name := { components := ["remote"] }

/-- A router that finds link-state routes, and hyperbolic ones for comparison. -/
def settings : RoutingSettings := { RoutingSettings.standard with hyperbolic := .dryRun }

def monitor : Monitor Float (HookMemory Float Unit) :=
  .idle { (Surroundings.quiet : Surroundings Float) with
    neighbors := .ofList [⟨peer, .active, 1.0, 1.0, 0⟩] } .standard ⟨none, ()⟩

/-- The neighbor is known, by its link and by its position. -/
def near : Database Float :=
  ((Database.empty.installAdjacency settings.router [(peer, 1.0)]).2.installCoordinate peer
    ⟨1.0, [0.5]⟩).2

/-- The router beyond it is known as well. -/
def far : Database Float :=
  ((near.installAdjacency peer [(remote, 2.0)]).2.installCoordinate remote ⟨2.0, [1.5]⟩).2

/-- A router that has known only what it knows now. -/
def newcomer : Router Float Unit := ⟨monitor, near, .fresh settings .standard true near⟩

/-- A router that knows more. -/
def insider : Router Float Unit := ⟨monitor, far, .fresh settings .standard false far⟩

/-- A router that has calculated when it knew more, and that hears of a removal long past. -/
def veteran : Router Float Unit :=
  ((insider.apply .calculate).apply (.surround monitor near)).apply
    (.hear ⟨.removed, .adjacency, settings.router⟩)

/-- A calculation leaves both with the same table, in which nothing is left of the router beyond
the neighbor. -/
theorem veteran_as_newcomer : Reachable settings newcomer ∧ Reachable settings veteran ∧
    veteran.calculate.selector.table = newcomer.calculate.selector.table ∧
    newcomer.calculate.selector.table.snapshot =
      ⟨[⟨peer, [⟨peer, 1.0⟩]⟩], [⟨peer, [⟨peer, 0.0⟩]⟩]⟩ := by
  have hnewcomer : Reachable settings newcomer := .fresh _ _ _ _
  have hveteran : Reachable settings veteran :=
    ((Reachable.fresh _ _ _ _).apply _ |>.apply _).apply _
  obtain ⟨htable, -, -, hsnapshot⟩ := (calculations_determined Float.totalLE_total settings).2
    newcomer veteran hnewcomer hveteran rfl rfl rfl rfl
  have hroutes : newcomer.selected = [⟨peer, [⟨peer, 1.0⟩]⟩] := rfl
  have hcompared : newcomer.compared = [⟨peer, [⟨peer, 0.0⟩]⟩] := rfl
  rw [hroutes, hcompared] at hsnapshot
  exact ⟨hnewcomer, hveteran, htable, hsnapshot⟩

end Router.Returning

end AdaptiveRouting
