import AdaptiveRouting.Pricing.Strategy
import AdaptiveRouting.Routing.Table

/-!
# The router

A `Selector` chooses the routes: it holds the routing table and decides when and how the table is
calculated. A `Router` is a selector at work, on the advertisements in its database and on the
costs that the link monitor keeps up.

The selector hears of changes in the database one at a time (`Router.notice`), possibly late. A
change asks for a calculation if it can matter in the hyperbolic mode at hand; the loss of the own
adjacency advertisement empties the table at once. Every version of the table is published.
-/

namespace AdaptiveRouting

/-- Chooses the routes. -/
structure Selector (α : Type) where
  settings : RoutingSettings
  /-- How the cost model learns, should one be needed. -/
  learning : LearningSettings α
  /-- Whether the costs of the link monitor can be acted on. -/
  hasCosts : Bool
  table : RoutingTable α
  /-- Whether the own adjacency advertisement is known to be in force. -/
  advertised : Bool
  /-- The number of calculations that were carried out. -/
  calculations : Nat
  /-- How many requests for a calculation come in during each of the next link-state
  calculations. -/
  interruptions : List Nat
  /-- The versions of the table that were published, oldest first. -/
  published : List (Snapshot α)

/-- A router. -/
structure Router (α τ : Type) where
  monitor : Monitor α (HookMemory α τ)
  database : Database α
  /-- What chooses the routes. -/
  selector : Selector α

namespace Selector

variable {α : Type}

/-- A selector that has not calculated anything. -/
def fresh (settings : RoutingSettings) (learning : LearningSettings α) (hasCosts : Bool)
    (database : Database α) : Selector α where
  settings := settings
  learning := learning
  hasCosts := hasCosts
  table := .empty
  advertised := database.has settings.router .adjacency
  calculations := 0
  interruptions := []
  published := []

def publish (s : Selector α) : Selector α :=
  { s with published := s.published ++ [s.table.snapshot] }

/-- Empties the table and publishes that. -/
def withdraw (s : Selector α) : Selector α := { s with table := s.table.clear }.publish

/-- Whether a change is about the own adjacency advertisement. -/
def isOwn (s : Selector α) (c : Change) : Bool :=
  c.origin = s.settings.router && c.advertisement = .adjacency

/-- Whether advertisements of a kind can matter to the table. -/
def usesKind (s : Selector α) : AdvertisementKind → Bool
  | .adjacency => s.settings.hyperbolic ≠ .on
  | .coordinate => s.settings.hyperbolic ≠ .off
  | .name => false

/-- Whether a change asks for a calculation. -/
def isRelevant (s : Selector α) (c : Change) : Bool :=
  c.kind ≠ .removed && s.usesKind c.advertisement

/-- Follows a change of the own adjacency advertisement. -/
def followOwn (s : Selector α) (c : Change) : Selector α :=
  if s.isOwn c then
    match c.kind with
    | .removed => { s.withdraw with advertised := false }
    | .installed | .updated => { s with advertised := true }
  else s

/-- Forgets the versions of the table that were published. -/
def takePublished (s : Selector α) : List (Snapshot α) × Selector α :=
  (s.published, { s with published := [] })

end Selector

namespace Router

variable {α τ : Type}

/-- What the monitor shares with the selector. -/
def surroundings (r : Router α τ) : Surroundings α := r.monitor.toSurroundings

/-- The present instant. -/
def now (r : Router α τ) : Instant := r.monitor.clock.now

def onSchedule (r : Router α τ) (f : Schedule → Schedule) : Router α τ :=
  { r with monitor := r.monitor.act fun m => { m with schedule := f m.schedule } }

def requestCalculation (r : Router α τ) : Router α τ := r.onSchedule (·.request r.now)

/-- Hears of a change in the database. -/
def notice (r : Router α τ) (c : Change) : Router α τ :=
  let r := { r with selector := r.selector.followOwn c }
  if r.selector.isRelevant c then r.requestCalculation else r

def nextDeadline? (r : Router α τ) : Option Instant := r.monitor.schedule.deadline?

end Router

end AdaptiveRouting
