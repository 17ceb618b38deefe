import AdaptiveRouting.Router.Basic
import AdaptiveRouting.Routing.Hyperbolic
import AdaptiveRouting.Routing.ShortestPath

/-!
# Calculating the routing table

A calculation starts from the database as it is and replaces the table. Nothing is calculated
while a rebuild of the own advertisement is pending, since the database is about to change, and
the table is empty while there is no own adjacency advertisement.

With the algorithm `linkState` the hyperbolic mode selects between link-state and hyperbolic
routes. The other two algorithms take link-state routes and put a strategy in force on the first
calculation, which then prices the links for as long as the selector lives; without access to the
costs they do without.
-/

namespace AdaptiveRouting.Router

variable {α τ : Type} [Scalar α]

/-! ## Routes -/

/-- Puts routes in force. -/
def install (r : Router α τ) (routes : List (RoutingEntry α)) : Router α τ :=
  { r with selector.table := r.selector.table.replace routes }

def compareWith (r : Router α τ) (routes : List (RoutingEntry α)) : Router α τ :=
  { r with selector.table := r.selector.table.replaceDryRun routes }

/-- The link-state routes by the adjacency advertisements in force. -/
def linkState (r : Router α τ) : List (RoutingEntry α) :=
  linkStateRoutes r.selector.settings.router (r.database.topology .adjacency)

/-- The hyperbolic routes by the coordinates in force. -/
def hyperbolic (r : Router α τ) : List (RoutingEntry α) :=
  hyperbolicRoutes r.monitor.neighbors r.selector.settings.router (r.database.topology .coordinate)

/-- Takes in the requests that come in during a link-state calculation. -/
def interrupt (r : Router α τ) : Router α τ :=
  match r.selector.interruptions with
  | [] => r
  | n :: rest =>
    { r with selector.interruptions := rest }.onSchedule (·.requests r.now n)

def calculateLinkState (r : Router α τ) : Router α τ := r.interrupt.install r.linkState

/-! ## Strategies -/

/-- The strategy of an algorithm before it has seen anything. -/
def newStrategy? (r : Router α τ) : Option (Strategy α) :=
  match r.selector.settings.algorithm with
  | .linkState => none
  | .loadAware => some (.loadAware (.fresh r.monitor.settings.maxMultiplier))
  | .mlAdaptive => some (.learning (.untrained r.selector.learning r.now))

/-- Puts the strategy of the algorithm in force unless it is. -/
def ensureStrategy (r : Router α τ) : Router α τ :=
  if r.monitor.memory.strategy.map Strategy.algorithm = some r.selector.settings.algorithm then r
  else
    match r.newStrategy? with
    | none => r
    | some s => { r with monitor := r.monitor.adopt s }

/-- Puts link-state routes in force under a strategy, if the costs can be acted on. -/
def calculateAdaptive (r : Router α τ) : Router α τ :=
  if r.selector.hasCosts then r.ensureStrategy.install r.linkState else r.calculateLinkState

/-! ## The calculation -/

/-- Calculates the routes as the settings say. -/
def recalculate (r : Router α τ) : Router α τ :=
  match r.selector.settings.algorithm, r.selector.settings.hyperbolic with
  | .linkState, .off => r.calculateLinkState
  | .linkState, .dryRun => r.calculateLinkState.compareWith r.hyperbolic
  | .linkState, .on => r.install r.hyperbolic
  | .loadAware, _ | .mlAdaptive, _ => r.calculateAdaptive

/-- Notes whether the own adjacency advertisement is in force. -/
def checkOwn (r : Router α τ) : Router α τ :=
  { r with selector.advertised := r.database.has r.selector.settings.router .adjacency }

/-- Calculates the table and publishes it, unless a rebuild is pending. -/
def calculate (r : Router α τ) : Router α τ :=
  -- A calculation that is turned away is not asked for again.
  if r.monitor.rebuild.pending then r
  else
    let r := r.checkOwn
    if r.selector.advertised then
      let r := { r with selector.calculations := r.selector.calculations + 1 }.recalculate
      { r with selector := r.selector.publish }
    else { r with selector := r.selector.withdraw }

/-- Calculates the table if a calculation is due; whether one was is the first part. -/
def poll (r : Router α τ) : Bool × Router α τ :=
  match r.monitor.schedule.begin? r.now with
  | none => (false, r)
  | some schedule =>
    let r := (r.onSchedule fun _ => schedule).calculate
    (true, r.onSchedule (·.finish r.now))

/-- The monitor that is left when the selector goes away. -/
def retire (r : Router α τ) : Monitor α (HookMemory α τ) :=
  if r.selector.hasCosts then r.monitor.abandon else r.monitor

end AdaptiveRouting.Router
