import AdaptiveRouting.Routing.Table
import AdaptiveRouting.Topology.Adjacency
import AdaptiveRouting.Topology.Map

/-!
# Hyperbolic routing

Greedy forwarding by coordinates: every active neighbor whose position is known is a next hop
towards every destination whose position is known, at the cost of the hyperbolic distance between
the two. A neighbor that is the destination itself costs nothing.

Positions are given in native polar coordinates, a radius and one or more hyperspherical angles.
Positions with different numbers of angles, or with none, have no distance.
-/

namespace AdaptiveRouting

variable {α : Type} [Scalar α]

/-- The components of the unit vector in the direction of some angles, scaled by the product of
the sines so far. -/
def direction (sines : α) : List α → List α
  | [] => [sines]
  | angle :: rest => sines * Scalar.cos angle :: direction (sines * Scalar.sin angle) rest

def angleBetween (a b : List α) : α :=
  Scalar.arccos (Scalar.clamp (Scalar.dot (direction 1.0 a) (direction 1.0 b)) (-1.0) 1.0)

/-- The hyperbolic distance of two positions that lie `delta` apart as seen from the origin. -/
def distanceAtAngle (r s delta : α) : α :=
  if delta == 0.0 then Scalar.abs (r - s)
  else
    Scalar.arcosh (Scalar.greater
      (Scalar.cosh r * Scalar.cosh s - Scalar.sinh r * Scalar.sinh s * Scalar.cos delta) 1.0)

/-- The hyperbolic distance of two positions, if there is one. -/
def hyperbolicDistance? (a b : Coordinate α) : Option α :=
  if a.angles.length ≠ b.angles.length ∨ a.angles = [] then none
  else some (distanceAtAngle a.radius b.radius (angleBetween a.angles b.angles))

def locatedNeighbors (neighbors : AdjacencyTable α) (m : TopologyMap α) :
    List (Name × Coordinate α) :=
  neighbors.toList.filterMap fun a =>
    if a.status = .active then (m.coordinates[a.name]?).map fun c => (a.name, c) else none

/-- The way to a destination through a neighbor, if it has a finite cost. -/
def greedyHop? (destination : Name) (target : Coordinate α) (neighbor : Name × Coordinate α) :
    Option (NextHop α) :=
  if neighbor.1 = destination then some ⟨neighbor.1, 0.0⟩
  else
    match hyperbolicDistance? neighbor.2 target with
    | none => none
    | some cost => if Scalar.isFinite cost then some ⟨neighbor.1, cost⟩ else none

/-- The ways to a destination. -/
def greedyEntry (neighbors : List (Name × Coordinate α)) (destination : Name)
    (target : Coordinate α) : RoutingEntry α :=
  (neighbors.filterMap (greedyHop? destination target)).foldl .add (.unreachable destination)

/-- The routes from a router to every other one whose position is known, by destination. -/
def hyperbolicRoutes (neighbors : AdjacencyTable α) (source : Name) (m : TopologyMap α) :
    List (RoutingEntry α) :=
  let located := locatedNeighbors neighbors m
  m.coordinates.toList.filterMap fun c =>
    let entry := greedyEntry located c.1 c.2
    if c.1 = source ∨ entry.hops.isEmpty then none else some entry

end AdaptiveRouting
