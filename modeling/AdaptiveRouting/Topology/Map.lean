import AdaptiveRouting.Name
import AdaptiveRouting.Vocabulary

/-!
# Topology maps

The graph that a path calculation works on: the routers, the directed links between them with
their costs, and the hyperbolic coordinates of those that have advertised some. A map is built
from the advertisements of one kind.
-/

namespace AdaptiveRouting

/-- A directed link between two routers. -/
structure Link (α : Type) where
  source : Name
  target : Name
  /-- What it costs to use it. -/
  cost : α

/-- The position of a router in hyperbolic space. -/
structure Coordinate (α : Type) where
  radius : α
  angles : List α

/-- The graph for a path calculation. -/
structure TopologyMap (α : Type) where
  /-- The kind of the advertisements that it is built from. -/
  kind : AdvertisementKind
  /-- The routers that are known. -/
  routers : NameSet
  /-- The links in the order in which they were advertised. -/
  links : List (Link α)
  /-- The positions that are known. -/
  coordinates : NameMap (Coordinate α)

namespace TopologyMap

variable {α : Type}

/-- A map without routers. -/
def empty (kind : AdvertisementKind) : TopologyMap α := ⟨kind, ∅, [], ∅⟩

/-- Whether no router is known. -/
def isEmpty (m : TopologyMap α) : Bool := m.routers.isEmpty

def linksFrom (m : TopologyMap α) (router : Name) : List (Link α) :=
  m.links.filter fun l => l.source = router

end TopologyMap

end AdaptiveRouting
