import AdaptiveRouting.Name
import AdaptiveRouting.Scalar

/-!
# Routing table

For each destination the neighbors through which it can be reached, cheapest first, with no
neighbor twice. `RoutingEntry.add` keeps that form: a hop through a neighbor that is already
there changes its cost in place, and the hops are then sorted by cost in the total order, those
of equal cost staying as they were.

Beside the live entries the table holds the entries of a dry run, which nobody forwards by.
-/

namespace AdaptiveRouting

/-- A neighbor on the way to a destination. -/
structure NextHop (α : Type) where
  neighbor : Name
  /-- The cost of the way through it. -/
  cost : α

/-- The ways to one destination. -/
structure RoutingEntry (α : Type) where
  destination : Name
  hops : List (NextHop α)

namespace RoutingEntry

variable {α : Type}

/-- A destination that cannot be reached. -/
def unreachable (destination : Name) : RoutingEntry α := ⟨destination, []⟩

/-- The cheapest next hop. -/
def best? (e : RoutingEntry α) : Option (NextHop α) := e.hops.head?

/-- Sets the cost of the way through a neighbor, in place or at the end. -/
def place (hop : NextHop α) : List (NextHop α) → List (NextHop α)
  | [] => [hop]
  | h :: rest =>
    if h.neighbor = hop.neighbor then { h with cost := hop.cost } :: rest else h :: place hop rest

variable [Scalar α]

/-- Puts a hop in front of those that do not cost less. -/
def insertByCost (hop : NextHop α) : List (NextHop α) → List (NextHop α)
  | [] => [hop]
  | h :: rest =>
    if Scalar.totalLE hop.cost h.cost then hop :: h :: rest else h :: insertByCost hop rest

/-- Sorts hops by cost and keeps the order of those that cost the same. -/
def sortByCost (hops : List (NextHop α)) : List (NextHop α) := hops.foldr insertByCost []

/-- Adds a way to the destination or replaces the one through the same neighbor. -/
def add (e : RoutingEntry α) (hop : NextHop α) : RoutingEntry α :=
  { e with hops := sortByCost (place hop e.hops) }

end RoutingEntry

/-- Entries by destination. -/
abbrev Routes (α : Type) := NameMap (RoutingEntry α)

def Routes.entry {α : Type} (r : Routes α) (destination : Name) : RoutingEntry α :=
  (r[destination]?).getD (.unreachable destination)

def Routes.addHop {α : Type} [Scalar α] (r : Routes α) (destination : Name) (hop : NextHop α) :
    Routes α :=
  r.insert destination ((r.entry destination).add hop)

/-- Takes in an entry, hop by hop. -/
def Routes.merge {α : Type} [Scalar α] (r : Routes α) (e : RoutingEntry α) : Routes α :=
  r.insert e.destination (e.hops.foldl .add (r.entry e.destination))

/-- The entries in the order of their destinations. -/
def Routes.listed {α : Type} (r : Routes α) : List (RoutingEntry α) := r.toList.map (·.2)

/-- The live entries and those of the dry run. -/
structure RoutingTable (α : Type) where
  /-- The entries in force. -/
  live : Routes α
  /-- The entries for comparison. -/
  dryRun : Routes α

/-- What a reader of the table gets to see. -/
structure Snapshot (α : Type) where
  /-- The entries in force, by destination. -/
  entries : List (RoutingEntry α)
  /-- The entries for comparison, by destination. -/
  dryRun : List (RoutingEntry α)

/-- Whether there is nothing to see. -/
def Snapshot.isEmpty {α : Type} (s : Snapshot α) : Bool := s.entries.isEmpty && s.dryRun.isEmpty

def Snapshot.entry? {α : Type} (s : Snapshot α) (destination : Name) : Option (RoutingEntry α) :=
  s.entries.find? fun e => e.destination = destination

namespace RoutingTable

variable {α : Type}

/-- No entries. -/
def empty : RoutingTable α := ⟨∅, ∅⟩

/-- Drops every entry. -/
def clear (_ : RoutingTable α) : RoutingTable α := empty

def clearDryRun (t : RoutingTable α) : RoutingTable α := { t with dryRun := ∅ }

/-- The entry in force of a destination. -/
def find? (t : RoutingTable α) (destination : Name) : Option (RoutingEntry α) :=
  t.live[destination]?

/-- The number of destinations that can be reached. -/
def size (t : RoutingTable α) : Nat := t.live.size

/-- What a reader gets to see. -/
def snapshot (t : RoutingTable α) : Snapshot α := ⟨t.live.listed, t.dryRun.listed⟩

variable [Scalar α]

def addHop (t : RoutingTable α) (destination : Name) (hop : NextHop α) : RoutingTable α :=
  { t with live := t.live.addHop destination hop }

/-- Puts other entries in force. -/
def replace (t : RoutingTable α) (entries : List (RoutingEntry α)) : RoutingTable α :=
  { t with live := entries.foldl Routes.merge ∅ }

/-- Takes other entries for comparison. -/
def replaceDryRun (t : RoutingTable α) (entries : List (RoutingEntry α)) : RoutingTable α :=
  { t with dryRun := entries.foldl Routes.merge ∅ }

end RoutingTable

end AdaptiveRouting
