import AdaptiveRouting.Failure
import AdaptiveRouting.Vocabulary

/-!
# Neighbor table

The neighbors of this router with the cost that is advertised for the link to each. The table
belongs to the hello protocol; the link monitor only writes costs into it. Writing to a neighbor
that is not in the table fails.
-/

namespace AdaptiveRouting

/-- One configured neighbor. -/
structure Adjacency (α : Type) where
  name : Name
  status : LinkStatus
  /-- The advertised cost. -/
  linkCost : α
  configuredCost : α
  timeouts : Nat

/-- The configured neighbors by name. -/
structure AdjacencyTable (α : Type) where
  entries : NameMap (Adjacency α)

namespace AdjacencyTable

variable {α : Type}

/-- No neighbors. -/
def empty : AdjacencyTable α := ⟨∅⟩

/-- Adds a neighbor or replaces the one of that name. -/
def insert (t : AdjacencyTable α) (a : Adjacency α) : AdjacencyTable α :=
  ⟨t.entries.insert a.name a⟩

/-- The table of some neighbors; of two with one name the later stays. -/
def ofList (as : List (Adjacency α)) : AdjacencyTable α := as.foldl insert empty

/-- The neighbors in the order of their names. -/
def toList (t : AdjacencyTable α) : List (Adjacency α) := t.entries.toList.map (·.2)

/-- The entry of a neighbor. -/
def find? (t : AdjacencyTable α) (neighbor : Name) : Option (Adjacency α) := t.entries[neighbor]?

def linkCost? (t : AdjacencyTable α) (neighbor : Name) : Option α :=
  (t.find? neighbor).map (·.linkCost)

/-- Changes the entry of a neighbor. -/
def modify (t : AdjacencyTable α) (neighbor : Name) (f : Adjacency α → Adjacency α) :
    Except Failure (AdjacencyTable α) :=
  match t.entries[neighbor]? with
  | none => .error (.neighborNotFound neighbor)
  | some a => .ok ⟨t.entries.insert neighbor (f a)⟩

/-- Advertises another cost for a neighbor. -/
def setLinkCost (t : AdjacencyTable α) (neighbor : Name) (cost : α) :
    Except Failure (AdjacencyTable α) :=
  t.modify neighbor fun a => { a with linkCost := cost }

def setStatus (t : AdjacencyTable α) (neighbor : Name) (status : LinkStatus) :
    Except Failure (AdjacencyTable α) :=
  t.modify neighbor fun a => { a with status }

end AdjacencyTable

end AdaptiveRouting
