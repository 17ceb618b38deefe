import AdaptiveRouting.Topology.Map

/-!
# Link-state database

The advertisements that are in force: for each router the links to its neighbors and its
coordinates. Every change is reported as a `Change`, which does not say more than what happened
to which advertisement of whom.

`Rebuild` keeps account of the requests to rebuild this router's own advertisement, and `Mailbox`
is a subscription to changes that keeps the latest ones only: a reader that has fallen behind is
first told how many it has missed.
-/

namespace AdaptiveRouting

/-- What happened to an advertisement. -/
structure Change where
  kind : ChangeKind
  /-- The kind of the advertisement. -/
  advertisement : AdvertisementKind
  /-- The router that it describes. -/
  origin : Name
deriving DecidableEq

/-- The advertisements that are in force. -/
structure Database (α : Type) where
  /-- The links that each router advertises, in its own order. -/
  adjacencies : NameMap (List (Name × α))
  /-- The coordinates that each router advertises. -/
  coordinates : NameMap (Coordinate α)

namespace Database

variable {α : Type}

/-- No advertisements. -/
def empty : Database α := ⟨∅, ∅⟩

/-- Whether an advertisement is in force. -/
def has (d : Database α) (origin : Name) : AdvertisementKind → Bool
  | .adjacency => d.adjacencies.contains origin
  | .coordinate => d.coordinates.contains origin
  | .name => false

/-- The change of putting an advertisement in force. -/
def arrival (d : Database α) (origin : Name) (kind : AdvertisementKind) : Change :=
  ⟨if d.has origin kind then .updated else .installed, kind, origin⟩

/-- Puts the links of a router in force. -/
def installAdjacency (d : Database α) (origin : Name) (neighbors : List (Name × α)) :
    Change × Database α :=
  (d.arrival origin .adjacency, { d with adjacencies := d.adjacencies.insert origin neighbors })

def installCoordinate (d : Database α) (origin : Name) (coordinate : Coordinate α) :
    Change × Database α :=
  (d.arrival origin .coordinate, { d with coordinates := d.coordinates.insert origin coordinate })

/-- Removes an advertisement; nothing changes when it is not in force. -/
def remove (d : Database α) (origin : Name) (kind : AdvertisementKind) :
    Option Change × Database α :=
  if d.has origin kind then
    (some ⟨.removed, kind, origin⟩,
      match kind with
      | .adjacency => { d with adjacencies := d.adjacencies.erase origin }
      | .coordinate => { d with coordinates := d.coordinates.erase origin }
      | .name => d)
  else (none, d)

def linksOf (origin : Name) (neighbors : List (Name × α)) : List (Link α) :=
  neighbors.map fun n => ⟨origin, n.1, n.2⟩

/-- The map built from the advertisements of one kind. -/
def topology (d : Database α) : AdvertisementKind → TopologyMap α
  | .adjacency =>
    { kind := .adjacency
      routers := .ofList (d.adjacencies.toList.flatMap fun a => a.1 :: a.2.map (·.1))
      links := d.adjacencies.toList.flatMap fun a => linksOf a.1 a.2
      coordinates := ∅ }
  | .coordinate =>
    { kind := .coordinate
      routers := .ofList (d.coordinates.toList.map (·.1))
      links := []
      coordinates := d.coordinates }
  | .name => .empty .name

end Database

/-! ## Rebuilding the own advertisement -/

/-- The requests to rebuild this router's adjacency advertisement. -/
structure Rebuild where
  requests : Nat
  /-- Whether one has not been carried out. -/
  pending : Bool
deriving DecidableEq, Inhabited

namespace Rebuild

/-- No request yet. -/
def idle : Rebuild := ⟨0, false⟩

/-- Asks for a rebuild. -/
def request (r : Rebuild) : Rebuild := ⟨r.requests + 1, true⟩

/-- Notes that the rebuild is done; whether there was one to do is the first part. -/
def complete (r : Rebuild) : Bool × Rebuild := (r.pending, { r with pending := false })

end Rebuild

/-! ## Subscriptions -/

/-- The number of messages that a subscription keeps. -/
def mailboxCapacity : Nat := 256

/-- The latest messages of a subscription that have not been read. -/
structure Mailbox (β : Type) where
  /-- The messages at hand, oldest first. -/
  kept : List β
  /-- The number of older messages that were lost. -/
  missed : Nat

/-- What a reader of a subscription gets. -/
inductive Delivery (β : Type) where
  | nothing
  /-- So many messages were lost. -/
  | lagged (missed : Nat)
  | message (value : β)

namespace Mailbox

variable {β : Type}

/-- Nothing received yet. -/
def empty : Mailbox β := ⟨[], 0⟩

/-- Receives a message; the oldest one makes room for it when the mailbox is full. -/
def push (b : Mailbox β) (x : β) : Mailbox β :=
  if b.kept.length < mailboxCapacity then { b with kept := b.kept ++ [x] }
  else ⟨b.kept.drop 1 ++ [x], b.missed + 1⟩

/-- Reads: the count of lost messages first, then the messages in order. -/
def read (b : Mailbox β) : Delivery β × Mailbox β :=
  if b.missed ≠ 0 then (.lagged b.missed, { b with missed := 0 })
  else
    match b.kept with
    | [] => (.nothing, b)
    | x :: rest => (.message x, { b with kept := rest })

end Mailbox

end AdaptiveRouting
