import AdaptiveRouting.Routing.Table
import AdaptiveRouting.Topology.Map

/-!
# Shortest paths

Link-state routing: every router knows the whole map, and each picks for every destination the
neighbor behind which its cheapest path lies. Links count when their cost is at least zero, which
leaves out negative costs and what is not a number.

`distances` relaxes every link in as many rounds as there are routers, so that the cheapest path
of any length is found. `firstHops` then gives each destination the first hop of a predecessor on
one of its cheapest paths, the lowest name if there are several, in the order of distance; since
a link may cost nothing, a destination can come before its own predecessor in that order, and the
pass is repeated for as long as it settles anything.

`Path` is the relation that these are about: the sequences of admitted links that lead from one
router to another, with their total cost and their first hop.
-/

namespace AdaptiveRouting

variable {α : Type} [Scalar α]

/-! ## Paths -/

/-- The links that count. -/
def TopologyMap.admitted (m : TopologyMap α) : List (Link α) :=
  m.links.filter fun l => decide ((0.0 : α) ≤ l.cost)

/-- The routers that are listed or at an end of a link that counts. -/
def TopologyMap.nodes (m : TopologyMap α) : NameSet :=
  m.admitted.foldl (fun s l => (s.insert l.source).insert l.target) m.routers

/-- A path of `links` from `source` to `target`, costs added from the source on. -/
inductive Path (links : List (Link α)) (source : Name) : Name → α → Prop where
  | here : Path links source source 0.0
  | step {middle : Name} {cost : α} {l : Link α} : Path links source middle cost → l ∈ links →
      l.source = middle → Path links source l.target (cost + l.cost)

/-- A path of at least one link, with the router after the source as its first hop. -/
inductive PathVia (links : List (Link α)) (source hop : Name) : Name → α → Prop where
  | first {l : Link α} : l ∈ links → l.source = source → l.target = hop →
      PathVia links source hop hop (0.0 + l.cost)
  | step {middle : Name} {cost : α} {l : Link α} : PathVia links source hop middle cost →
      l ∈ links → l.source = middle → PathVia links source hop l.target (cost + l.cost)

/-! ## Distances -/

/-- Lowers the distance of the link's end if the link offers a shorter way to it. -/
def relax (d : NameMap α) (l : Link α) : NameMap α :=
  match d[l.source]? with
  | none => d
  | some near =>
    match d[l.target]? with
    | none => d.insert l.target (near + l.cost)
    | some far => if near + l.cost < far then d.insert l.target (near + l.cost) else d

def relaxRounds (links : List (Link α)) : Nat → NameMap α → NameMap α
  | 0, d => d
  | rounds + 1, d => relaxRounds links rounds (links.foldl relax d)

/-- The cost of the cheapest path to each router that can be reached. -/
def distances (m : TopologyMap α) (source : Name) : NameMap α :=
  relaxRounds m.admitted m.nodes.size ((∅ : NameMap α).insert source 0.0)

/-! ## First hops -/

/-- A router that can be reached, with its distance. -/
abbrev Reached (α : Type) := Name × α

/-- Whether one router comes before another: by distance, then by name. -/
def nearer (a b : Reached α) : Bool :=
  if Scalar.totalLE a.2 b.2 then
    -- Equal distances leave it to the names.
    if Scalar.totalLE b.2 a.2 then (compare a.1 b.1).isLE else true
  else false

/-- Puts a router in front of those that it comes before. -/
def insertNearer (a : Reached α) : List (Reached α) → List (Reached α)
  | [] => [a]
  | b :: rest => if nearer a b then a :: b :: rest else b :: insertNearer a rest

/-- The routers other than the source, nearest first. -/
def byDistance (d : NameMap α) (source : Name) : List (Reached α) :=
  (d.toList.filter fun r => r.1 ≠ source).foldr insertNearer []

/-- The first hop that a link hands on to its end: the end itself behind the source, otherwise the
first hop of the link's start. -/
def handedOn (d : NameMap α) (source : Name) (hops : NameMap Name) (target : Reached α)
    (l : Link α) : Option Name :=
  if l.target = target.1 then
    match d[l.source]? with
    | none => none
    | some near =>
      if near + l.cost == target.2 then
        if l.source = source then some target.1 else hops[l.source]?
      else none
  else none

def lowest? : List Name → Option Name
  | [] => none
  | n :: rest =>
    match lowest? rest with
    | none => some n
    | some m => if (compare n m).isLE then some n else some m

/-- Settles the first hop of a router if a predecessor's is known. -/
def settleHop (links : List (Link α)) (d : NameMap α) (source : Name) (hops : NameMap Name)
    (target : Reached α) : NameMap Name :=
  -- A hop is final, even if a predecessor that is settled later has a lower one.
  if hops.contains target.1 then hops
  else
    match lowest? (links.filterMap (handedOn d source hops target)) with
    | none => hops
    | some hop => hops.insert target.1 hop

/-- Repeats the pass over the routers for as long as it settles anything, but no more than
`passes` times. -/
def settleHops (links : List (Link α)) (d : NameMap α) (source : Name)
    (order : List (Reached α)) : Nat → NameMap Name → NameMap Name
  | 0, hops => hops
  | passes + 1, hops =>
    let next := order.foldl (settleHop links d source) hops
    if next.size = hops.size then hops else settleHops links d source order passes next

/-- The first hop on a cheapest path to each router other than the source that can be reached.
A pass that settles nothing ends the search, so as many passes as routers are enough. -/
def firstHops (m : TopologyMap α) (source : Name) (d : NameMap α) : NameMap Name :=
  let order := byDistance d source
  settleHops m.admitted d source order (order.length + 1) ∅

/-- The entry of a destination with its one next hop. -/
def routeVia (d : NameMap α) (destination hop : Name) : RoutingEntry α :=
  ⟨destination, (d[destination]?).toList.map fun cost => ⟨hop, cost⟩⟩

/-- The routes from a router to every other one, by destination. -/
def linkStateRoutes (source : Name) (m : TopologyMap α) : List (RoutingEntry α) :=
  if m.nodes.contains source then
    let d := distances m source
    (firstHops m source d).toList.map fun h => routeVia d h.1 h.2
  else []

end AdaptiveRouting
