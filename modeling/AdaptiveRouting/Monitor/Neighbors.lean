import AdaptiveRouting.Monitor.Probing

/-!
# News of the neighbors

What the hello protocol has to say about neighbors. A neighbor that is heard of is stable again; a
neighbor that has missed too many hellos, or is reported inactive, is given up and its round-trip
times are forgotten. When a neighbor is reported active again, its configured cost is restored.
-/

namespace AdaptiveRouting

/-- News of a neighbor. -/
inductive NeighborEvent where
  | helloSent (neighbor : Name)
  | helloReceived (neighbor : Name)
  /-- It has missed so many hellos in a row. -/
  | helloTimeout (neighbor : Name) (timeouts : Nat)
  /-- It takes part from now on, or does not. -/
  | statusChanged (neighbor : Name) (status : LinkStatus)
deriving DecidableEq

def NeighborEvent.neighbor : NeighborEvent → Name
  | .helloSent n | .helloReceived n | .helloTimeout n _ | .statusChanged n _ => n

namespace MonitorState

variable {α : Type}

def helloReceived (m : MonitorState α) (neighbor : Name) : MonitorState α :=
  match m.links[neighbor]? with
  | none => m
  | some link =>
    let link := { link with status := .active, timeouts := 0, lastSuccess := m.clock.now }
    let m := { m with links := m.links.insert neighbor link }
    -- A link that has samples is taken to be armed already, and the cost in force is left as it is.
    if m.active && link.isStable && link.samples = 0 then m.ensureProbe neighbor else m

def helloTimeout (m : MonitorState α) (neighbor : Name) (timeouts : Nat) : MonitorState α :=
  m.updateLink neighbor fun link =>
    let link := { link with timeouts }
    -- The history goes, while probes that are under way stay pending.
    if m.settings.retryThreshold ≤ timeouts then { link.clearHistory with status := .inactive }
    else link

/-- Gives a neighbor up together with the probes that it has not answered. -/
def deactivate (m : MonitorState α) (neighbor : Name) (link : LinkState α) : MonitorState α :=
  let link := { link.clearHistory with
    status := .inactive
    timeouts := m.settings.retryThreshold }
  { m with
    links := m.links.insert neighbor link
    pending := m.pending.filter fun _ probe => probe.neighbor ≠ neighbor }

/-- Takes a neighbor back at its configured cost. -/
def reactivate (m : MonitorState α) (neighbor : Name) (link : LinkState α) : MonitorState α :=
  let link := { link with
    status := .active
    currentCost := link.configuredCost
    timeouts := 0
    lastSuccess := m.clock.now }
  let m := { m with
    links := m.links.insert neighbor link
    neighbors := m.tryWriteCost m.neighbors neighbor link.configuredCost }
  if m.active then m.ensureProbe neighbor else m

/-- A neighbor takes part from now on, or does not. -/
def statusChanged (m : MonitorState α) (neighbor : Name) (status : LinkStatus) : MonitorState α :=
  match m.links[neighbor]? with
  | none => m
  | some link =>
    match status with
    | .inactive => m.deactivate neighbor link
    -- To hear again that a neighbor is active changes nothing.
    | .active => if link.status = .active then m else m.reactivate neighbor link

def handleNews (m : MonitorState α) : NeighborEvent → MonitorState α
  | .helloSent _ => m
  | .helloReceived neighbor => m.helloReceived neighbor
  | .helloTimeout neighbor timeouts => m.helloTimeout neighbor timeouts
  | .statusChanged neighbor status => m.statusChanged neighbor status

end MonitorState

end AdaptiveRouting
