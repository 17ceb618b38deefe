import AdaptiveRouting.Link.Cost
import AdaptiveRouting.Link.Performance
import AdaptiveRouting.Monitor.Probing

/-!
# From round-trip times to costs

An answered probe adds a round-trip time to its link. With enough of them the performance of the
link is reported to the feedback hook, and a new cost is computed from their average. A cost that
differs noticeably from the current one passes through the transform hook, whose answer counts only
if it is a usable cost, and is written into the neighbor table unless it is too close to what is
there.

A cost that was written asks for a rebuild of the own advertisement and for a calculation, but
not more often than once in a trigger interval on account of one neighbor (`trigger`).
-/

namespace AdaptiveRouting

variable {α σ : Type} [Scalar α]

/-- The cost of a link by its average round-trip time; the configured one when there is none. -/
def LinkState.measuredCost (link : LinkState α) (maxMultiplier : α) : α :=
  match link.averageRtt? with
  | none => link.configuredCost
  | some average => rttCost maxMultiplier link.configuredCost average

namespace MonitorState

/-- The cost of the link to a neighbor by its round-trip times, if the neighbor takes part. -/
def newCost? (m : MonitorState α) (neighbor : Name) : Option α :=
  match m.links[neighbor]? with
  | none => none
  | some link =>
    if link.status = .inactive then none else some (link.measuredCost m.settings.maxMultiplier)

/-- Whether a cost differs noticeably from the one in force. -/
def shouldUpdate (m : MonitorState α) (neighbor : Name) (cost : α) : Bool :=
  match m.links[neighbor]? with
  | none => false
  | some link => isNoticeable m.settings.changeThreshold link.currentCost cost

/-- The cost that is advertised for a neighbor and the view of its link, if its cost can be
changed. -/
def revisable? (m : MonitorState α) (neighbor : Name) : Option (α × LinkMetrics α) :=
  match m.neighbors.linkCost? neighbor, m.links[neighbor]? with
  | some advertised, some link =>
    if link.status = .inactive then none else some (advertised, link.metrics)
  | _, _ => none

/-- Whether a rebuild on account of a link comes too soon after the one before. -/
def isRateLimited (m : MonitorState α) (link : LinkState α) : Bool :=
  match link.lastTrigger with
  | none => false
  | some last => m.clock.now - last < m.settings.triggerInterval

/-- Asks for a rebuild and a calculation on account of a link whose cost has changed; hellos that
are outstanding put it off, and then the change is only counted. -/
def trigger (m : MonitorState α) (neighbor : Name) (link : LinkState α) : MonitorState α :=
  if m.isRateLimited link then m
  else
    let now := m.clock.now
    let m : MonitorState α :=
      { m with
        links := m.links.insert neighbor { link with lastTrigger := some now }
        -- The request is counted and noted before hellos are asked about, so it uses up its
        -- interval in any case.
        stats.costUpdates := m.stats.costUpdates + 1 }
    if link.timeouts = 0 then
      { m with rebuild := m.rebuild.request, schedule := m.schedule.request now }
    else m

/-- Puts a cost in force that is already in the neighbor table. -/
def adoptCost (m : MonitorState α) (neighbor : Name) (cost : α) : MonitorState α :=
  match m.links[neighbor]? with
  | none => m
  | some link =>
    let link := { link with currentCost := cost }
    { m with links := m.links.insert neighbor link }.trigger neighbor link

/-- Writes a cost unless it is too close to the advertised one, and puts it in force. -/
def applyCost (m : MonitorState α) (neighbor : Name) (advertised cost : α) : MonitorState α :=
  -- What counts here is the advertised cost, which need not be the one in force.
  if isFine m.settings.fineThreshold advertised cost then m
  else
    match m.writtenCost? m.neighbors neighbor cost with
    | none => m
    | some neighbors => { m with neighbors }.adoptCost neighbor cost

end MonitorState

namespace Monitor

/-- The cost that a transform makes of the cost by round-trip times: its answer if it is a usable
cost, else the cost as it was. -/
def transformed (m : Monitor α σ) (neighbor : Name) (cost : α) (metrics : LinkMetrics α) :
    α × Monitor α σ :=
  match m.hooks.transform with
  | none => (cost, m)
  | some transform =>
    let (answer, memory) := transform m.clock neighbor cost metrics m.memory
    ((answer.filter isUsable).getD cost, { m with memory })

/-- Applies a new cost by round-trip times to a neighbor. -/
def updateCost (m : Monitor α σ) (neighbor : Name) (cost : α) : Monitor α σ :=
  match m.revisable? neighbor with
  | none => m
  | some (advertised, metrics) =>
    let (final, m) := m.transformed neighbor cost metrics
    -- The answer of a transform is not cut down to the cap.
    m.act (·.applyCost neighbor advertised final)

/-- Reports how a link performs, once there are enough round-trip times. -/
def tellPerformance (m : Monitor α σ) (neighbor : Name) (x : MonitorState.Measurement α) :
    Monitor α σ :=
  match m.hooks.feedback with
  | none => m
  | some feedback =>
    if m.settings.minFeedbackSamples ≤ x.link.samples then
      let score := Performance.score x.rtt x.link.history x.link.timeouts
      { m with memory := feedback m.clock neighbor score m.memory }
    else m

/-- Revises the cost of a link, once there are enough round-trip times. -/
def reviseCost (m : Monitor α σ) (neighbor : Name) (x : MonitorState.Measurement α) : Monitor α σ :=
  if m.settings.minCostSamples ≤ x.link.samples then
    match m.newCost? neighbor with
    | none => m
    | some cost => if m.shouldUpdate neighbor cost then m.updateCost neighbor cost else m
  else m

/-- Takes the answer to a probe. -/
def handleResponse (m : Monitor α σ) (seq : UInt32) : Monitor α σ :=
  let (measurement, state) := m.measure seq
  let m := { m with toMonitorState := state }
  match measurement with
  | none => m
  | some (neighbor, x) => (m.tellPerformance neighbor x).reviseCost neighbor x

/-- Takes the outcome of a probe; the number alone says which probe it was. -/
def handleOutcome (m : Monitor α σ) (outcome : ProbeOutcome) : Monitor α σ :=
  match outcome.kind with
  | .data => m.handleResponse outcome.seq
  | .nack | .timeout => m.act (·.forget outcome.seq)

end Monitor

end AdaptiveRouting
