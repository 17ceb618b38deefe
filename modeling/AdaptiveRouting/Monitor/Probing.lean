import AdaptiveRouting.Monitor.Basic

/-!
# Probing

Every stable link is probed once in a probe interval, plus a random jitter. `scheduleProbe` arms
the timer of a neighbor and disarms the one before, so that a neighbor has one timer at most, and
does nothing unless the monitor is active.

A probe has a number that no other unanswered probe has. It is pending from when it is sent until
an outcome of that number arrives (`measure`, `forget`), or until its neighbor is given up or the
monitor is stopped; an outcome whose number is not pending changes nothing.
-/

namespace AdaptiveRouting.MonitorState

variable {α : Type}

/-! ## Timers -/

/-- A delay that lets time pass. -/
def nonzeroDelay (d : Duration) : Duration := if d = 0 then .ofSeconds 1 else d

/-- The delay until the next probe to a neighbor; a random number is drawn unless the jitter is
below one millisecond. -/
def probeDelay (m : MonitorState α) : Duration × MonitorState α :=
  let bound := m.settings.probeJitter / 1000000
  if bound = 0 then (nonzeroDelay m.settings.probeInterval, m)
  else
    (nonzeroDelay (m.settings.probeInterval + .ofMillis (m.jitter m.drawn % bound)),
      { m with drawn := m.drawn + 1 })

def disarm (m : MonitorState α) (neighbor : Name) : MonitorState α :=
  match m.probeTimers[neighbor]? with
  | none => m
  | some id =>
    { m with timers := (m.timers.cancel id).2, probeTimers := m.probeTimers.erase neighbor }

def arm (m : MonitorState α) (neighbor : Name) (delay : Duration) : MonitorState α :=
  let (id, timers) := m.timers.schedule (m.clock.now + delay) (.probe neighbor)
  { m with timers, probeTimers := m.probeTimers.insert neighbor id }

/-- Arms the timer of a neighbor afresh. -/
def scheduleProbe (m : MonitorState α) (neighbor : Name) : MonitorState α :=
  if m.active then
    -- The jitter is drawn before the timer is looked at.
    let (delay, m) := m.probeDelay
    (m.disarm neighbor).arm neighbor delay
  else m

/-- Arms the timer of a neighbor unless it is armed. -/
def ensureProbe (m : MonitorState α) (neighbor : Name) : MonitorState α :=
  if m.probeTimers.contains neighbor then m else m.scheduleProbe neighbor

/-! ## Probes -/

def nextRequest (m : MonitorState α) (neighbor : Name) : ProbeRequest :=
  .of ⟨neighbor, m.nextSeq⟩ m.settings.probeLifetime

/-- Sends a probe to a neighbor and tells its number, if it can be sent. -/
def sendProbe (m : MonitorState α) (neighbor : Name) : Option UInt32 × MonitorState α :=
  let seq := m.nextSeq
  let request := m.nextRequest neighbor
  -- The number is used up whether or not the probe can be sent; it wraps around at 2³².
  let m := { m with nextSeq := seq + 1 }
  if m.outlet request then
    (some seq,
      { m with
        pending := m.pending.insert seq ⟨neighbor, m.clock.now⟩
        stats.sent := m.stats.sent + 1
        outbox := m.outbox ++ [.request request] })
  else (none, { m with pending := m.pending.erase seq })

/-- Sends a probe to a neighbor if the monitor is active and the link stable. -/
def probeIfStable (m : MonitorState α) (neighbor : Name) : MonitorState α :=
  if m.active && m.isStable neighbor then (m.sendProbe neighbor).2 else m

/-! ## Outcomes -/

/-- The round-trip time that counts: at least the floor, and none beyond the ceiling. -/
def countedRtt? (settings : LinkSettings α) (elapsed : Duration) : Option Duration :=
  if elapsed < settings.rttFloor then some settings.rttFloor
  else if settings.rttCeiling < elapsed then none
  else some elapsed

/-- A round-trip time that was accepted, with the link after it was recorded. -/
structure Measurement (α : Type) where
  link : LinkState α
  rtt : Duration

/-- Records a round-trip time if the link to the neighbor is stable. -/
def recordRtt (m : MonitorState α) (neighbor : Name) (rtt : Duration) :
    Option (Measurement α) × MonitorState α :=
  match m.links[neighbor]? with
  | none => (none, m)
  | some link =>
    if link.isStable then
      (some ⟨link.record rtt, rtt⟩, { m with links := m.links.insert neighbor (link.record rtt) })
    else (none, m)

/-- Takes the answer to a probe, whose round-trip time belongs to the neighbor that the probe was
sent to. -/
def measure (m : MonitorState α) (seq : UInt32) : Option (Name × Measurement α) × MonitorState α :=
  match m.pending[seq]? with
  | none => (none, m)
  | some probe =>
    -- The probe has had its answer, even if the round-trip time turns out not to count.
    let m := { m with pending := m.pending.erase seq }
    match countedRtt? m.settings (m.clock.now - probe.sentAt) with
    | none => (none, m)
    | some rtt =>
      let (measurement, m) :=
        { m with stats.measured := m.stats.measured + 1 }.recordRtt probe.neighbor rtt
      (measurement.map fun x => (probe.neighbor, x), m)

/-- Gives up waiting for the answer to a probe. -/
def forget (m : MonitorState α) (seq : UInt32) : MonitorState α :=
  { m with pending := m.pending.erase seq }

/-- Whether an answer to a probe is waited for. -/
def isPending (m : MonitorState α) (seq : UInt32) : Bool := m.pending.contains seq

end AdaptiveRouting.MonitorState
