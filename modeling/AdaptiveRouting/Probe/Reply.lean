import AdaptiveRouting.Probe.Exchange

/-!
# Replies and outcomes

A request that is sent is answered, refused, or fails, within its lifetime or not at all. All of
that comes down to three kinds of outcome (`outcomeKind`): only a response under the name of the
request counts as data.
-/

namespace AdaptiveRouting

/-- What a neighbor sends back. -/
inductive Reply where
  | response (r : ProbeResponse)
  | refusal
deriving DecidableEq

/-- The kind of outcome of a request, given what it came to within its lifetime. -/
def outcomeKind (request : ProbeRequest) : Option (Except Failure Reply) → OutcomeKind
  | none => .timeout
  | some (.ok (.response r)) => if r.name = request.name then .data else .nack
  | some (.ok .refusal) | some (.error _) => .nack

/-- The probe that a request is sent for. Only requests with the name of a probe can be sent, and
only while something is running that carries the exchange out. -/
def ProbeRequest.express (r : ProbeRequest) (running : Bool) : Except ProbeFailure ProbeName :=
  match ProbeName.parse r.name with
  | .error e => .error e
  | .ok probe => if running then .ok probe else .error .noRuntime

end AdaptiveRouting
