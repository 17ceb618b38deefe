import AdaptiveRouting.Probe.ProbeName
import AdaptiveRouting.Text.Utf8
import AdaptiveRouting.Time.Duration
import AdaptiveRouting.Vocabulary

/-!
# Requests, responses and outcomes

A probe request asks a neighbor for a fresh answer within a lifetime; the response repeats the
name and carries a marker, signed by the neighbor. The outcome of a probe is all that the link
monitor gets to know of it.

A `Responder` answers the requests in the namespace of its own router and leaves the others alone.
It signs with whatever `Signer` it is given; whatever keeps the signer from signing is reported as
a signing failure.
-/

namespace AdaptiveRouting

/-- A question to a neighbor. -/
structure ProbeRequest where
  name : Name
  /-- How long an answer is waited for. -/
  lifetime : Duration
  /-- Whether the answer has to come from the neighbor itself. -/
  mustBeFresh : Bool
deriving DecidableEq

/-- A signed answer. -/
structure ProbeResponse where
  name : Name
  /-- What the neighbor has to say. -/
  content : String
  /-- How long the answer stays fresh. -/
  freshness : Duration
  signature : List UInt8
deriving DecidableEq

/-- The request for a probe. -/
def ProbeRequest.of (p : ProbeName) (lifetime : Duration) : ProbeRequest :=
  ⟨p.toName, lifetime, true⟩

/-- How a probe ended. -/
inductive OutcomeKind where
  | data
  | nack
  /-- It was not answered in time. -/
  | timeout
deriving DecidableEq, Inhabited

instance : Keyed OutcomeKind where
  all := [.data, .nack, .timeout]
  key
    | .data => "data"
    | .nack => "nack"
    | .timeout => "timeout"

/-- The end of one probe. -/
structure ProbeOutcome where
  neighbor : Name
  seq : UInt32
  kind : OutcomeKind
deriving DecidableEq

/-! ## Answering -/

abbrev Signer : Type := Name → List UInt8 → Except Failure (List UInt8)

/-- Answers the probes of one router. -/
structure Responder where
  /-- The namespace of the router's probes. -/
  space : Name
  /-- What signs the answers. -/
  signer : Signer

namespace Responder

/-- What every response says. -/
def content : String := "rtt-response"

def freshness : Duration := .ofMillis 1000

def ofRouter (router : Name) (signer : Signer) : Responder := ⟨probeSpace router, signer⟩

/-- Whether a request is for this router. -/
def isOurs (r : Responder) (name : Name) : Bool := r.space.isAncestorOf name && name ≠ r.space

/-- Reports whatever went wrong as a signing failure. -/
def signingFailure : Failure → Failure
  | .signing reason => .signing reason
  | other => .signing other.message

/-- The answer to a request; there is none to a request for someone else. -/
def respond (r : Responder) (request : ProbeRequest) : Except Failure (Option ProbeResponse) :=
  if r.isOurs request.name then
    match r.signer request.name (Utf8.encode content.toList) with
    | .error e => .error (signingFailure e)
    | .ok signature => .ok (some ⟨request.name, content, freshness, signature⟩)
  else .ok none

end Responder

end AdaptiveRouting
