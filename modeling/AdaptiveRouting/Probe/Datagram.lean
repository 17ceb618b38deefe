import AdaptiveRouting.HostFault
import AdaptiveRouting.Probe.Frame
import AdaptiveRouting.Probe.Reply

/-!
# Probes over datagrams

Both ends of a probe exchange. The asking end knows at which endpoint each neighbor answers
(`Endpoints`), sends the request there and then reads datagrams until one carries the reply; what
is malformed, is itself a request or has another name is passed over (`firstReply?`).

The answering end (`Responder.reply?`) answers a request in its own namespace with a response and
any other request with a refusal; it says nothing to what is not a request, and nothing when it
cannot sign or when the reply does not fit into a frame.

A datagram is read no further than the length of the longest frame.
-/

namespace AdaptiveRouting

/-- What is sent in one piece. -/
abbrev Datagram : Type := List UInt8

def receivedFrame? (d : Datagram) : Option Frame := (Frame.decode (d.take maxFrame)).toOption

/-! ## Asking -/

/-- The endpoints where the neighbors answer. -/
structure Endpoints (ε : Type) where
  /-- The endpoint of each neighbor. -/
  byNeighbor : NameMap ε

namespace Endpoints

variable {ε : Type}

/-- No neighbor can be asked. -/
def none : Endpoints ε := ⟨∅⟩

/-- Notes where a neighbor answers. -/
def add (e : Endpoints ε) (neighbor : Name) (endpoint : ε) : Endpoints ε :=
  ⟨e.byNeighbor.insert neighbor endpoint⟩

/-- Forgets where a neighbor answers; the first part is what was known. -/
def remove (e : Endpoints ε) (neighbor : Name) : Option ε × Endpoints ε :=
  (e.byNeighbor[neighbor]?, ⟨e.byNeighbor.erase neighbor⟩)

/-- Where a request is to be sent. -/
def find (e : Endpoints ε) (request : ProbeRequest) : Except ProbeFailure ε :=
  match ProbeName.parse request.name with
  | .error cause => .error cause
  | .ok probe =>
    match e.byNeighbor[probe.neighbor]? with
    | Option.none => .error (.noRoute probe.neighbor)
    | some endpoint => .ok endpoint

end Endpoints

/-- The reply to a request that a frame carries, if it does. -/
def Frame.replyTo? (request : ProbeRequest) : Frame → Option Reply
  | .request _ => none
  | .response r => if r.name = request.name then some (.response r) else none
  | .nack name => if name = request.name then some .refusal else none

/-- The first reply to a request among some datagrams. -/
def firstReply? (request : ProbeRequest) (datagrams : List Datagram) : Option Reply :=
  datagrams.findSome? fun d => (receivedFrame? d).bind (·.replyTo? request)

/-- An exchange as far as it has come. -/
structure Exchange where
  sent : Option Datagram
  ending : Option (Except Failure Reply)

/-- An exchange that ended before anything was sent. -/
def Exchange.failed (cause : ProbeFailure) : Exchange := ⟨none, some (.error (.probe cause))⟩

/-- Sends a request to its neighbor and reads the datagrams that come in; `connect` is the host's
answer to the wish to reach an endpoint. -/
def exchange {ε : Type} (endpoints : Endpoints ε) (connect : ε → Except HostFault Unit)
    (request : ProbeRequest) (incoming : List Datagram) : Exchange :=
  match endpoints.find request with
  | .error cause => .failed cause
  | .ok endpoint =>
    match connect endpoint with
    | .error fault => .failed (.sendFailed fault.message)
    | .ok () =>
      match (Frame.request request).encode with
      | .error cause => .failed cause
      | .ok bytes => ⟨some bytes, (firstReply? request incoming).map .ok⟩

/-! ## Answering -/

namespace Responder

/-- The frame with which a request is answered, unless signing fails. -/
def answer? (r : Responder) (request : ProbeRequest) : Option Frame :=
  match r.respond request with
  | .error _ => none
  | .ok none => some (.nack request.name)
  | .ok (some response) => some (.response response)

/-- The datagram with which a datagram is answered, if it is. -/
def reply? (r : Responder) (d : Datagram) : Option Datagram :=
  match receivedFrame? d with
  | some (.request request) => (r.answer? request).bind fun f => f.encode.toOption
  | _ => none

end Responder

end AdaptiveRouting
