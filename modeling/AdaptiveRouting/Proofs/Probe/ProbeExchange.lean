import AdaptiveRouting.Probe.Datagram
import AdaptiveRouting.Proofs.Probe.ProbeNames
import AdaptiveRouting.Proofs.Probe.SelfDelimitingFrames

/-!
# A probe from end to end

A neighbor that is asked with a probe is reported to have answered exactly when the probe got to
the router that it was meant for (`probe_ends_as_it_should`).

The way there and back goes through both ends. The asking end finds the endpoint of the neighbor
in the name of the request (`Endpoints.find_of`) and sends a frame that the answering end reads as
that request (`receivedFrame?_bytes`). The answering end goes by the name alone: it responds to
its own probes and refuses all others (`Responder.respond_own`, `Responder.respond_other`). On the
way back the asking end passes over whatever is no reply to its request (`PassedOver`), however
much of it there is, and takes the first datagram that is one (`firstReply?_append`).

Of a request that could be sent exactly one outcome is reported (`ProbeRequest.reports`).
-/

namespace AdaptiveRouting

/-! ## Datagrams -/

/-- A frame that fits into a datagram is received as it was written. -/
theorem receivedFrame?_bytes {f : Frame} (hf : f.TimesFit) (hfits : f.bytes.length ≤ maxFrame) :
    receivedFrame? f.bytes = some f := by
  have hread : Frame.read f.bytes = .ok f :=
    (Frame.captures_bytes hf hfits f.bytes).reads (List.append_nil _).symm
  rw [receivedFrame?, List.take_of_length_le hfits, Frame.decode, hread]
  rfl

/-- What the asking end passes over while it waits: what is malformed, what is itself a request,
and the answers to requests of another name. -/
inductive PassedOver (request : ProbeRequest) (d : Datagram) : Prop where
  | malformed {cause : ProbeFailure} (h : Frame.decode (d.take maxFrame) = .error cause)
  | request {r : ProbeRequest} (h : Frame.decode (d.take maxFrame) = .ok (.request r))
  | response {r : ProbeResponse} (h : Frame.decode (d.take maxFrame) = .ok (.response r))
    (hname : r.name ≠ request.name)
  | nack {name : Name} (h : Frame.decode (d.take maxFrame) = .ok (.nack name))
    (hname : name ≠ request.name)

section Waiting

variable {request : ProbeRequest} {noise : List Datagram}

/-- What is passed over is not a reply to the request. -/
theorem PassedOver.no_reply {d : Datagram} (h : PassedOver request d) :
    (receivedFrame? d).bind (·.replyTo? request) = none := by
  rw [receivedFrame?]
  cases h with
  | malformed h => rw [h]; rfl
  | request h => rw [h]; rfl
  | response h hname => rw [h]; exact if_neg hname
  | nack h hname => rw [h]; exact if_neg hname

/-- Nothing comes of noise. -/
theorem firstReply?_eq_none (h : ∀ d ∈ noise, PassedOver request d) :
    firstReply? request noise = none :=
  List.findSome?_eq_none_iff.2 fun d hd => (h d hd).no_reply

/-- Waiting is over with the first reply, whatever came before it and would come after it. -/
theorem firstReply?_append (h : ∀ d ∈ noise, PassedOver request d) {d : Datagram} {f : Frame}
    {reply : Reply} (hframe : receivedFrame? d = some f) (hreply : f.replyTo? request = some reply)
    (later : List Datagram) : firstReply? request (noise ++ d :: later) = some reply := by
  have hd : (receivedFrame? d).bind (·.replyTo? request) = some reply := by
    rw [hframe]
    exact hreply
  have hnoise : firstReply? request noise = none := firstReply?_eq_none h
  unfold firstReply? at hnoise ⊢
  rw [List.findSome?_append, hnoise, Option.none_or, List.findSome?_cons, hd]

end Waiting

/-! ## The asking end -/

/-- What is reported of a request: nothing if it cannot be sent, and otherwise how it ended. -/
def ProbeRequest.reports (request : ProbeRequest) (running : Bool)
    (ending : Option (Except Failure Reply)) : List ProbeOutcome :=
  match request.express running with
  | .error _ => []
  | .ok probe => [⟨probe.neighbor, probe.seq, outcomeKind request ending⟩]

section Asking

variable {p : ProbeName} {lifetime : Duration} (hroot : p.neighbor ≠ .root)
include hroot

/-- A probe is reported once, under its neighbor and its number. -/
theorem ProbeRequest.reports_of (ending : Option (Except Failure Reply)) :
    (ProbeRequest.of p lifetime).reports true ending =
      [⟨p.neighbor, p.seq, outcomeKind (.of p lifetime) ending⟩] := by
  have hexpress : (ProbeRequest.of p lifetime).express true = .ok p := by
    simp [express, ProbeRequest.of, ProbeName.parse_toName hroot]
  rw [reports, hexpress]

variable {ε : Type} {endpoints : Endpoints ε} {connect : ε → Except HostFault Unit} {endpoint : ε}
  (hroute : endpoints.byNeighbor[p.neighbor]? = some endpoint)
include hroute

/-- The endpoint of the neighbor is found for its probe. -/
theorem Endpoints.find_of : endpoints.find (.of p lifetime) = .ok endpoint := by
  simp [find, ProbeRequest.of, ProbeName.parse_toName hroot, hroute]

variable (hconnect : connect endpoint = .ok ())
  (hfits : (Frame.request (.of p lifetime)).bytes.length ≤ maxFrame)
include hconnect hfits

/-- With a way to the neighbor, the request is sent and the first reply ends the exchange. -/
theorem exchange_of (incoming : List Datagram) :
    exchange endpoints connect (.of p lifetime) incoming =
      ⟨some (Frame.request (.of p lifetime)).bytes,
        (firstReply? (.of p lifetime) incoming).map .ok⟩ := by
  have hwritten := Frame.encode_eq_ok_iff.2 ⟨hfits, rfl⟩
  rw [exchange, Endpoints.find_of hroot hroute]
  dsimp only
  rw [hconnect]
  dsimp only
  rw [hwritten]

variable {noise : List Datagram} (hnoise : ∀ d ∈ noise, PassedOver (.of p lifetime) d)
include hnoise

/-- As long as there is only noise, the asking end waits. -/
theorem exchange_noise :
    (exchange endpoints connect (.of p lifetime) noise).ending = none := by
  rw [exchange_of hroot hroute hconnect hfits, firstReply?_eq_none hnoise]
  rfl

/-- Behind the noise, the asking end takes the reply. -/
theorem exchange_reply {d : Datagram} {f : Frame} {reply : Reply}
    (hframe : receivedFrame? d = some f) (hreply : f.replyTo? (.of p lifetime) = some reply)
    (later : List Datagram) :
    (exchange endpoints connect (.of p lifetime) (noise ++ d :: later)).ending =
      some (.ok reply) := by
  rw [exchange_of hroot hroute hconnect hfits, firstReply?_append hnoise hframe hreply]
  rfl

end Asking

/-! ## The answering end -/

namespace Responder

variable {p : ProbeName} {lifetime : Duration} {router : Name} {signer : Signer}

/-- What a router responds to its own probe. -/
def responseTo (p : ProbeName) (signature : List UInt8) : ProbeResponse :=
  ⟨p.toName, content, freshness, signature⟩

/-- A router signs a response to its own probe. -/
theorem respond_own (hapart : ProbeName.Apart p.neighbor) {signature : List UInt8}
    (hsigned : signer p.toName (Utf8.encode content.toList) = .ok signature) :
    (ofRouter p.neighbor signer).respond (.of p lifetime) =
      .ok (some (responseTo p signature)) := by
  have hours : (ofRouter p.neighbor signer).isOurs p.toName = true := by
    rw [isOurs_toName hapart, decide_eq_true rfl]
  rw [respond, ProbeRequest.of, if_pos hours]
  dsimp only [ofRouter]
  rw [hsigned]
  rfl

/-- A router does not respond to the probe of another. -/
theorem respond_other (hapart : ProbeName.Apart p.neighbor) (h : p.neighbor ≠ router) :
    (ofRouter router signer).respond (.of p lifetime) = .ok none := by
  have hours : (ofRouter router signer).isOurs p.toName = false := by
    rw [isOurs_toName hapart, decide_eq_false h]
  simp [respond, ProbeRequest.of, hours]

/-- The freshness of a response fits into 64 bits. -/
theorem timesFit_responseTo (p : ProbeName) (signature : List UInt8) :
    (Frame.response (responseTo p signature)).TimesFit := by
  have hfreshness : freshness.seconds < wordBound := by decide
  exact hfreshness

/-- A response under the name of the request is data. -/
theorem outcomeKind_responseTo (p : ProbeName) (signature : List UInt8) :
    outcomeKind (.of p lifetime) (some (.ok (.response (responseTo p signature)))) = .data :=
  if_pos rfl

/-- An answer that fits is sent, and received as it was. -/
theorem answered {r : Responder} {request : ProbeRequest} {d : Datagram} {f : Frame}
    (hreceived : receivedFrame? d = some (.request request)) (hanswer : r.answer? request = some f)
    (hfit : f.TimesFit) (hfits : f.bytes.length ≤ maxFrame) :
    r.reply? d = some f.bytes ∧ receivedFrame? f.bytes = some f := by
  have hwritten := Frame.encode_eq_ok_iff.2 ⟨hfits, rfl⟩
  refine ⟨?_, receivedFrame?_bytes hfit hfits⟩
  rw [reply?, hreceived]
  simp [hanswer, hwritten, Except.toOption]

end Responder

/-! ## There and back -/

/-- **A probe ends as it should.** Take a probe for a neighbor whose name does not hold the
components of the probe namespace side by side, with a lifetime of 64 bits of seconds, a way to a
server, that of any router, and frames that fit. The request that is sent is the request that the
server receives. If the neighbor is that router, the server responds under the name of the request,
otherwise it refuses the request of that name. The asking end waits through any noise and is done
with the answer, and what is then reported is one outcome, of this probe: data from the neighbor
itself, a refusal from any other router. -/
theorem probe_ends_as_it_should {ε : Type} {endpoints : Endpoints ε}
    {connect : ε → Except HostFault Unit} {endpoint : ε} {router : Name} {signer : Signer}
    {p : ProbeName} {lifetime : Duration} {noise : List Datagram}
    (hroot : p.neighbor ≠ .root) (hapart : ProbeName.Apart p.neighbor)
    (hlifetime : lifetime.seconds < wordBound)
    (hroute : endpoints.byNeighbor[p.neighbor]? = some endpoint)
    (hconnect : connect endpoint = .ok ())
    (hsigns : ∃ signature, signer p.toName (Utf8.encode Responder.content.toList) = .ok signature)
    (hrequest : (Frame.request (.of p lifetime)).bytes.length ≤ maxFrame)
    (hanswer : ∀ f ∈ (Responder.ofRouter router signer).answer? (.of p lifetime),
      f.bytes.length ≤ maxFrame)
    (hnoise : ∀ d ∈ noise, PassedOver (.of p lifetime) d) :
    let request := ProbeRequest.of p lifetime
    let server := Responder.ofRouter router signer
    let asked := (Frame.request request).bytes
    ∃ (answered : Datagram) (reply : Reply),
      (∀ incoming, (exchange endpoints connect request incoming).sent = some asked) ∧
      receivedFrame? asked = some (.request request) ∧
      server.reply? asked = some answered ∧
      (if p.neighbor = router then
        ∃ response, server.respond request = .ok (some response) ∧ response.name = request.name ∧
          receivedFrame? answered = some (.response response) ∧ reply = .response response
      else server.respond request = .ok none ∧
        receivedFrame? answered = some (.nack request.name) ∧ reply = .refusal) ∧
      (exchange endpoints connect request noise).ending = none ∧
      ∀ later : List Datagram,
        let ending := (exchange endpoints connect request (noise ++ answered :: later)).ending
        ending = some (.ok reply) ∧
        request.reports true ending =
          [⟨p.neighbor, p.seq, if p.neighbor = router then .data else .nack⟩] := by
  intro request server asked
  have hsent : ∀ incoming, (exchange endpoints connect request incoming).sent = some asked :=
    fun incoming => by rw [exchange_of hroot hroute hconnect hrequest]
  have hreceived : receivedFrame? asked = some (.request request) :=
    receivedFrame?_bytes (f := .request request) hlifetime hrequest
  -- Up to here it makes no difference whose probe it is.
  have hwaiting : (exchange endpoints connect request noise).ending = none :=
    exchange_noise hroot hroute hconnect hrequest hnoise
  by_cases hours : p.neighbor = router
  · subst hours
    obtain ⟨signature, hsigned⟩ := hsigns
    let response := Responder.responseTo p signature
    have hrespond : server.respond request = .ok (some response) :=
      Responder.respond_own hapart hsigned
    have hframe : server.answer? request = some (.response response) := by
      rw [Responder.answer?, hrespond]
    obtain ⟨hanswered, hback⟩ := Responder.answered hreceived hframe
      (Responder.timesFit_responseTo p signature) (hanswer _ hframe)
    have hreply : (Frame.response response).replyTo? request = some (.response response) :=
      if_pos rfl
    have hending := exchange_reply hroot hroute hconnect hrequest hnoise hback hreply
    refine ⟨_, .response response, hsent, hreceived, hanswered, ?_, hwaiting,
      fun later => ⟨hending later, ?_⟩⟩
    · rw [if_pos rfl]
      exact ⟨response, hrespond, rfl, hback, rfl⟩
    · rw [hending, ProbeRequest.reports_of hroot, Responder.outcomeKind_responseTo, if_pos rfl]
  · have hrespond : server.respond request = .ok none := Responder.respond_other hapart hours
    have hframe : server.answer? request = some (.nack request.name) := by
      rw [Responder.answer?, hrespond]
    obtain ⟨hanswered, hback⟩ :=
      Responder.answered hreceived hframe trivial (hanswer _ hframe)
    have hreply : (Frame.nack request.name).replyTo? request = some .refusal := if_pos rfl
    have hending := exchange_reply hroot hroute hconnect hrequest hnoise hback hreply
    refine ⟨_, .refusal, hsent, hreceived, hanswered, ?_, hwaiting,
      fun later => ⟨hending later, ?_⟩⟩
    · rw [if_neg hours]
      exact ⟨hrespond, hback, rfl⟩
    · rw [hending, ProbeRequest.reports_of hroot, if_neg hours, outcomeKind]

namespace ProbeRequest.Overlapping

/-- A probe for a neighbor whose name ends as the probe namespace begins. -/
def probe : ProbeName := ⟨.ofString "site/link-cost", 4294967295⟩

def request : ProbeRequest := .of probe (.ofSeconds 4)

/-- Signs by writing backwards. -/
def signer : Signer := fun _ content => .ok content.reverse

def server (router : Name) : Responder := .ofRouter router signer

def endpoints : Endpoints Nat := Endpoints.none.add probe.neighbor 6363

/-- Every endpoint can be reached. -/
def connect (_ : Nat) : Except HostFault Unit := .ok ()

/-- A response to another request. -/
def strange : ProbeResponse := ⟨.ofString "site", Responder.content, Responder.freshness, []⟩

/-- Nothing at all, the request itself, and answers to another request. -/
def noise : List Datagram :=
  [[], (Frame.request request).bytes, (Frame.nack (.ofString "site")).bytes,
    (Frame.response strange).bytes]

/-- All of the noise is passed over. -/
theorem passedOver_noise : ∀ d ∈ noise, PassedOver request d := by
  intro d hd
  simp only [noise, List.mem_cons, List.not_mem_nil, or_false] at hd
  have hother : Name.ofString "site" ≠ request.name := by decide +kernel
  obtain rfl | rfl | rfl | rfl := hd
  · exact .malformed rfl
  · have hread : Frame.decode ((Frame.request request).bytes.take maxFrame) =
        .ok (.request request) := by decide +kernel
    exact .request hread
  · have hread : Frame.decode ((Frame.nack (.ofString "site")).bytes.take maxFrame) =
        .ok (.nack (.ofString "site")) := by decide +kernel
    exact .nack hread hother
  · have hread : Frame.decode ((Frame.response strange).bytes.take maxFrame) =
        .ok (.response strange) := by decide +kernel
    exact .response hread hother

/-- The neighbor answers the probe; the router above it, whose name is a beginning of that of the
neighbor, refuses it. -/
theorem answered_below_refused_above :
    (∃ answered, (server probe.neighbor).reply? (Frame.request request).bytes = some answered ∧
      request.reports true
        (exchange endpoints connect request (noise ++ [answered])).ending =
          [⟨probe.neighbor, probe.seq, .data⟩]) ∧
    ∃ answered, (server (.ofString "site")).reply? (Frame.request request).bytes = some answered ∧
      request.reports true
        (exchange endpoints connect request (noise ++ [answered])).ending =
          [⟨probe.neighbor, probe.seq, .nack⟩] := by
  have hroot : probe.neighbor ≠ .root := by decide +kernel
  have hapart : ProbeName.Apart probe.neighbor := by decide +kernel
  have hlifetime : (Duration.ofSeconds 4).seconds < wordBound := by decide
  have hroute : endpoints.byNeighbor[probe.neighbor]? = some 6363 := by
    simp [endpoints, Endpoints.add]
  have hconnect : connect 6363 = .ok () := rfl
  have hsigns : ∃ signature,
      signer probe.toName (Utf8.encode Responder.content.toList) = .ok signature := ⟨_, rfl⟩
  have hfits : (Frame.request (.of probe (.ofSeconds 4))).bytes.length ≤ maxFrame := by
    decide +kernel
  have hdata : ∀ f ∈ (server probe.neighbor).answer? request, f.bytes.length ≤ maxFrame := by
    decide +kernel
  have hnack : ∀ f ∈ (server (.ofString "site")).answer? request,
      f.bytes.length ≤ maxFrame := by decide +kernel
  obtain ⟨answered, _, -, -, hanswered, -, -, hreports⟩ :=
    probe_ends_as_it_should hroot hapart hlifetime hroute hconnect hsigns hfits hdata
      passedOver_noise
  obtain ⟨refused, _, -, -, hrefused, -, -, hreports'⟩ :=
    probe_ends_as_it_should hroot hapart hlifetime hroute hconnect hsigns hfits hnack
      passedOver_noise
  refine ⟨⟨answered, hanswered, ?_⟩, refused, hrefused, ?_⟩
  · exact (hreports []).2
  · exact (hreports' []).2

end ProbeRequest.Overlapping

end AdaptiveRouting
