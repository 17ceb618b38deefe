import AdaptiveRouting.Probe.Reply

/-!
# A scripted network

Probes that are answered as a script says. For each neighbor the script lists what becomes of the
requests to it, in order; the last line holds for all further ones, and without any line requests
remain unanswered. Time passes in whole milliseconds, as a deadline in between is kept when the
millisecond is over (`Duration.fullMillis`).

A reply that takes exactly the lifetime of its request still counts.
-/

namespace AdaptiveRouting

def Duration.fullMillis (d : Duration) : Duration := .ofMillis ((d + 999999) / 1000000)

/-- What becomes of a request. -/
inductive Fate where
  | echo
  /-- It is answered under another name. -/
  | other
  | nack
  | error
  | hang
deriving DecidableEq, Inhabited

instance : Keyed Fate where
  all := [.echo, .other, .nack, .error, .hang]
  key
    | .echo => "echo"
    | .other => "other"
    | .nack => "nack"
    | .error => "error"
    | .hang => "hang"

/-- A line of the script. -/
structure ScriptLine where
  fate : Fate
  delay : Duration
deriving DecidableEq

namespace ScriptLine

/-- The line that holds without a script. -/
def silence : ScriptLine := ⟨.hang, 0⟩

/-- A response without a signature. -/
def unsigned (name : Name) : Reply := .response ⟨name, Responder.content, Responder.freshness, []⟩

/-- What a request comes to in the end. -/
def ending (l : ScriptLine) (request : ProbeRequest) : Option (Except Failure Reply) :=
  match l.fate with
  | .echo => some (.ok (unsigned request.name))
  | .other => some (.ok (unsigned (request.name.append "other")))
  | .nack => some (.ok .refusal)
  | .error => some (.error (.other "exchange failed"))
  | .hang => none

/-- How a request ends, and how long that takes. -/
def run (l : ScriptLine) (request : ProbeRequest) : OutcomeKind × Duration :=
  let lifetime := request.lifetime.fullMillis
  if l.fate ≠ .hang ∧ l.delay ≤ lifetime then (outcomeKind request (l.ending request), l.delay)
  else (outcomeKind request none, lifetime)

end ScriptLine

/-- An outcome on its way. -/
structure Flight where
  arrival : Instant
  outcome : ProbeOutcome
deriving DecidableEq

/-- A network that follows a script. -/
structure ScriptedNetwork where
  /-- The lines that are left for each neighbor. -/
  script : NameMap (List ScriptLine)
  /-- Whether requests can be carried out at all. -/
  running : Bool
  /-- The outcomes on their way in the order of their arrival. -/
  flights : List Flight

namespace ScriptedNetwork

/-- A network that nothing has been sent over. -/
def ofScript (script : List (Name × List ScriptLine)) (running : Bool) : ScriptedNetwork :=
  ⟨script.foldl (fun m l => m.insert l.1 l.2) ∅, running, []⟩

/-- Takes the next line for a neighbor; the last one stays. -/
def nextLine (n : ScriptedNetwork) (neighbor : Name) : ScriptLine × ScriptedNetwork :=
  match n.script[neighbor]? with
  | none | some [] => (.silence, n)
  | some [l] => (l, n)
  | some (l :: rest) => (l, { n with script := n.script.insert neighbor rest })

/-- Puts a flight behind those that arrive no later. -/
def board (f : Flight) : List Flight → List Flight
  | [] => [f]
  | g :: rest => if f.arrival < g.arrival then f :: g :: rest else g :: board f rest

/-- Sends a request. -/
def express (n : ScriptedNetwork) (now : Instant) (request : ProbeRequest) :
    Except ProbeFailure ScriptedNetwork :=
  match request.express n.running with
  | .error cause => .error cause
  | .ok probe =>
    let (line, n) := n.nextLine probe.neighbor
    let (kind, duration) := line.run request
    .ok { n with flights := board ⟨now + duration, probe.neighbor, probe.seq, kind⟩ n.flights }

def setScript (n : ScriptedNetwork) (neighbor : Name) (lines : List ScriptLine) :
    ScriptedNetwork :=
  { n with script := n.script.insert neighbor lines }

end ScriptedNetwork

end AdaptiveRouting
