import AdaptiveRouting.Decimal.Reading
import AdaptiveRouting.Failure

/-!
# Probe names

A probe is named by the neighbor that it is sent to, the two components of the probe namespace and
a sequence number. `ProbeName.toName` builds the name and `ProbeName.parse` takes one apart; the
neighbor has at least one component, and the number may have leading zeros and a plus sign.
-/

namespace AdaptiveRouting

/-- The components that lead from a router to its probes. -/
def probeComponents : List String := ["link-cost", "rtt-probe"]

/-- The namespace in which a router answers probes. -/
def probeSpace (router : Name) : Name := probeComponents.foldl .append router

def seqText (seq : UInt32) : String := String.ofList (Nat.toDigits 10 seq.toNat)

/-- Reads a sequence number: decimal digits, possibly behind a plus sign, that make up a number of
32 bits. -/
def parseSeq? (s : String) : Option UInt32 :=
  let digits :=
    match s.toList with
    | '+' :: rest => rest
    | cs => cs
  if digits ≠ [] ∧ digits.all Char.isDigit ∧ ofDigits digits < UInt32.size then
    some (UInt32.ofNat (ofDigits digits))
  else none

/-- Which probe a name stands for. -/
structure ProbeName where
  neighbor : Name
  seq : UInt32
deriving DecidableEq

namespace ProbeName

def toName (p : ProbeName) : Name := (probeSpace p.neighbor).append (seqText p.seq)

def splitLast? : List String → Option (String × String × String)
  | [a, b, c] => some (a, b, c)
  | _ :: rest => splitLast? rest
  | [] => none

/-- Takes a name apart. -/
def parse (n : Name) : Except ProbeFailure ProbeName :=
  match splitLast? n.components with
  | none => .error (.invalidName n.text)
  | some (a, b, c) =>
    -- There are no probes for the root.
    if 4 ≤ n.length ∧ [a, b] = probeComponents then
      match parseSeq? c with
      | none => .error (.invalidName n.text)
      | some seq => .ok ⟨n.dropLast 3, seq⟩
    else .error (.invalidName n.text)

end ProbeName

end AdaptiveRouting
