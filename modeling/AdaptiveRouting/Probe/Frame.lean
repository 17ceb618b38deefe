import AdaptiveRouting.Probe.Exchange
import AdaptiveRouting.Text.Quoted
import AdaptiveRouting.Time.DurationText

/-!
# Probe frames

What travels in a datagram: a request, a response, or a refusal of a request. A frame is written
field by field without any padding: a variant as four bytes, a length as eight, both with the
least significant byte first, a text as its length and its UTF-8, a flag as one byte, a duration
as its text. A frame has to fit into `maxFrame` bytes.

Reading goes through the fields in the same order and stops at the first one that is missing or
out of range (`DecodeFault`). Names are normalised as they are read, and bytes behind the frame
are ignored.
-/

namespace AdaptiveRouting

def maxFrame : Nat := 1500

/-- What travels in a datagram. -/
inductive Frame where
  | request (r : ProbeRequest)
  | response (r : ProbeResponse)
  /-- The refusal of the request of that name. -/
  | nack (name : Name)
deriving DecidableEq

/-! ## Writing -/

/-- A number as `width` bytes, the least significant first. -/
def littleEndian : Nat → Nat → List UInt8
  | 0, _ => []
  | width + 1, n => UInt8.ofNat (n % 256) :: littleEndian width (n / 256)

namespace Frame

def textBytes (s : String) : List UInt8 :=
  let bytes := Utf8.encode s.toList
  littleEndian 8 bytes.length ++ bytes

def blobBytes (bytes : List UInt8) : List UInt8 := littleEndian 8 bytes.length ++ bytes

def flagBytes (b : Bool) : List UInt8 := [if b then 1 else 0]

def bytes : Frame → List UInt8
  | .request r =>
    littleEndian 4 0 ++ textBytes r.name.text ++ textBytes r.lifetime.text ++
      flagBytes r.mustBeFresh
  | .response r =>
    littleEndian 4 1 ++ textBytes r.name.text ++ textBytes r.content ++
      textBytes r.freshness.text ++ blobBytes r.signature
  | .nack name => littleEndian 4 2 ++ textBytes name.text

/-- The bytes of a frame that fits. -/
def encode (f : Frame) : Except ProbeFailure (List UInt8) :=
  if maxFrame < f.bytes.length then
    .error (.serialization
      ("frame of " ++ toString f.bytes.length ++ " bytes exceeds " ++ toString maxFrame))
  else .ok f.bytes

end Frame

/-! ## Reading -/

/-- Why bytes are not a frame. -/
inductive DecodeFault where
  /-- The bytes end before a number or a byte does. -/
  | endOfInput
  /-- The bytes end before a text does. -/
  | endOfText
  /-- A text is not UTF-8. -/
  | notText (fault : Utf8.Fault)
  /-- There is no such kind of frame. -/
  | unknownVariant (variant : Nat)
  /-- A flag is neither set nor clear. -/
  | notFlag (value : Nat)
  /-- A text is not a duration. -/
  | notDuration (text : String)
deriving DecidableEq

def DecodeFault.message : DecodeFault → String
  | .endOfInput => "io error: unexpected end of file"
  | .endOfText => "io error: "
  | .notText fault => "string is not valid utf8: " ++ fault.message
  | .unknownVariant variant =>
    "invalid value: integer `" ++ toString variant ++ "`, expected variant index 0 <= i < 3"
  | .notFlag value =>
    "invalid u8 while decoding bool, expected 0 or 1, found " ++ toString value
  | .notDuration text => "invalid value: string " ++ quotedText text ++ ", expected a duration"

abbrev FieldReader (τ : Type) : Type := List UInt8 → Except DecodeFault (τ × List UInt8)

namespace Frame

def readNumber : Nat → FieldReader Nat
  | 0, bytes => .ok (0, bytes)
  | _ + 1, [] => .error .endOfInput
  | width + 1, b :: rest =>
    match readNumber width rest with
    | .error e => .error e
    | .ok (n, rest) => .ok (b.toNat + 256 * n, rest)

def readText : FieldReader String := fun bytes =>
  match readNumber 8 bytes with
  | .error e => .error e
  | .ok (length, rest) =>
    if rest.length < length then .error .endOfText
    else
      match Utf8.decode (rest.take length) with
      | .error fault => .error (.notText fault)
      | .ok cs => .ok (String.ofList cs, rest.drop length)

def readName : FieldReader Name := fun bytes =>
  match readText bytes with
  | .error e => .error e
  | .ok (s, rest) => .ok (.ofString s, rest)

def readDuration : FieldReader Duration := fun bytes =>
  match readText bytes with
  | .error e => .error e
  | .ok (s, rest) =>
    match Duration.parse? s with
    | none => .error (.notDuration s)
    | some d => .ok (d, rest)

def readFlag : FieldReader Bool
  | [] => .error .endOfInput
  | b :: rest =>
    if b = 0 then .ok (false, rest)
    else if b = 1 then .ok (true, rest)
    else .error (.notFlag b.toNat)

def readBlob : FieldReader (List UInt8) := fun bytes =>
  match readNumber 8 bytes with
  | .error e => .error e
  | .ok (length, rest) =>
    if rest.length < length then .error .endOfInput else .ok (rest.take length, rest.drop length)

def readRequest (bytes : List UInt8) : Except DecodeFault ProbeRequest := do
  let (name, bytes) ← readName bytes
  let (lifetime, bytes) ← readDuration bytes
  let (mustBeFresh, _) ← readFlag bytes
  return { name, lifetime, mustBeFresh }

def readResponse (bytes : List UInt8) : Except DecodeFault ProbeResponse := do
  let (name, bytes) ← readName bytes
  let (content, bytes) ← readText bytes
  let (freshness, bytes) ← readDuration bytes
  let (signature, _) ← readBlob bytes
  return { name, content, freshness, signature }

def read (bytes : List UInt8) : Except DecodeFault Frame := do
  let (variant, bytes) ← readNumber 4 bytes
  match variant with
  | 0 => return .request (← readRequest bytes)
  | 1 => return .response (← readResponse bytes)
  | 2 => return .nack (← readName bytes).1
  | n => throw (.unknownVariant n)

/-- Reads the frame at the front of a datagram. -/
def decode (bytes : List UInt8) : Except ProbeFailure Frame :=
  match read bytes with
  | .ok f => .ok f
  | .error fault => .error (.deserialization fault.message)

end Frame

end AdaptiveRouting
