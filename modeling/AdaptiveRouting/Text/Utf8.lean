/-!
# UTF-8

Text as bytes. `Utf8.encode` writes characters and `Utf8.decode` reads them back; what is not the
writing of any text is refused with a `Utf8.Fault`, which tells where the text ends to be good and
how many bytes from there on cannot start or continue a character.

The second byte of a sequence is confined by the first, which rules out surrogates, code points
that are too large, and writings that are longer than they need to be.
-/

namespace AdaptiveRouting.Utf8

/-- Why bytes are not a text. -/
inductive Fault where
  /-- So many bytes from the index on are no part of a character. -/
  | invalid (index count : Nat)
  /-- The bytes end within the character that begins at the index. -/
  | incomplete (index : Nat)
deriving DecidableEq

def Fault.message : Fault → String
  | .invalid index count =>
    "invalid utf-8 sequence of " ++ toString count ++ " bytes from index " ++ toString index
  | .incomplete index => "incomplete utf-8 byte sequence from index " ++ toString index

def byte (n : Nat) : UInt8 := UInt8.ofNat n

def encodeChar (c : Char) : List UInt8 :=
  let n := c.toNat
  if n < 0x80 then [byte n]
  else if n < 0x800 then [byte (0xC0 + n / 0x40), byte (0x80 + n % 0x40)]
  else if n < 0x10000 then
    [byte (0xE0 + n / 0x1000), byte (0x80 + n / 0x40 % 0x40), byte (0x80 + n % 0x40)]
  else
    [byte (0xF0 + n / 0x40000), byte (0x80 + n / 0x1000 % 0x40), byte (0x80 + n / 0x40 % 0x40),
      byte (0x80 + n % 0x40)]

/-- The bytes of a text. -/
def encode (cs : List Char) : List UInt8 := cs.flatMap encodeChar

/-- Whether a byte continues a character. -/
def isTail (b : UInt8) : Bool := 0x80 ≤ b.toNat && b.toNat ≤ 0xBF

/-- Whether the second byte of a character is one that the first byte admits. -/
def isSecond (a b : UInt8) : Bool :=
  let low := if a.toNat = 0xE0 then 0xA0 else if a.toNat = 0xF0 then 0x90 else 0x80
  let high := if a.toNat = 0xED then 0x9F else if a.toNat = 0xF4 then 0x8F else 0xBF
  low ≤ b.toNat && b.toNat ≤ high

def tailBits (b : UInt8) : Nat := b.toNat - 0x80

/-- Reads a text that begins at an index. -/
def decodeFrom (index : Nat) : List UInt8 → Except Fault (List Char)
  | [] => .ok []
  | a :: rest =>
    if a.toNat < 0x80 then do
      let cs ← decodeFrom (index + 1) rest
      .ok (Char.ofNat a.toNat :: cs)
    else if 0xC2 ≤ a.toNat ∧ a.toNat ≤ 0xDF then
      match rest with
      | [] => .error (.incomplete index)
      | b :: rest =>
        if isTail b then do
          let cs ← decodeFrom (index + 2) rest
          .ok (Char.ofNat ((a.toNat - 0xC0) * 0x40 + tailBits b) :: cs)
        else .error (.invalid index 1)
    else if 0xE0 ≤ a.toNat ∧ a.toNat ≤ 0xEF then
      match rest with
      | [] => .error (.incomplete index)
      | b :: rest =>
        if !isSecond a b then .error (.invalid index 1)
        else
          match rest with
          | [] => .error (.incomplete index)
          | c :: rest =>
            if !isTail c then .error (.invalid index 2)
            else do
              let cs ← decodeFrom (index + 3) rest
              .ok (Char.ofNat ((a.toNat - 0xE0) * 0x1000 + tailBits b * 0x40 + tailBits c) :: cs)
    else if 0xF0 ≤ a.toNat ∧ a.toNat ≤ 0xF4 then
      match rest with
      | [] => .error (.incomplete index)
      | b :: rest =>
        if !isSecond a b then .error (.invalid index 1)
        else
          match rest with
          | [] => .error (.incomplete index)
          | c :: rest =>
            if !isTail c then .error (.invalid index 2)
            else
              match rest with
              | [] => .error (.incomplete index)
              | d :: rest =>
                if !isTail d then .error (.invalid index 3)
                else do
                  let cs ← decodeFrom (index + 4) rest
                  .ok (Char.ofNat ((a.toNat - 0xF0) * 0x40000 + tailBits b * 0x1000
                    + tailBits c * 0x40 + tailBits d) :: cs)
    else .error (.invalid index 1)

/-- Reads a text. -/
def decode (bytes : List UInt8) : Except Fault (List Char) := decodeFrom 0 bytes

end AdaptiveRouting.Utf8
