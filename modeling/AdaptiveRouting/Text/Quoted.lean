/-!
# Quoted text in messages

A text that a message quotes is put between double quotes, and what would not show in it is
written as an escape: quotes and backslashes behind a backslash, the common control characters by
a letter, and every other character without a shape of its own by its code point.
-/

namespace AdaptiveRouting

/-- Code points that have no shape or join the shape of another character, as ranges. -/
def shapelessRanges : List (Nat × Nat) :=
  [(0x0, 0x1F), (0x7F, 0xA0), (0xAD, 0xAD), (0x300, 0x36F), (0x483, 0x489), (0x591, 0x5BD),
    (0x600, 0x605), (0x610, 0x61A), (0x61C, 0x61C), (0x64B, 0x65F), (0x6DD, 0x6DD),
    (0x70F, 0x70F), (0x1680, 0x1680), (0x180E, 0x180E), (0x1AB0, 0x1ACE), (0x1DC0, 0x1DFF),
    (0x2000, 0x200F), (0x2028, 0x202F), (0x205F, 0x206F), (0x20D0, 0x20F0), (0x3000, 0x3000),
    (0x302A, 0x302F), (0x3099, 0x309A), (0xD800, 0xF8FF), (0xFE00, 0xFE0F), (0xFE20, 0xFE2F),
    (0xFEFF, 0xFEFF), (0xFF9E, 0xFF9F), (0xFFF0, 0xFFFB), (0xFFFE, 0xFFFF), (0x1D173, 0x1D17A),
    (0xE0000, 0x10FFFF)]

def isShapeless (c : Char) : Bool := shapelessRanges.any fun r => r.1 ≤ c.toNat && c.toNat ≤ r.2

def quotedChar (c : Char) : List Char :=
  if c = '"' ∨ c = '\\' then ['\\', c]
  else if c = '\n' then ['\\', 'n']
  else if c = '\r' then ['\\', 'r']
  else if c = '\t' then ['\\', 't']
  else if c.toNat = 0 then ['\\', '0']
  else if isShapeless c then ['\\', 'u', '{'] ++ Nat.toDigits 16 c.toNat ++ ['}']
  else [c]

def quotedText (s : String) : String := String.ofList ('"' :: s.toList.flatMap quotedChar ++ ['"'])

end AdaptiveRouting
