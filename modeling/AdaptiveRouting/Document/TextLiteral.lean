/-!
# Texts in documents

A text stands between quotes. Between double quotes a backslash introduces an escape, between
single quotes every character stands for itself. Quotes that are tripled enclose a text over
several lines, whose first line break is dropped when it comes right after the quotes.

`TextLiteral.read?` reads all four forms. `TextLiteral.write` picks one: single quotes for a text
that holds a double quote or a backslash and can do without escapes, several lines for a text with
line breaks.
-/

namespace AdaptiveRouting.TextLiteral

/-- Whether a character may stand in a text as it is, line breaks apart. -/
def isPlain (c : Char) : Bool := c = '\t' || (0x20 ≤ c.toNat && c.toNat ≠ 0x7F)

/-! ## Reading -/

def hexDigit? (c : Char) : Option Nat :=
  if '0' ≤ c ∧ c ≤ '9' then some (c.toNat - '0'.toNat)
  else if 'a' ≤ c ∧ c ≤ 'f' then some (c.toNat - 'a'.toNat + 10)
  else if 'A' ≤ c ∧ c ≤ 'F' then some (c.toNat - 'A'.toNat + 10)
  else none

/-- The character with a code point written in hexadecimal. -/
def codePoint? (digits : List Char) : Option Char := do
  let values ← digits.mapM hexDigit?
  let n := values.foldl (fun n d => 16 * n + d) 0
  if n.isValidChar then some (Char.ofNat n) else none

/-- Whether nothing but blanks stands before the next line break. -/
def endsLine : List Char → Bool
  | '\n' :: _ => true
  | '\r' :: '\n' :: _ => true
  | ' ' :: rest => endsLine rest
  | '\t' :: rest => endsLine rest
  | _ => false

/-- Resolves the escapes of a text; only one over several lines may hold line breaks. While
`skipping`, behind a backslash at the end of a line, blanks and line breaks are dropped. -/
def unescape? (multi skipping : Bool) : List Char → Option (List Char)
  | [] => some []
  | '\\' :: 'b' :: rest => (unescape? multi false rest).map (Char.ofNat 8 :: ·)
  | '\\' :: 't' :: rest => (unescape? multi false rest).map ('\t' :: ·)
  | '\\' :: 'n' :: rest => (unescape? multi false rest).map ('\n' :: ·)
  | '\\' :: 'f' :: rest => (unescape? multi false rest).map (Char.ofNat 12 :: ·)
  | '\\' :: 'r' :: rest => (unescape? multi false rest).map ('\r' :: ·)
  | '\\' :: '"' :: rest => (unescape? multi false rest).map ('"' :: ·)
  | '\\' :: '\\' :: rest => (unescape? multi false rest).map ('\\' :: ·)
  | '\\' :: 'u' :: a :: b :: c :: d :: rest =>
    match codePoint? [a, b, c, d] with
    | none => none
    | some x => (unescape? multi false rest).map (x :: ·)
  | '\\' :: 'U' :: a :: b :: c :: d :: e :: f :: g :: h :: rest =>
    match codePoint? [a, b, c, d, e, f, g, h] with
    | none => none
    | some x => (unescape? multi false rest).map (x :: ·)
  | '\\' :: rest => if multi && endsLine rest then unescape? multi true rest else none
  | '\r' :: '\n' :: rest =>
    if !multi then none
    else if skipping then unescape? multi true rest
    else (unescape? multi false rest).map ('\n' :: ·)
  | '\n' :: rest =>
    if !multi then none
    else if skipping then unescape? multi true rest
    else (unescape? multi false rest).map ('\n' :: ·)
  | c :: rest =>
    if skipping && (c = ' ' || c = '\t') then unescape? multi true rest
    else if isPlain c then (unescape? multi false rest).map (c :: ·)
    else none

/-- Checks a text without escapes and joins the two characters of a long line break. -/
def verbatim? (multi : Bool) : List Char → Option (List Char)
  | [] => some []
  | '\r' :: '\n' :: rest => if multi then (verbatim? multi rest).map ('\n' :: ·) else none
  | '\n' :: rest => if multi then (verbatim? multi rest).map ('\n' :: ·) else none
  | c :: rest => if isPlain c then (verbatim? multi rest).map (c :: ·) else none

def split? (quote : Char) : List Char → Option (List Char × List Char)
  | [] => none
  | c :: rest =>
    if c = quote then some ([], rest)
    else if c = '\\' ∧ quote = '"' then
      match rest with
      | [] => none
      | d :: rest => (split? quote rest).map fun s => (c :: d :: s.1, s.2)
    else (split? quote rest).map fun s => (c :: s.1, s.2)

/-- Splits a text at the closing tripled quote. Up to two more quotes in front of it belong to the
text; `run` is the number of quotes that have just been seen. -/
def splitTripled? (quote : Char) (run : Nat) : List Char → Option (List Char × List Char)
  | [] => if 3 ≤ run then some (List.replicate (run - 3) quote, []) else none
  | c :: rest =>
    if c = quote then
      if run = 5 then some ([quote, quote], c :: rest) else splitTripled? quote (run + 1) rest
    else if 3 ≤ run then some (List.replicate (run - 3) quote, c :: rest)
    else if c = '\\' ∧ quote = '"' then
      match rest with
      | [] => none
      | d :: rest =>
        (splitTripled? quote 0 rest).map fun s =>
          (List.replicate run quote ++ c :: d :: s.1, s.2)
    else
      (splitTripled? quote 0 rest).map fun s => (List.replicate run quote ++ c :: s.1, s.2)

def dropBreak : List Char → List Char
  | '\n' :: rest => rest
  | '\r' :: '\n' :: rest => rest
  | cs => cs

/-- Reads the text that begins with a quote, and gives back what follows it. -/
def read? : List Char → Option (List Char × List Char)
  | '"' :: '"' :: '"' :: rest => do
    let (raw, rest) ← splitTripled? '"' 0 (dropBreak rest)
    some (← unescape? true false raw, rest)
  | '\'' :: '\'' :: '\'' :: rest => do
    let (raw, rest) ← splitTripled? '\'' 0 (dropBreak rest)
    some (← verbatim? true raw, rest)
  | '"' :: rest => do
    let (raw, rest) ← split? '"' rest
    some (← unescape? false false raw, rest)
  | '\'' :: rest => do
    let (raw, rest) ← split? '\'' rest
    some (← verbatim? false raw, rest)
  | _ => none

/-! ## Writing -/

def hex4 (n : Nat) : List Char :=
  let digits := (Nat.toDigits 16 n).map Char.toUpper
  List.replicate (4 - digits.length) '0' ++ digits

/-- A character between double quotes. -/
def escaped (multi : Bool) (c : Char) : List Char :=
  if c.toNat = 8 then ['\\', 'b']
  else if c = '\t' then ['\\', 't']
  else if c = '\n' then if multi then [c] else ['\\', 'n']
  else if c.toNat = 12 then ['\\', 'f']
  else if c = '\r' then ['\\', 'r']
  else if c = '"' then ['\\', '"']
  else if c = '\\' then ['\\', '\\']
  else if c.toNat < 0x20 ∨ c.toNat = 0x7F then ['\\', 'u'] ++ hex4 c.toNat
  else [c]

/-- Whether a text holds three single quotes in a row. -/
def hasTripled : List Char → Bool
  | '\'' :: '\'' :: '\'' :: _ => true
  | _ :: rest => hasTripled rest
  | [] => false

/-- Whether single quotes suit a text: it gains by them and needs no escapes. -/
def suitsVerbatim (cs : List Char) : Bool :=
  (cs.contains '"' || cs.contains '\\') && cs.all (fun c => c = '\n' || isPlain c) &&
    !hasTripled cs && cs.getLast? != some '\''

/-- A text between quotes. -/
def write (cs : List Char) : List Char :=
  let multi := cs.contains '\n'
  if suitsVerbatim cs then
    if multi then ['\'', '\'', '\'', '\n'] ++ cs ++ ['\'', '\'', '\'']
    else if cs.contains '\'' then ['\'', '\'', '\''] ++ cs ++ ['\'', '\'', '\'']
    else '\'' :: cs ++ ['\'']
  else if multi then ['"', '"', '"', '\n'] ++ cs.flatMap (escaped true) ++ ['"', '"', '"']
  else '"' :: cs.flatMap (escaped false) ++ ['"']

end AdaptiveRouting.TextLiteral
