import AdaptiveRouting.Document.Numeral
import AdaptiveRouting.Document.TextLiteral

/-!
# Reading documents

A document is read line by line: a header names the table that the lines after it belong to, and
an assignment gives a key a value. Keys may be dotted and quoted, values are texts, numerals,
flags, lists, and tables between braces. Comments run from a number sign to the end of the line.

Every step consumes characters, so a bound on the number of characters bounds the recursion.
-/

namespace AdaptiveRouting.Document

/-- Drops spaces and tabs. -/
def skipBlanks (cs : List Char) : List Char := cs.dropWhile fun c => c = ' ' || c = '\t'

/-- Drops a comment, which holds no control characters. -/
def skipComment? (cs : List Char) : Option (List Char) :=
  match cs with
  | '#' :: rest =>
    let isBody (c : Char) : Bool := c ≠ '\n' && c ≠ '\r'
    if (rest.takeWhile isBody).all TextLiteral.isPlain then some (rest.dropWhile isBody) else none
  | cs => some cs

def endLine? (cs : List Char) : Option (List Char) := do
  match ← skipComment? (skipBlanks cs) with
  | [] => some []
  | '\n' :: rest => some rest
  | '\r' :: '\n' :: rest => some rest
  | _ => none

/-! ## Keys -/

/-- Whether a character may stand in a key without quotes. -/
def isBare (c : Char) : Bool := c.isAlphanum || c = '_' || c = '-'

def readKeyPart? (cs : List Char) : Option (String × List Char) :=
  match cs with
  | [] => none
  | c :: rest =>
    if c = '"' ∨ c = '\'' then
      match rest with
      | d :: e :: _ => if d = c ∧ e = c then none else quoted?
      | _ => quoted?
    else
      let part := cs.takeWhile isBare
      if part = [] then none else some (String.ofList part, cs.dropWhile isBare)
where
  /-- A part between quotes. -/
  quoted? : Option (String × List Char) :=
    (TextLiteral.read? cs).map fun (s, rest) => (String.ofList s, rest)

def readKey? : Nat → List Char → Option (List String × List Char)
  | 0, _ => none
  | fuel + 1, cs => do
    let (part, rest) ← readKeyPart? (skipBlanks cs)
    match skipBlanks rest with
    | '.' :: rest =>
      let (parts, rest) ← readKey? fuel rest
      some (part :: parts, rest)
    | rest => some ([part], rest)

/-! ## Values -/

def skipLines? : Nat → List Char → Option (List Char)
  | 0, cs => some cs
  | fuel + 1, cs =>
    match skipBlanks cs with
    | '\n' :: rest => skipLines? fuel rest
    | '\r' :: '\n' :: rest => skipLines? fuel rest
    | '#' :: rest =>
      match skipComment? ('#' :: rest) with
      | none => none
      | some rest => skipLines? fuel rest
    | rest => some rest

/-- Whether a character may stand in a numeral or in the name of a value. -/
def isTokenChar (c : Char) : Bool := c.isAlphanum || c = '_' || c = '-' || c = '+' || c = '.'

/-- A flag or a numeral. -/
def readToken? (token : List Char) : Option Datum :=
  if token = ['t', 'r', 'u', 'e'] then some (.flag true)
  else if token = ['f', 'a', 'l', 's', 'e'] then some (.flag false)
  else Numeral.read? token

mutual

def readValue? : Nat → List Char → Option (Datum × List Char)
  | 0, _ => none
  | fuel + 1, cs =>
    match cs with
    | [] => none
    | '[' :: rest =>
      match readItems? fuel rest with
      | none => none
      | some (items, rest) => some (.list items, rest)
    | '{' :: rest =>
      match skipBlanks rest with
      | '}' :: rest => some (.table .closed [], rest)
      | rest =>
        match readPairs? fuel [] rest with
        | none => none
        | some (entries, rest) => some (.table .closed entries, rest)
    | c :: rest =>
      if c = '"' ∨ c = '\'' then
        match TextLiteral.read? (c :: rest) with
        | none => none
        | some (s, rest) => some (.text (String.ofList s), rest)
      else
        match readToken? ((c :: rest).takeWhile isTokenChar) with
        | none => none
        | some d => some (d, (c :: rest).dropWhile isTokenChar)

/-- Reads the items of a list and its closing bracket. -/
def readItems? : Nat → List Char → Option (List Datum × List Char)
  | 0, _ => none
  | fuel + 1, cs =>
    match skipLines? fuel cs with
    | none => none
    | some (']' :: rest) => some ([], rest)
    | some cs =>
      match readValue? fuel cs with
      | none => none
      | some (d, rest) =>
        match skipLines? fuel rest with
        | some (']' :: rest) => some ([d], rest)
        | some (',' :: rest) =>
          match readItems? fuel rest with
          | none => none
          | some (items, rest) => some (d :: items, rest)
        | _ => none

/-- Reads the pairs of a table between braces and its closing brace. -/
def readPairs? : Nat → Entries → List Char → Option (Entries × List Char)
  | 0, _, _ => none
  | fuel + 1, entries, cs =>
    match readKey? fuel cs with
    | some (path, '=' :: rest) =>
      match readValue? fuel (skipBlanks rest) with
      | none => none
      | some (d, rest) =>
        match entries.addValue? d path with
        | none => none
        | some entries =>
          match skipBlanks rest with
          | '}' :: rest => some (entries, rest)
          | ',' :: rest => readPairs? fuel entries rest
          | _ => none
    | _ => none

end

/-! ## Statements -/

/-- One line of a document. -/
inductive Statement where
  | header (path : List String)
  | assignment (path : List String) (value : Datum)

/-- Reads the statement that a text begins with, together with the rest of its line. -/
def readStatement? (cs : List Char) : Option (Statement × List Char) := do
  let fuel := cs.length + 1
  match cs with
  | '[' :: rest =>
    match ← readKey? fuel rest with
    | (path, ']' :: rest) => some (.header path, ← endLine? rest)
    | _ => none
  | cs =>
    match ← readKey? fuel cs with
    | (path, '=' :: rest) =>
      let (d, rest) ← readValue? fuel (skipBlanks rest)
      some (.assignment path d, ← endLine? rest)
    | _ => none

def readStatements? : Nat → List Char → Option (List Statement)
  | 0, _ => none
  | fuel + 1, cs =>
    match skipBlanks cs with
    | [] => some []
    | c :: rest =>
      if c = '\n' ∨ c = '\r' ∨ c = '#' then
        match endLine? (c :: rest) with
        | none => none
        | some rest => readStatements? fuel rest
      else
        match readStatement? (c :: rest) with
        | none => none
        | some (s, rest) => (readStatements? fuel rest).map (s :: ·)

/-- Carries out the statements on the root table; `current` is the path of the table that
assignments go to. -/
def assemble? (current : List String) (root : Entries) : List Statement → Option Entries
  | [] => some root
  | .header path :: rest =>
    match root.addTable? path with
    | none => none
    | some root => assemble? path root rest
  | .assignment path value :: rest =>
    match root.modifyAt? (Entries.addValue? value path) current with
    | none => none
    | some root => assemble? current root rest

def dropMark : List Char → List Char
  | '\uFEFF' :: rest => rest
  | cs => cs

def read? (s : String) : Option Entries := do
  let cs := dropMark s.toList
  assemble? [] [] (← readStatements? (cs.length + 1) cs)

end AdaptiveRouting.Document
