import AdaptiveRouting.Decimal.Reading
import AdaptiveRouting.Decimal.Shortest
import AdaptiveRouting.Document.Datum

/-!
# Numerals in documents

Integers are decimal with an optional sign, or hexadecimal, octal or binary behind a marker; they
must fit into 64 bits. Numbers have a fraction or an exponent or both. Underscores may stand
between digits, and decimal numerals have no leading zeros. Infinity and what is not a number have
names.

`Numeral.style` has a number written in the fewest digits, without an exponent and never without a
fraction, so that it is not taken for an integer.
-/

namespace AdaptiveRouting.Numeral

/-- Takes out the underscores, each of which must stand between two digits. -/
def ungroup? (isDigit : Char → Bool) : List Char → Option (List Char)
  | [] => none
  | [c] => if isDigit c then some [c] else none
  | c :: '_' :: rest => if isDigit c then (ungroup? isDigit rest).map (c :: ·) else none
  | c :: rest => if isDigit c then (ungroup? isDigit rest).map (c :: ·) else none

def digitIn? (base : Nat) (c : Char) : Option Nat :=
  let value? :=
    if '0' ≤ c ∧ c ≤ '9' then some (c.toNat - '0'.toNat)
    else if 'a' ≤ c ∧ c ≤ 'f' then some (c.toNat - 'a'.toNat + 10)
    else if 'A' ≤ c ∧ c ≤ 'F' then some (c.toNat - 'A'.toNat + 10)
    else none
  value?.filter (· < base)

/-- An integer of 64 bits, one of them for the sign. -/
def bounded? (n : Int) : Option Datum :=
  if -9223372036854775808 ≤ n ∧ n ≤ 9223372036854775807 then some (.integer n) else none

def readBase? (base : Nat) (cs : List Char) : Option Datum := do
  let digits ← ungroup? (fun c => (digitIn? base c).isSome) cs
  bounded? ((digits.filterMap (digitIn? base)).foldl (fun n d => base * n + d) 0 : Nat)

/-- The digits of a decimal integer without a leading zero. -/
def decimalDigits? (cs : List Char) : Option (List Char) := do
  let digits ← ungroup? Char.isDigit cs
  if digits.head? = some '0' ∧ digits.length ≠ 1 then none else some digits

def exponent? : List Char → Option Int
  | '-' :: rest => (ungroup? Char.isDigit rest).map fun ds => -(ofDigits ds : Int)
  | '+' :: rest => (ungroup? Char.isDigit rest).map fun ds => (ofDigits ds : Int)
  | cs => (ungroup? Char.isDigit cs).map fun ds => (ofDigits ds : Int)

/-- Whether a character may stand among the digits of a decimal numeral. -/
def isDigitOrGroup (c : Char) : Bool := c.isDigit || c = '_'

/-- The digits behind the point, if there is one, and what follows them. -/
def fraction? : List Char → Option (List Char × List Char)
  | '.' :: rest => do
    let digits ← ungroup? Char.isDigit (rest.takeWhile isDigitOrGroup)
    some (digits, rest.dropWhile isDigitOrGroup)
  | cs => some ([], cs)

def finite? (negative : Bool) (digits : Nat) (exponent : Int) : Option Datum :=
  let x := Decimal.toFloat negative digits exponent
  if x == 1.0 / 0.0 then none else some (.number x)

def readDecimal? (negative : Bool) (cs : List Char) : Option Datum := do
  let whole ← decimalDigits? (cs.takeWhile isDigitOrGroup)
  let rest := cs.dropWhile isDigitOrGroup
  if rest = [] then
    bounded? (if negative then -(ofDigits whole : Int) else ofDigits whole)
  else
    let (behind, rest) ← fraction? rest
    let digits := ofDigits (whole ++ behind)
    match rest with
    | [] => finite? negative digits (-behind.length)
    | mark :: rest =>
      if mark = 'e' ∨ mark = 'E' then finite? negative digits ((← exponent? rest) - behind.length)
      else none

/-- A numeral or the name of a number, without its sign. -/
def readUnsigned? (negative : Bool) (cs : List Char) : Option Datum :=
  if cs = ['i', 'n', 'f'] then some (.number (if negative then -1.0 / 0.0 else 1.0 / 0.0))
  else if cs = ['n', 'a', 'n'] then some (.number (0.0 / 0.0))
  else readDecimal? negative cs

/-- A numeral or the name of a number. -/
def read? : List Char → Option Datum
  | '0' :: 'x' :: rest => readBase? 16 rest
  | '0' :: 'o' :: rest => readBase? 8 rest
  | '0' :: 'b' :: rest => readBase? 2 rest
  | '+' :: rest => readUnsigned? false rest
  | '-' :: rest => readUnsigned? true rest
  | cs => readUnsigned? false cs

/-- Numbers in a document have a fraction, and what is not a number is written in small letters. -/
def style : PlainStyle := ⟨"nan", ".0"⟩

end AdaptiveRouting.Numeral
