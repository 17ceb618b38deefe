import AdaptiveRouting.Decimal.Reading
import AdaptiveRouting.Text.Blank
import AdaptiveRouting.Time.Duration

/-!
# Durations as text

A duration is written as a sum of amounts, each a number with a unit, from years down to
nanoseconds and without the amounts that are zero (`Duration.text`). A year has 365.25 days and a
month 30.44, so that both are whole numbers of seconds.

`Duration.parse?` reads such sums in a wide grammar: units have several spellings, blanks may
stand anywhere but within a unit, and an amount may have a decimal fraction as long as the
fraction comes to whole nanoseconds, or to whole seconds for units from an hour on. Seconds, and
the nanoseconds of each amount, are held in 64 bits; what does not fit is refused.
-/

namespace AdaptiveRouting

/-! ## Units -/

/-- A unit of time. -/
structure TimeUnit where
  /-- How it may be spelled. -/
  spellings : List String
  /-- Its length when it is at least a second long, in seconds. -/
  seconds : Nat
  /-- Its length when it is shorter, in nanoseconds. -/
  nanos : Nat
  /-- The length by which a fraction of it is multiplied, if it may have a fraction. -/
  fractionScale : Option Nat
  /-- Whether a fraction comes in nanoseconds and not in seconds. -/
  isFine : Bool

def timeUnits : List TimeUnit :=
  [⟨["nanos", "nsec", "ns"], 0, 1, none, true⟩,
    ⟨["usec", "us", "µs"], 0, 1000, some 1000, true⟩,
    ⟨["millis", "msec", "ms"], 0, 1000000, some 1000000, true⟩,
    ⟨["seconds", "second", "secs", "sec", "s"], 1, 0, some 1000000000, true⟩,
    ⟨["minutes", "minute", "min", "mins", "m"], 60, 0, some 60000000000, true⟩,
    ⟨["hours", "hour", "hr", "hrs", "h"], 3600, 0, some 3600, false⟩,
    ⟨["days", "day", "d"], 86400, 0, some 86400, false⟩,
    ⟨["weeks", "week", "wk", "wks", "w"], 604800, 0, some 604800, false⟩,
    ⟨["months", "month", "M"], 2630016, 0, some 2630016, false⟩,
    ⟨["years", "year", "yr", "yrs", "y"], 31557600, 0, some 31557600, false⟩]

/-- The unit with a given spelling. -/
def TimeUnit.find? (spelling : String) : Option TimeUnit :=
  timeUnits.find? fun u => u.spellings.contains spelling

/-! ## Writing -/

namespace Duration

/-- An amount with a unit whose spelling depends on the number. -/
def namedAmount (unit : String) (n : Nat) : List String :=
  if n = 0 then [] else if n = 1 then ["1" ++ unit] else [toString n ++ unit ++ "s"]

def amount (unit : String) (n : Nat) : List String :=
  if n = 0 then [] else [toString n ++ unit]

def amounts (d : Duration) : List String :=
  let s := d.seconds
  let ns := d.subsecNanos
  namedAmount "year" (s / 31557600) ++ namedAmount "month" (s % 31557600 / 2630016) ++
    namedAmount "day" (s % 31557600 % 2630016 / 86400) ++
    amount "h" (s % 31557600 % 2630016 % 86400 / 3600) ++
    amount "m" (s % 31557600 % 2630016 % 86400 % 3600 / 60) ++
    amount "s" (s % 31557600 % 2630016 % 86400 % 60) ++
    amount "ms" (ns / 1000000) ++ amount "us" (ns / 1000 % 1000) ++ amount "ns" (ns % 1000)

def text (d : Duration) : String :=
  match d.amounts with
  | [] => "0s"
  | items => String.intercalate " " items

/-! ## Reading -/

def isUnitChar (c : Char) : Bool := c.isAlpha || c = 'µ'

def isNumberChar (c : Char) : Bool := c.isDigit || isBlank c

/-- Adds whole seconds and nanoseconds to a duration, within 64 bits. -/
def add? (d : Duration) (seconds nanos : Nat) : Option Duration :=
  let sum := d + seconds * 1000000000 + nanos
  if d.subsecNanos + nanos < wordBound ∧ sum.seconds < wordBound then some sum else none

def addUnits? (d : Duration) (u : TimeUnit) (n : Nat) : Option Duration :=
  if n < wordBound ∧ n * u.seconds < wordBound ∧ n * u.nanos < wordBound then
    d.add? (n * u.seconds) (n * u.nanos)
  else none

/-- Adds the decimal fraction of a unit that the digits behind a point stand for. -/
def addFraction? (d : Duration) (u : TimeUnit) (digits : List Char) : Option Duration := do
  let scale ← u.fractionScale
  let n := ofDigits digits * scale
  let parts := Nat.pow 10 digits.length
  if digits ≠ [] ∧ parts < wordBound ∧ n < wordBound ∧ n % parts = 0 then
    if u.isFine then d.add? 0 (n / parts) else d.add? (n / parts) 0
  else none

/-- One amount: the digits of a number, those behind its point if it has one, and its unit. -/
structure Amount where
  whole : List Char
  fraction : Option (List Char)
  unit : String

/-- Splits the first amount off a text that begins with a digit. -/
def takeAmount (cs : List Char) : Amount × List Char :=
  let whole := (cs.takeWhile isNumberChar).filter Char.isDigit
  let (fraction, rest) :=
    match cs.dropWhile isNumberChar with
    | '.' :: rest =>
      (some ((rest.takeWhile isNumberChar).filter Char.isDigit), rest.dropWhile isNumberChar)
    | rest => (none, rest)
  (⟨whole, fraction, String.ofList (rest.takeWhile isUnitChar)⟩, rest.dropWhile isUnitChar)

def addAmount? (d : Duration) (a : Amount) : Option Duration := do
  let u ← TimeUnit.find? a.unit
  let d ← d.addUnits? u (ofDigits a.whole)
  match a.fraction with
  | none => some d
  | some digits => d.addFraction? u digits

/-- Reads the amounts of a text and adds them up. A text of `n` characters holds no more than `n`
amounts. -/
def parseAmounts? (d : Duration) (cs : List Char) : Nat → Option Duration
  | 0 => none
  | fuel + 1 =>
    match cs.dropWhile isBlank with
    | [] => some d
    | c :: rest =>
      if c.isDigit then
        let (a, rest) := takeAmount (c :: rest)
        match d.addAmount? a with
        | none => none
        | some d => parseAmounts? d rest fuel
      else none

/-- Reads a duration. A lone zero needs no unit. -/
def parse? (s : String) : Option Duration :=
  let cs := s.toList
  if cs = ['0'] then some 0
  else if cs.all isBlank then none
  else parseAmounts? 0 cs (cs.length + 1)

end Duration

end AdaptiveRouting
