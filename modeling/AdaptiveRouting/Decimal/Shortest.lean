import AdaptiveRouting.Decimal.Binary

/-!
# Shortest decimal notation

`shortestDecimal m q` is the decimal with the fewest digits that a reader rounds back to the
floating-point number `m * 2 ^ q`; of the decimals with so many digits it is the nearest one, and
of two that are equally near the larger. The reader rounds to nearest, so the decimals that it
takes for the number form an interval around it, ends included exactly when the significand is
even (`Rounding`).

`Decimal.plain` writes the result without an exponent. How a value that has no digits is spelled,
and whether an integer gets a fraction, is for the `PlainStyle` to say.
-/

namespace AdaptiveRouting

open Magnitude

/-- The numbers that are rounded to one floating-point number, as multiples of one unit. -/
structure Rounding where
  low : Nat
  value : Nat
  high : Nat
  unit : Int
  /-- Whether the ends belong to the interval. -/
  closed : Bool

/-- The numbers that are rounded to `m * 2 ^ q`. Below a power of two the floating-point numbers
lie twice as close. -/
def Rounding.around (m : Nat) (q : Int) : Rounding where
  low := if m = hiddenBit ∧ leastExponent < q then 4 * m - 1 else 4 * m - 2
  value := 4 * m
  high := 4 * m + 2
  unit := q - 2
  closed := m % 2 = 0

/-- Whether `c / d` times the unit lies in the interval. -/
def Rounding.admits (r : Rounding) (c d : Nat) : Bool :=
  if r.closed then r.low * d ≤ c && c ≤ r.high * d else r.low * d < c && c < r.high * d

/-- The best decimal on the grid of multiples of `10 ^ k`, if one is rounded to the number. -/
def Rounding.onGrid? (r : Rounding) (k : Int) : Option Nat :=
  let u := power 2 r.unit
  let g := power 10 k
  -- a multiple `c` of the grid is `c * n / d` units
  let n := g.1 * u.2
  let d := g.2 * u.1
  let below := r.value * d / n
  let above := below + 1
  match r.admits (below * n) d, r.admits (above * n) d with
  | true, false => some below
  | false, true => some above
  | true, true => if 2 * (r.value * d) < (below + above) * n then some below else some above
  | false, false => none

/-- Tries grids with ever more digits. -/
def Rounding.search (r : Rounding) (k : Int) : Nat → Nat × Int
  | 0 => (0, 0)
  | tries + 1 =>
    match r.onGrid? k with
    | some c => (c, k)
    | none => r.search (k - 1) tries

/-- The decimal `digits * 10 ^ exponent` that stands for the positive number `m * 2 ^ q`. No
number needs more than seventeen digits. -/
def shortestDecimal (m : Nat) (q : Int) : Nat × Int :=
  let f := fraction m q
  (Rounding.around m q).search (decimalExponent f.1 f.2) 18

/-- The spellings that the digits do not determine. -/
structure PlainStyle where
  /-- What is not a number. -/
  undefined : String
  /-- What is written behind the digits of an integer. -/
  integerEnd : String

/-- The number `digits * 10 ^ exponent` without an exponent. -/
def positional (integerEnd : String) (digits : Nat) (exponent : Int) : String :=
  if 0 ≤ exponent then toString (digits * Nat.pow 10 exponent.toNat) ++ integerEnd
  else
    let places := (-exponent).toNat
    let whole := digits / Nat.pow 10 places
    let padded := Nat.toDigits 10 (digits % Nat.pow 10 places)
    let behind := List.replicate (places - padded.length) '0' ++ padded
    match (behind.reverse.dropWhile (· = '0')).reverse with
    | [] => toString whole ++ integerEnd
    | kept => toString whole ++ "." ++ String.ofList kept

/-- A number in the fewest digits, without an exponent. -/
def Decimal.plain (style : PlainStyle) (x : Float) : String :=
  let sign := if isNegative x then "-" else ""
  match ofFloat x with
  | .undefined => style.undefined
  | .infinite => sign ++ "inf"
  | .finite 0 _ => sign ++ "0" ++ style.integerEnd
  | .finite m q =>
    let (digits, e) := shortestDecimal m q
    sign ++ positional style.integerEnd digits e

end AdaptiveRouting
