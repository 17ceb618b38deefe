/-!
# Floating-point numbers as fractions

A finite floating-point number is a significand times a power of two. `Magnitude.ofFloat` takes
it apart so that its digits can be worked out in exact arithmetic on natural numbers: everything
that prints a number starts here and never from an approximation.

`Magnitude.decimalExponent` places a positive number between two powers of ten, and `divideEven`
rounds a quotient to the nearest integer, halves to the even one.
-/

namespace AdaptiveRouting

/-- What a floating-point number is, apart from its sign. -/
inductive Magnitude where
  /-- Not a number. -/
  | undefined
  | infinite
  /-- The number `significand * 2 ^ exponent`. -/
  | finite (significand : Nat) (exponent : Int)
deriving DecidableEq, Inhabited

namespace Magnitude

/-- The significand of a subnormal number counts units of `2 ^ leastExponent`. -/
def leastExponent : Int := -1074

/-- The leading bit of a normal number's significand, `2 ^ 52`, which is not stored. -/
def hiddenBit : Nat := 4503599627370496

/-- The bit that marks a negative number, `2 ^ 63`. -/
def signBit : Nat := 9223372036854775808

/-- Whether the sign bit is set. -/
def isNegative (x : Float) : Bool := signBit ≤ x.toBits.toNat

/-- Takes a floating-point number apart: 52 bits of the significand below 11 of the exponent. -/
def ofFloat (x : Float) : Magnitude :=
  let fraction : Nat := x.toBits.toNat % hiddenBit
  let field : Nat := x.toBits.toNat / hiddenBit % 2048
  if field = 2047 then if fraction = 0 then infinite else undefined
  else if field = 0 then finite fraction leastExponent
  else finite (fraction + hiddenBit) (field + leastExponent - 1)

/-- The power of `base` with a possibly negative exponent, as numerator and denominator. -/
def power (base : Nat) (exponent : Int) : Nat × Nat :=
  if 0 ≤ exponent then (Nat.pow base exponent.toNat, 1)
  else (1, Nat.pow base (-exponent).toNat)

/-- The number `m * 2 ^ e` as numerator and denominator. -/
def fraction (m : Nat) (e : Int) : Nat × Nat :=
  let p := power 2 e
  (m * p.1, p.2)

/-- The number of decimal digits of a positive integer. -/
def decimalLength (n : Nat) : Nat := (Nat.toDigits 10 n).length

/-- The exponent of the greatest power of ten that is at most the positive fraction `n / d`. -/
def decimalExponent (n d : Nat) : Int :=
  let guess : Int := (decimalLength n : Int) - decimalLength d
  let p := power 10 guess
  if d * p.1 ≤ n * p.2 then guess else guess - 1

/-- The quotient rounded to the nearest integer, halves to the even one. -/
def divideEven (n d : Nat) : Nat :=
  let q := n / d
  let r := n % d
  if 2 * r < d then q else if d < 2 * r then q + 1 else if q % 2 = 0 then q else q + 1

end Magnitude

end AdaptiveRouting
