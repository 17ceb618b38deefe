/-!
# Reading decimals

The number that a decimal denotes, rounded to nearest. The sign is applied last, so that a
negative zero stays one. Exponents far beyond the range of floating point are cut short, since
they cannot change the result.
-/

namespace AdaptiveRouting

/-- An exponent of ten beyond which a positive integer is too large for a floating-point number,
and below which one of no more than as many digits is too small. -/
def exponentBound : Nat := 400

/-- The number `digits * 10 ^ exponent`, negated if asked for. -/
def Decimal.toFloat (negative : Bool) (digits : Nat) (exponent : Int) : Float :=
  let magnitude :=
    if exponent < 0 then
      if exponentBound + (Nat.toDigits 10 digits).length < exponent.natAbs then 0.0
      else Float.ofScientific digits true exponent.natAbs
    else Float.ofScientific digits false (min exponent.natAbs exponentBound)
  if negative then -magnitude else magnitude

def digitValue (c : Char) : Nat := c.toNat - '0'.toNat

/-- The number written by a list of decimal digits. -/
def ofDigits (cs : List Char) : Nat := cs.foldl (fun n c => 10 * n + digitValue c) 0

end AdaptiveRouting
