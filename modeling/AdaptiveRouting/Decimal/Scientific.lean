import AdaptiveRouting.Decimal.Binary

/-!
# Scientific notation

`Decimal.scientific places x` writes a number with one digit before the point and `places` behind
it, followed by a power of ten. The digits are those of the exact value, rounded once, halves to
even; both zeros are written alike.
-/

namespace AdaptiveRouting

open Magnitude

/-- The decimal digits of `n`, with leading zeros up to `width`. -/
def paddedDigits (width n : Nat) : String :=
  let digits := Nat.toDigits 10 n
  String.ofList (List.replicate (width - digits.length) '0' ++ digits)

/-- The positive fraction `n / d` as `digits * 10 ^ (exponent - places)`, with one digit before
the point and `places` behind it. -/
def scientificDigits (places n d : Nat) : Nat × Int :=
  let e := decimalExponent n d
  let p := power 10 (places - e)
  let digits := divideEven (n * p.1) (d * p.2)
  if digits = Nat.pow 10 (places + 1) then (Nat.pow 10 places, e + 1) else (digits, e)

/-- A number in scientific notation with `places` digits behind the point. -/
def Decimal.scientific (places : Nat) (x : Float) : String :=
  let sign := if isNegative x then "-" else ""
  match ofFloat x with
  | .undefined => "nan"
  | .infinite => sign ++ "inf"
  | .finite 0 _ => "0." ++ paddedDigits places 0 ++ "e0"
  | .finite m q =>
    let f := fraction m q
    let (digits, e) := scientificDigits places f.1 f.2
    let unit := Nat.pow 10 places
    sign ++ toString (digits / unit) ++ "." ++ paddedDigits places (digits % unit) ++ "e" ++
      toString e

end AdaptiveRouting
