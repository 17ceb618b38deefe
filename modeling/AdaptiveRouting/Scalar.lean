/-!
# Scalars

Costs, scores and path lengths are numbers of one arithmetic, a `Scalar`. The program computes at
`Float`; a statement about exact arithmetic is made of the same definitions at the real numbers.

A comparison with something that is not a number is false, so `Scalar.lesser` and
`Scalar.greater` prefer the operand that is a number and `Scalar.clamp` leaves alone what it
cannot compare. `Scalar.totalLE` orders every value, such values included; at `Float` it is the
total order of IEEE 754 and reads the bits as a sign and a magnitude (`Float.orderKey`).
-/

namespace AdaptiveRouting

/-- The operations that a number needs to serve as a cost or a score. -/
class Scalar (α : Type) extends
    Add α, Sub α, Mul α, Div α, Neg α, LT α, LE α, BEq α, OfScientific α where
  /-- Whether one number is below another can be decided. -/
  ltDecidable : DecidableLT α
  /-- Whether one number is at most another can be decided. -/
  leDecidable : DecidableLE α
  /-- A count as a number. -/
  ofCount : Nat → α
  abs : α → α
  /-- The nearest integer, halves away from zero. -/
  round : α → α
  sqrt : α → α
  ln : α → α
  exp : α → α
  sin : α → α
  cos : α → α
  /-- The angle in `[0, π]` of a cosine. -/
  arccos : α → α
  sinh : α → α
  cosh : α → α
  /-- Neither infinite nor undefined. -/
  isFinite : α → Bool
  /-- A total order that extends `≤`. -/
  totalLE : α → α → Bool

attribute [reducible, instance] Scalar.ltDecidable Scalar.leDecidable

namespace Scalar

variable {α : Type} [Scalar α]

/-- The smaller of two numbers; what is not a number loses. -/
def lesser (a b : α) : α := if a < b ∨ ¬ b ≤ b then a else b

/-- The larger of two numbers; what is not a number loses. -/
def greater (a b : α) : α := if b < a ∨ ¬ b ≤ b then a else b

/-- Moves a number into the range from `low` to `high`. -/
def clamp (x low high : α) : α := if x < low then low else if high < x then high else x

def sum (xs : List α) : α := xs.foldl (· + ·) 0.0

/-- The weighted sum of `xs`, taken from left to right over the shorter of the two lists. -/
def dot (ws xs : List α) : α := sum (List.zipWith (· * ·) ws xs)

/-- The inverse of the hyperbolic cosine, for arguments of at least one. -/
def arcosh (x : α) : α := ln (x + sqrt (x - 1.0) * sqrt (x + 1.0))

end Scalar

/-! ## Floating point -/

/-- A key whose order is the total order of IEEE 754: values with the sign bit set come first and
in the order of falling magnitude. The sign bit is `2 ^ 63`. -/
def Float.orderKey (x : Float) : Nat :=
  let bits := x.toBits.toNat
  let signBit := 9223372036854775808
  if bits < signBit then bits + signBit else 2 * signBit - 1 - bits

instance : Scalar Float where
  ltDecidable := inferInstance
  leDecidable := inferInstance
  ofCount n := Float.ofNat n
  abs := Float.abs
  round := Float.round
  sqrt := Float.sqrt
  ln := Float.log
  exp := Float.exp
  sin := Float.sin
  cos := Float.cos
  arccos := Float.acos
  sinh := Float.sinh
  cosh := Float.cosh
  isFinite := Float.isFinite
  totalLE a b := decide (Float.orderKey a ≤ Float.orderKey b)

/-- The total order of floating-point numbers compares any two. -/
theorem Float.totalLE_total (a b : Float) :
    Scalar.totalLE a b = true ∨ Scalar.totalLE b a = true := by
  simp only [Scalar.totalLE, decide_eq_true_eq]
  exact Nat.le_total _ _

/-- The total order of floating-point numbers is transitive. -/
theorem Float.totalLE_trans {a b c : Float} (hab : Scalar.totalLE a b = true)
    (hbc : Scalar.totalLE b c = true) : Scalar.totalLE a c = true := by
  simp only [Scalar.totalLE, decide_eq_true_eq] at *
  exact Nat.le_trans hab hbc

end AdaptiveRouting
