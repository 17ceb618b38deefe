import AdaptiveRouting.Proofs.Routing.PathCosts
import Mathlib.Analysis.SpecialFunctions.Log.Basic
import Mathlib.Analysis.SpecialFunctions.Trigonometric.Inverse

/-!
# Exact quantities

A `Quantity` is a real number, or undefined: the outcome of a division by zero, of the root of a
negative number and of whatever is computed from one. Quantities are computed with exactly, so a
statement about exact arithmetic is a statement about the definitions of the program at quantities;
and as for the numbers of the program, comparisons with what is undefined are false.
-/

namespace AdaptiveRouting

/-- A real number, or the outcome of an operation that has no value. -/
inductive Quantity where
  /-- A real number. -/
  | number (x : ℝ)
  /-- No number. -/
  | undefined

namespace Quantity

/-- Applies a function where it is defined. -/
noncomputable def lift (f : ℝ → ℝ) (isDefined : ℝ → Prop) : Quantity → Quantity
  | number x => open Classical in if isDefined x then number (f x) else undefined
  | undefined => undefined

/-- Applies a function of two numbers where it is defined. -/
noncomputable def lift₂ (f : ℝ → ℝ → ℝ) (isDefined : ℝ → ℝ → Prop) : Quantity → Quantity → Quantity
  | number x, number y => open Classical in if isDefined x y then number (f x y) else undefined
  | _, _ => undefined

/-- Compares two numbers; the comparison is false if one of them is undefined. -/
def Compares (r : ℝ → ℝ → Prop) : Quantity → Quantity → Prop
  | number x, number y => r x y
  | _, _ => False

/-- The nearest integer, halves away from zero. -/
noncomputable def nearest (x : ℝ) : ℝ := if 0 ≤ x then ⌊x + 1 / 2⌋ else ⌈x - 1 / 2⌉

open Classical in
noncomputable instance : Scalar Quantity where
  add := lift₂ (· + ·) fun _ _ => True
  sub := lift₂ (· - ·) fun _ _ => True
  mul := lift₂ (· * ·) fun _ _ => True
  div := lift₂ (· / ·) fun _ y => y ≠ 0
  neg := lift (- ·) fun _ => True
  lt := Compares (· < ·)
  le := Compares (· ≤ ·)
  beq a b := decide (Compares (· = ·) a b)
  ofScientific m negative e := number (OfScientific.ofScientific m negative e)
  ltDecidable := fun _ _ => propDecidable _
  leDecidable := fun _ _ => propDecidable _
  ofCount n := number n
  abs := lift (|·|) fun _ => True
  round := lift nearest fun _ => True
  sqrt := lift Real.sqrt (0 ≤ ·)
  ln := lift Real.log (0 < ·)
  exp := lift Real.exp fun _ => True
  sin := lift Real.sin fun _ => True
  cos := lift Real.cos fun _ => True
  arccos := lift Real.arccos fun x => |x| ≤ 1
  sinh := lift Real.sinh fun _ => True
  cosh := lift Real.cosh fun _ => True
  isFinite
    | number _ => true
    | undefined => false
  totalLE
    | number x, number y => decide (x ≤ y)
    | number _, undefined => true
    | undefined, number _ => false
    | undefined, undefined => true

@[simp] theorem number_le_number {x y : ℝ} : number x ≤ number y ↔ x ≤ y := Iff.rfl

@[simp] theorem number_lt_number {x y : ℝ} : number x < number y ↔ x < y := Iff.rfl

@[simp] theorem not_le_undefined {a : Quantity} : ¬ a ≤ undefined := by
  cases a <;> exact id

@[simp] theorem not_undefined_le {a : Quantity} : ¬ undefined ≤ a := by
  cases a <;> exact id

@[simp] theorem not_lt_undefined {a : Quantity} : ¬ a < undefined := by
  cases a <;> exact id

@[simp] theorem not_undefined_lt {a : Quantity} : ¬ undefined < a := by
  cases a <;> exact id

@[simp] theorem number_add_number (x y : ℝ) : number x + number y = number (x + y) :=
  if_pos trivial

@[simp] theorem undefined_add (a : Quantity) : undefined + a = undefined := by
  cases a <;> rfl

@[simp] theorem add_undefined (a : Quantity) : a + undefined = undefined := by
  cases a <;> rfl

/-- Addition is associative, as `undefined` swallows everything. -/
protected theorem add_assoc (a b c : Quantity) : a + b + c = a + (b + c) := by
  cases a <;> cases b <;> cases c <;> simp [add_assoc]

@[simp] theorem number_beq_number {x y : ℝ} : (number x == number y) = true ↔ x = y := by
  classical
  exact decide_eq_true_iff

/-- A quantity compares as equal to a number only if it is that number. -/
theorem beq_number_iff {a : Quantity} {x : ℝ} : (a == number x) = true ↔ a = number x := by
  classical
  cases a with
  | number y => rw [number_beq_number, number.injEq]
  | undefined => exact iff_of_false decide_eq_true_iff.1 nofun

/-- A literal is the number that it is as a real one. -/
theorem ofScientific_eq (m : Nat) (negative : Bool) (e : Nat) :
    (OfScientific.ofScientific m negative e : Quantity) =
      number (OfScientific.ofScientific m negative e) := rfl

/-- The literal zero is a number. -/
theorem zero_eq : (0.0 : Quantity) = number 0 := by
  rw [ofScientific_eq]
  norm_num

/-- The literal one is a number. -/
theorem one_eq : (1.0 : Quantity) = number 1 := by
  rw [ofScientific_eq]
  norm_num

/-- The literal hundred is a number. -/
theorem hundred_eq : (100.0 : Quantity) = number 100 := by
  rw [ofScientific_eq]
  norm_num

@[simp] theorem number_mul_number (x y : ℝ) : number x * number y = number (x * y) :=
  if_pos trivial

@[simp] theorem number_sub_number (x y : ℝ) : number x - number y = number (x - y) :=
  if_pos trivial

@[simp] theorem abs_number (x : ℝ) : Scalar.abs (number x) = number |x| := if_pos trivial

/-- Numbers are divided as real numbers unless the divisor is zero. -/
theorem number_div_number {x y : ℝ} (h : y ≠ 0) : number x / number y = number (x / y) :=
  if_pos h

@[simp] theorem neg_number (x : ℝ) : -number x = number (-x) := if_pos trivial

@[simp] theorem exp_number (x : ℝ) : Scalar.exp (number x) = number (Real.exp x) := if_pos trivial

@[simp] theorem mul_undefined (a : Quantity) : a * undefined = undefined := by
  cases a <;> rfl

/-- A positive number has the real logarithm. -/
theorem ln_number {x : ℝ} (h : 0 < x) : Scalar.ln (number x) = number (Real.log x) := if_pos h

@[simp] theorem round_number (x : ℝ) : Scalar.round (number x) = number (nearest x) :=
  if_pos trivial

@[simp] theorem ofCount_eq (n : Nat) : (Scalar.ofCount n : Quantity) = number n := rfl

@[simp] theorem lesser_number (x y : ℝ) :
    Scalar.lesser (number x) (number y) = number (min x y) := by
  unfold Scalar.lesser
  rcases lt_or_ge x y with h | h
  · rw [if_pos (.inl h), min_eq_left h.le]
  · rw [if_neg (by simp [h]), min_eq_right h]

@[simp] theorem greater_number (x y : ℝ) :
    Scalar.greater (number x) (number y) = number (max x y) := by
  unfold Scalar.greater
  rcases lt_or_ge y x with h | h
  · rw [if_pos (.inl h), max_eq_left h.le]
  · rw [if_neg (by simp [h]), max_eq_right h]

/-- A number that is not negative has the real square root. -/
theorem sqrt_number {x : ℝ} (h : 0 ≤ x) : Scalar.sqrt (number x) = number (√x) := if_pos h

@[simp] theorem sin_number (x : ℝ) : Scalar.sin (number x) = number (Real.sin x) := if_pos trivial

@[simp] theorem cos_number (x : ℝ) : Scalar.cos (number x) = number (Real.cos x) := if_pos trivial

@[simp] theorem sinh_number (x : ℝ) : Scalar.sinh (number x) = number (Real.sinh x) :=
  if_pos trivial

@[simp] theorem cosh_number (x : ℝ) : Scalar.cosh (number x) = number (Real.cosh x) :=
  if_pos trivial

/-- A number from -1 to 1 has the real arc cosine. -/
theorem arccos_number {x : ℝ} (h : |x| ≤ 1) : Scalar.arccos (number x) = number (Real.arccos x) :=
  if_pos h

/-- A number between two bounds. -/
def Between (low high : ℝ) (a : Quantity) : Prop := ∃ x, a = number x ∧ low ≤ x ∧ x ≤ high

/-- Zero lies between bounds of different signs. -/
theorem between_zero {low high : ℝ} (hlow : low ≤ 0) (hhigh : 0 ≤ high) : Between low high 0.0 :=
  ⟨0, zero_eq, hlow, hhigh⟩

/-- A literal lies between the same bounds as its value. -/
theorem between_literal {low high : ℝ} {m e : ℕ} (hlow : low ≤ OfScientific.ofScientific m true e)
    (hhigh : OfScientific.ofScientific m true e ≤ high) :
    Between low high (OfScientific.ofScientific m true e) :=
  ⟨_, ofScientific_eq m true e, hlow, hhigh⟩

/-- What is cut off above keeps to a lower bound. -/
theorem between_lesser {low high x : ℝ} (h : low ≤ high) (hx : low ≤ x) :
    Between low high (Scalar.lesser (number x) (number high)) :=
  ⟨min x high, lesser_number x high, le_min hx h, min_le_right x high⟩

/-- What is moved into a range is in it. -/
theorem between_clamp {low high : ℝ} (h : low ≤ high) (x : ℝ) :
    Between low high (Scalar.clamp (number x) (number low) (number high)) := by
  unfold Scalar.clamp
  split
  · exact ⟨low, rfl, le_rfl, h⟩
  next hlow =>
  split
  · exact ⟨high, rfl, h, le_rfl⟩
  next hhigh =>
  exact ⟨x, rfl, not_lt.1 hlow, not_lt.1 hhigh⟩

@[simp] protected theorem add_zero (a : Quantity) : a + 0.0 = a := by
  cases a <;> simp [zero_eq]

@[simp] protected theorem zero_add (a : Quantity) : 0.0 + a = a := by
  cases a <;> simp [zero_eq]

/-! ## Rounding -/

/-- Without a sign, rounding takes the integer part of half a unit more. -/
theorem nearest_eq_floor {x : ℝ} (h : 0 ≤ x) : nearest x = ⌊x + 1 / 2⌋ := if_pos h

/-- Rounding keeps the order of numbers. -/
theorem monotone_nearest : Monotone nearest := by
  intro x y hxy
  unfold nearest
  split_ifs with hx hy hy
  · exact Int.cast_le.2 (Int.floor_le_floor (by linarith))
  · exact absurd (hx.trans hxy) hy
  · -- zero lies between the two
    have hbelow : ⌈x - 1 / 2⌉ ≤ 0 := Int.ceil_le.2 (by push_cast; linarith)
    have habove : 0 ≤ ⌊y + 1 / 2⌋ := Int.le_floor.2 (by push_cast; linarith)
    exact Int.cast_le.2 (hbelow.trans habove)
  · exact Int.cast_le.2 (Int.ceil_le_ceil (by linarith))

/-- Rounding leads to a bound or above it when the whole number above the bound is at most one half
away. -/
theorem le_nearest_iff {x low : ℝ} (h : 0 ≤ x) : low ≤ nearest x ↔ ⌈low⌉ - 1 / 2 ≤ x := by
  rw [nearest_eq_floor h, ← Int.ceil_le, Int.le_floor, sub_le_iff_le_add]

/-- Rounding leads to a bound or below it when the whole number below the bound is less than one
half away. -/
theorem nearest_le_iff {x high : ℝ} (h : 0 ≤ x) : nearest x ≤ high ↔ x < ⌊high⌋ + 1 / 2 := by
  rw [nearest_eq_floor h, ← Int.le_floor, ← Int.lt_add_one_iff, Int.floor_lt]
  push_cast
  constructor <;> intro hx <;> linarith

/-! ## Arithmetic of path costs -/

/-- The quantities that are at least zero are the numbers that are. -/
theorem zero_le_iff {a : Quantity} : 0.0 ≤ a ↔ ∃ x, 0 ≤ x ∧ a = number x := by
  rw [zero_eq]
  cases a with
  | number x => simp
  | undefined => simp

/-- The quantities that are above zero are the numbers that are. -/
theorem zero_lt_iff {a : Quantity} : 0.0 < a ↔ ∃ x, 0 < x ∧ a = number x := by
  rw [zero_eq]
  cases a with
  | number x => simp
  | undefined => simp

instance : PathArithmetic Quantity where
  zero_le_zero := by simp [zero_eq]
  le_trans {a b c} hab hbc := by
    cases a <;> cases b <;> cases c <;> simp_all
    exact hab.trans hbc
  le_antisymm {a b} _ hab hba := by
    cases a <;> cases b <;> simp_all
    exact le_antisymm hab hba
  le_total ha hb := by
    obtain ⟨x, -, rfl⟩ := zero_le_iff.1 ha
    obtain ⟨y, -, rfl⟩ := zero_le_iff.1 hb
    simpa using le_total x y
  lt_iff_not_le ha hb := by
    obtain ⟨x, -, rfl⟩ := zero_le_iff.1 ha
    obtain ⟨y, -, rfl⟩ := zero_le_iff.1 hb
    simp
  beq_iff_eq ha hb := by
    obtain ⟨x, -, rfl⟩ := zero_le_iff.1 ha
    obtain ⟨y, -, rfl⟩ := zero_le_iff.1 hb
    simp
  le_add ha hc := by
    obtain ⟨x, -, rfl⟩ := zero_le_iff.1 ha
    obtain ⟨z, hz, rfl⟩ := zero_le_iff.1 hc
    simpa using hz
  add_le_add {a b c} ha hab hc := by
    obtain ⟨x, -, rfl⟩ := zero_le_iff.1 ha
    obtain ⟨z, -, rfl⟩ := zero_le_iff.1 hc
    cases b <;> simp_all

end Quantity

end AdaptiveRouting
