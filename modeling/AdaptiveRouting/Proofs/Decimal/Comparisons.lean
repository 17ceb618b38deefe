import AdaptiveRouting.Proofs.Decimal.Packing

/-!
# Comparisons of floating-point numbers

Numbers are compared by class first (negative and infinite, negative, zero, positive, positive and
infinite), then by exponent and then by significand (`compare_eq_compareRanks`); what is not a number
has no rank and compares with nothing. So comparisons are transitive (`Float.le_trans`), and of two
numbers one is at most the other (`Float.not_lt_iff`).
-/

namespace AdaptiveRouting

open Float.Model

/-! ## Ranks -/

/-- Where a number stands: its class, its exponent and its significand. -/
def rank? : UnpackedFloat → Option (Int × Int × Int)
  | .notANumber => none
  | .infinity .negative => some (-2, 0, 0)
  | .finite .negative m q _ => some (-1, -q, -m)
  | .zero _ => some (0, 0, 0)
  | .finite .positive m q _ => some (1, q, m)
  | .infinity .positive => some (2, 0, 0)

def compareRanks : Int × Int × Int → Int × Int × Int → Ordering :=
  compareLex (compareOn (·.1)) (compareLex (compareOn (·.2.1)) (compareOn (·.2.2)))

instance : Std.TransCmp compareRanks :=
  inferInstanceAs (Std.TransCmp (compareLex _ (compareLex _ _)))

/-- Negation turns a comparison around. -/
theorem compare_negated (a b : Int) : compare (-a) (-b) = (compare a b).swap := by
  rw [← Std.OrientedOrd.eq_swap]
  simp [compare, compareOfLessAndEq, eq_comm]

/-- Counts compare as they do among the integers. -/
theorem compare_cast (m n : Nat) : compare (m : Int) n = compare m n := by
  simp [compare, compareOfLessAndEq]

/-- Two numbers compare as their ranks do, and not at all if one of them has no rank. -/
theorem compare_eq_compareRanks (x y : UnpackedFloat) :
    x.compare y = (rank? x).bind fun a => (rank? y).map fun b => compareRanks a b := by
  cases x with
  | notANumber => cases y <;> rfl
  | infinity s =>
    cases s <;> cases y with
    | infinity t => cases t <;> rfl
    | finite t => cases t <;> rfl
    | _ => rfl
  | zero s =>
    cases y with
    | infinity t => cases t <;> rfl
    | finite t => cases t <;> rfl
    | _ => rfl
  | finite s m q =>
    cases y with
    | infinity t => cases s <;> cases t <;> rfl
    | notANumber => cases s <;> rfl
    | zero t => cases s <;> rfl
    | finite t m' q' =>
      cases s <;> cases t
      -- Two negative numbers: both comparisons turn around.
      · show some _ = some ((compare (-q) (-q')).then (compare (-m : Int) (-m')))
        rw [compare_negated, compare_negated, compare_cast, Ordering.swap_then]
      · rfl
      · rfl
      · show some _ = some ((compare q q').then (compare (m : Int) m'))
        rw [compare_cast]

/-! ## Comparisons -/

namespace Float

/-- Where a floating-point number stands; nowhere if it is not a number. -/
def standing? (a : Float) : Option (Int × Int × Int) := rank? a.toModel.unpack

variable {a b c : Float}

/-- Only what is no number has no standing. -/
theorem isNaN_iff : a.isNaN = true ↔ standing? a = none := by
  rw [standing?]
  change a.toModel.unpack.isNaN = true ↔ _
  rw [UnpackedFloat.isNaN_iff]
  cases a.toModel.unpack with
  | finite s => cases s <;> simp [rank?]
  | infinity s => cases s <;> simp [rank?]
  | _ => simp [rank?]

/-- One number is below another if its standing is. -/
theorem lt_iff : a < b ↔ ∃ k ∈ standing? a, ∃ l ∈ standing? b, compareRanks k l = .lt := by
  change decide ((a.toModel.unpack.compare b.toModel.unpack == some .lt) = true) = true ↔ _
  rw [compare_eq_compareRanks]
  cases h : standing? a <;> cases h' : standing? b <;> simp_all [standing?]

/-- One number is at most another if its standing is no higher. -/
theorem le_iff : a ≤ b ↔ ∃ k ∈ standing? a, ∃ l ∈ standing? b, (compareRanks k l).isLE = true := by
  change decide ((a.toModel.unpack.compare b.toModel.unpack).any (·.isLE) = true) = true ↔ _
  rw [compare_eq_compareRanks]
  cases h : standing? a <;> cases h' : standing? b <;> simp_all [standing?]

/-- The comparison of numbers is transitive. -/
theorem le_trans (hab : a ≤ b) (hbc : b ≤ c) : a ≤ c := by
  obtain ⟨k, hk, l, hl, hkl⟩ := le_iff.1 hab
  obtain ⟨l', hl', m, hm, hlm⟩ := le_iff.1 hbc
  obtain rfl : l = l' := Option.some.inj (hl.symm.trans hl')
  exact le_iff.2 ⟨k, hk, m, hm, Std.TransCmp.isLE_trans hkl hlm⟩

/-- What is at most anything is at most itself. -/
theorem left_le (h : a ≤ b) : a ≤ a := by
  obtain ⟨k, hk, -⟩ := le_iff.1 h
  have hself : compareRanks k k = .eq := Std.ReflCmp.compare_self
  exact le_iff.2 ⟨k, hk, k, hk, by rw [hself]; rfl⟩

/-- A comparison fails either because the opposite one holds or because it makes no sense. -/
theorem not_lt_iff : ¬ a < b ↔ b ≤ a ∨ a.isNaN = true ∨ b.isNaN = true := by
  rw [lt_iff, le_iff, isNaN_iff, isNaN_iff]
  cases standing? a with
  | none => simp
  | some k =>
    cases standing? b with
    | none => simp
    | some l =>
      have hswap : compareRanks l k = (compareRanks k l).swap := Std.OrientedCmp.eq_swap
      cases hkl : compareRanks k l <;> simp [hswap, hkl]

/-- What can be compared is a number. -/
theorem isNaN_of_le (h : a ≤ b) : ¬ a.isNaN = true ∧ ¬ b.isNaN = true := by
  obtain ⟨k, hk, l, hl, -⟩ := le_iff.1 h
  rw [isNaN_iff, isNaN_iff]
  exact ⟨Option.ne_none_iff_exists'.2 ⟨k, hk⟩, Option.ne_none_iff_exists'.2 ⟨l, hl⟩⟩

end Float

end AdaptiveRouting
