import AdaptiveRouting.Proofs.Learning.FeatureRanges
import Mathlib.Analysis.Calculus.Deriv.MeanValue
import Mathlib.Analysis.SpecialFunctions.Sigmoid
import Mathlib.Order.Monotone.Union

/-!
# One training step

A training step improves the prediction that it was taken for: for features in their ranges and a
rate of two thirds at most, the new prediction is strictly between the old one and the target
(`predictions_approach`).

The bias and all weights are moved at once, and the activation moves by the rate times the error
times one plus the sum of the squared features (`LinearModel.exists_update`), which is six at most
(`Features.InRange.reach_le`). So the activation moves by four times the error at most; and as the
logistic function is less steep than a quarter except at one point, the prediction moves by less
than the error (`sigmoid_sub_lt`). No step passes the target then, so all steps lead the same way
(`approaches_of_step`).
-/

namespace AdaptiveRouting

open Quantity (number)

/-! ## The logistic function -/

/-- A line of slope one quarter rises faster than the logistic function: that has its greatest slope
at zero only, where both have the same. -/
theorem strictMono_sub_sigmoid : StrictMono fun z : ℝ => z / 4 - z.sigmoid := by
  have hderiv : ∀ z, HasDerivAt (fun z : ℝ => z / 4 - z.sigmoid) ((z.sigmoid - 1 / 2) ^ 2) z := by
    intro z
    refine (((hasDerivAt_id z).div_const 4).sub (Real.hasDerivAt_sigmoid z)).congr_deriv ?_
    ring
  have hcontinuous : Continuous fun z : ℝ => z / 4 - z.sigmoid := by fun_prop
  have hrise : ∀ z : ℝ, z ≠ 0 → 0 < deriv (fun z : ℝ => z / 4 - z.sigmoid) z := by
    intro z hz
    have hhalf : z.sigmoid ≠ 1 / 2 := fun h =>
      hz (Real.sigmoid_injective (by rw [h, Real.sigmoid_zero, one_div]))
    rw [(hderiv z).deriv]
    have := sub_ne_zero.2 hhalf
    positivity
  -- The slopes are the same at zero, so either side of it is looked at alone.
  refine StrictMonoOn.Iic_union_Ici (a := 0)
    (strictMonoOn_of_deriv_pos (convex_Iic 0) hcontinuous.continuousOn fun z hz => ?_)
    (strictMonoOn_of_deriv_pos (convex_Ici 0) hcontinuous.continuousOn fun z hz => ?_)
  · rw [interior_Iic] at hz
    exact hrise z hz.ne
  · rw [interior_Ici] at hz
    exact hrise z hz.ne'

/-- The logistic function rises by less than a quarter of a distance. -/
theorem sigmoid_sub_lt {x y : ℝ} (h : x < y) : y.sigmoid - x.sigmoid < (y - x) / 4 := by
  have hrise := strictMono_sub_sigmoid h
  dsimp only at hrise
  linarith

/-- A step towards a target above moves the prediction up, by less than a quarter of the step. -/
theorem sigmoid_step_up {c z target : ℝ} (hc : 0 < c) (h : z.sigmoid < target) :
    z.sigmoid < (z + c * (target - z.sigmoid)).sigmoid ∧
      (z + c * (target - z.sigmoid)).sigmoid - z.sigmoid < c * (target - z.sigmoid) / 4 := by
  have hstep : z < z + c * (target - z.sigmoid) :=
    lt_add_of_pos_right z (mul_pos hc (sub_pos.2 h))
  have hslope := sigmoid_sub_lt hstep
  rw [add_sub_cancel_left] at hslope
  exact ⟨Real.sigmoid_strictMono hstep, hslope⟩

/-- A step down lowers the prediction, by less than a quarter of the rate times the distance. -/
theorem sigmoid_step_down {c z target : ℝ} (hc : 0 < c) (h : target < z.sigmoid) :
    (z + c * (target - z.sigmoid)).sigmoid < z.sigmoid ∧
      z.sigmoid - (z + c * (target - z.sigmoid)).sigmoid < c * (z.sigmoid - target) / 4 := by
  have hstep : z + c * (target - z.sigmoid) < z :=
    add_lt_of_neg_right z (mul_neg_of_pos_of_neg hc (sub_neg.2 h))
  have hslope := sigmoid_sub_lt hstep
  exact ⟨Real.sigmoid_strictMono hstep, by linarith⟩

/-! ## The length of a step -/

/-- How far the activation moves when the bias is moved by one and each weight by its feature. -/
def Features.reach (f : Features ℝ) : ℝ :=
  1 + (f.trend ^ 2 + f.variation ^ 2 + f.success ^ 2 + f.load ^ 2 + f.temporal ^ 2)

/-- The features reach out, since the bias counts as one. -/
theorem Features.reach_pos (f : Features ℝ) : 0 < f.reach := by
  unfold reach
  positivity

/-- Features in their ranges reach no further than six. -/
theorem Features.InRange.reach_le {f : Features ℝ} (h : f.InRange) : f.reach ≤ 6 := by
  have hsquare : ∀ {x : ℝ}, x ∈ Set.Icc (-1) 1 → x ^ 2 ≤ 1 := fun hx =>
    (sq_le_one_iff_abs_le_one _).2 (abs_le.2 hx)
  have hwiden : ∀ {x : ℝ}, x ∈ Set.Icc 0 1 → x ∈ Set.Icc (-1) 1 := fun hx =>
    Set.Icc_subset_Icc_left (by norm_num) hx
  have htrend := hsquare h.trend
  have hvariation := hsquare (hwiden h.variation)
  have hsuccess := hsquare (hwiden h.success)
  have hload := hsquare h.load
  have htemporal := hsquare (hwiden h.temporal)
  unfold reach
  linarith

namespace LinearModel

variable (w f : Features ℝ) (b : ℝ) (updates : Nat)

/-- A prediction is the sigmoid of the activation. -/
theorem predict_eq_sigmoid :
    (exact w b updates).predict f.exact = number (exactActivation w f b).sigmoid := by
  rw [predict_exact, one_div, Real.sigmoid_def]

/-- A training step moves the activation by the error, the rate and the reach of the features. -/
theorem exists_update (target rate : ℝ) :
    ∃ w' b', (exact w b updates).update f.exact (number target) (number rate) =
        exact w' b' (updates + 1) ∧
      exactActivation w' f b' = exactActivation w f b +
        rate * f.reach * (target - (exactActivation w f b).sigmoid) := by
  refine ⟨_, _, update_exact w f b updates target rate _ (predict_eq_sigmoid w f b updates), ?_⟩
  generalize (exactActivation w f b).sigmoid = p
  simp only [exactActivation, Features.reach]
  ring

/-- Some training steps for the same features and target. -/
def repeated {α : Type} [Scalar α] (m : LinearModel α) (f : Features α) (target rate : α) :
    Nat → LinearModel α
  | 0 => m
  | n + 1 => (m.repeated f target rate n).update f target rate

end LinearModel

/-! ## Repeated steps -/

/-- The activations over repeated steps that go from `z` towards a target. -/
noncomputable def activations (c target z : ℝ) : Nat → ℝ
  | 0 => z
  | n + 1 => activations c target z n + c * (target - (activations c target z n).sigmoid)

/-- The predictions move towards the target, a step at a time and without passing it. -/
structure Approaches (target : ℝ) (p : Nat → ℝ) : Prop where
  /-- A step leads to strictly between the prediction and the target. -/
  between {n : Nat} : p n ≠ target → p (n + 1) ∈ Set.uIoo (p n) target
  /-- A prediction that is right does not change. -/
  stays {n : Nat} : p n = target → p (n + 1) = target
  closer {n : Nat} : p n ≠ target → |target - p (n + 1)| < |target - p n|
  below : p 0 ≤ target → Monotone p ∧ ∀ n, p n ≤ target
  above : target ≤ p 0 → Antitone p ∧ ∀ n, target ≤ p n

/-- What moves towards a target at each step without reaching it approaches it. -/
theorem approaches_of_step {target : ℝ} {p : Nat → ℝ}
    (hup : ∀ n, p n < target → p n < p (n + 1) ∧ p (n + 1) < target)
    (hdown : ∀ n, target < p n → target < p (n + 1) ∧ p (n + 1) < p n)
    (hstays : ∀ n, p n = target → p (n + 1) = target) : Approaches target p where
  between {n} hne := by
    rcases hne.lt_or_gt with h | h
    · rw [Set.uIoo_of_lt h]
      exact hup n h
    · rw [Set.uIoo_of_gt h]
      exact hdown n h
  stays := hstays _
  closer {n} hne := by
    rcases hne.lt_or_gt with h | h
    · obtain ⟨hlow, hhigh⟩ := hup n h
      rw [abs_of_pos (sub_pos.2 hhigh), abs_of_pos (sub_pos.2 h)]
      linarith
    · obtain ⟨hlow, hhigh⟩ := hdown n h
      rw [abs_of_neg (sub_neg.2 hlow), abs_of_neg (sub_neg.2 h)]
      linarith
  below h := by
    -- The target itself is included, where nothing moves any more.
    have hrise : ∀ n, p n ≤ target → p n ≤ p (n + 1) ∧ p (n + 1) ≤ target := fun n hn =>
      hn.lt_or_eq.elim (fun hlt => (hup n hlt).imp le_of_lt le_of_lt) fun heq => by
        rw [hstays n heq, heq, and_self]
    have hside : ∀ n, p n ≤ target := by
      intro n
      induction n with
      | zero => exact h
      | succ n ih => exact (hrise n ih).2
    exact ⟨monotone_nat_of_le_succ fun n => (hrise n (hside n)).1, hside⟩
  above h := by
    have hfall : ∀ n, target ≤ p n → target ≤ p (n + 1) ∧ p (n + 1) ≤ p n := fun n hn =>
      hn.lt_or_eq'.elim (fun hlt => (hdown n hlt).imp le_of_lt le_of_lt) fun heq => by
        rw [hstays n heq, heq, and_self]
    have hside : ∀ n, target ≤ p n := by
      intro n
      induction n with
      | zero => exact h
      | succ n ih => exact (hfall n ih).1
    exact ⟨antitone_nat_of_succ_le fun n => (hfall n (hside n)).2, hside⟩

/-- The predictions of repeated steps approach the target if the rate times the reach is at most
four. -/
theorem approaches_activations {c : ℝ} (hc : 0 < c) (hc' : c ≤ 4) (target z : ℝ) :
    Approaches target fun n => (activations c target z n).sigmoid := by
  refine approaches_of_step (fun n h => ?_) (fun n h => ?_) fun n h => ?_
  · obtain ⟨hmove, hslope⟩ := sigmoid_step_up hc h
    refine ⟨hmove, ?_⟩
    have hquarter := mul_le_mul_of_nonneg_right hc' (sub_pos.2 h).le
    rw [activations]
    linarith
  · obtain ⟨hmove, hslope⟩ := sigmoid_step_down hc h
    refine ⟨?_, hmove⟩
    have hquarter := mul_le_mul_of_nonneg_right hc' (sub_pos.2 h).le
    rw [activations]
    linarith
  · rw [activations, h, sub_self, mul_zero, add_zero, h]

/-- Repeated learning from one example moves the activation along itself alone. -/
theorem LinearModel.exists_repeated (w f : Features ℝ) (b : ℝ) (updates : Nat) (target rate : ℝ)
    (n : Nat) :
    ∃ w' b', (exact w b updates).repeated f.exact (number target) (number rate) n =
        exact w' b' (updates + n) ∧
      exactActivation w' f b' =
        activations (rate * f.reach) target (exactActivation w f b) n := by
  induction n with
  | zero => exact ⟨w, b, rfl, rfl⟩
  | succ n ih =>
    obtain ⟨w₁, b₁, hmodel, hactivation⟩ := ih
    obtain ⟨w₂, b₂, hupdate, hmoved⟩ := exists_update w₁ f b₁ (updates + n) target rate
    refine ⟨w₂, b₂, ?_, ?_⟩
    · rw [repeated, hmodel, hupdate, add_assoc]
    · rw [hmoved, hactivation, activations]

/-- **Training improves the prediction that it is for.** Take any model, any features in their
ranges, any target and any positive rate up to two thirds. A training step leads to a prediction for
these features that is strictly between the old one and the target, unless that was right, when it
stays; so the error becomes smaller. Over any number of steps for the same features and target the
predictions move towards the target and never pass it. -/
theorem predictions_approach (w : Features ℝ) {f : Features ℝ} (hf : f.InRange) (b : ℝ)
    (updates : Nat) (target : ℝ) {rate : ℝ} (hrate : 0 < rate) (hrate' : rate ≤ 2 / 3) :
    ∃ p : Nat → ℝ, Approaches target p ∧
      ∀ n, ((LinearModel.exact w b updates).repeated f.exact (number target) (number rate)
        n).predict f.exact = number (p n) := by
  have hreach := f.reach_pos
  have hlong : rate * f.reach ≤ 4 := by
    calc rate * f.reach ≤ 2 / 3 * 6 := mul_le_mul hrate' hf.reach_le hreach.le (by norm_num)
      _ = 4 := by norm_num
  refine ⟨_, approaches_activations (mul_pos hrate hreach) hlong target
    (LinearModel.exactActivation w f b), fun n => ?_⟩
  obtain ⟨w', b', hmodel, hactivation⟩ := LinearModel.exists_repeated w f b updates target rate n
  rw [hmodel, LinearModel.predict_eq_sigmoid, hactivation]

/-- With all features at their upper ends and the greatest rate, the heuristic model still unlearns
a performance that was good all along one step at a time. -/
theorem predictions_approach_zero :
    let f : Features ℝ := ⟨1, 1, 1, 1, 1⟩
    f.InRange ∧ (0 : ℝ) < 2 / 3 ∧ (2 / 3 : ℝ) ≤ 2 / 3 ∧
    ∃ p : Nat → ℝ, Approaches 0 p ∧
      (∀ n, (LinearModel.heuristic.repeated f.exact (number 0) (number (2 / 3)) n).predict f.exact =
        number (p n)) ∧
      ∀ n, 0 < p (n + 1) ∧ p (n + 1) < p n := by
  intro f
  have hf : f.InRange := by constructor <;> norm_num [f]
  have hrate : (0 : ℝ) < 2 / 3 := by norm_num
  obtain ⟨p, happroaches, hp⟩ :=
    predictions_approach ⟨0.4, 0.3, 0.2, 0.1, 0.15⟩ hf 0 0 0 hrate le_rfl
  rw [← LinearModel.heuristic_eq] at hp
  have hstep : ∀ n, 0 < p n → 0 < p (n + 1) ∧ p (n + 1) < p n := by
    intro n hn
    have hbetween := happroaches.between hn.ne'
    rwa [Set.uIoo_of_gt hn] at hbetween
  have hpos : ∀ n, 0 < p n := by
    intro n
    induction n with
    | zero =>
      have hfirst : number (p 0) = number _ :=
        (hp 0).symm.trans (LinearModel.heuristic_eq ▸ LinearModel.predict_eq_sigmoid ..)
      rw [Quantity.number.inj hfirst]
      exact Real.sigmoid_pos _
    | succ n ih => exact (hstep n ih).1
  exact ⟨hf, hrate, le_rfl, p, happroaches, hp, fun n => hstep n (hpos n)⟩

end AdaptiveRouting
