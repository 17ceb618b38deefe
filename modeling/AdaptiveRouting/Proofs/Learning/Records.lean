import AdaptiveRouting.Proofs.Learning.SlotAverages
import AdaptiveRouting.Proofs.Learning.TrainingStep

/-!
# Recorded predictions

A report is judged by what the model says before it learns from the report, and that is the error
that is noted. The record of the report holds what the model says afterwards, for the same features.
The two are the same exactly if the model is not trained on the report or was right about it; if it
is trained, the recorded prediction has moved towards what was reported, so that the record shows a
smaller error than the one that was noted (`record_follows_learning`).

What is said of one report holds in every state that a learner can reach, as everything that
predictions are made from stays a number: the weights, the round-trip times and the averages of the
time slots (`CostModel.Exact`). The features are in their ranges then, so the length of a step is
known (`CostModel.Exact.exists_learnt`).
-/

namespace AdaptiveRouting

open Quantity (number)

/-! ## Time slots -/

namespace TimeSlots

/-- The averages are numbers. -/
structure Exact (s : TimeSlots Quantity) : Prop where
  alpha : ∃ a, s.alpha = number a
  average {n : Name} {minute : Nat} {slot : TimeSlot Quantity} :
    s.slot? n minute = some slot → ∃ x, slot.average = number x

variable {s : TimeSlots Quantity}

/-- No slots have no average that is not a number. -/
theorem exact_empty (a : ℝ) : (empty (number a)).Exact where
  alpha := ⟨a, rfl⟩
  average h := by simp [empty, slot?] at h

/-- The averages remain numbers when a number is entered. -/
theorem Exact.update (h : s.Exact) (n : Name) (minute : Nat) (performance : ℝ) (now : Instant) :
    (s.update n minute (number performance) now).Exact where
  alpha := h.alpha
  average {k other slot} hslot := by
    rw [slot?_update] at hslot
    split at hslot
    · obtain rfl := Option.some.inj hslot
      cases hbefore : s.slot? n minute with
      | none => exact ⟨performance, rfl⟩
      | some before =>
        obtain ⟨a, ha⟩ := h.alpha
        obtain ⟨x, hx⟩ := h.average hbefore
        refine ⟨a * performance + (1 - a) * x, ?_⟩
        show s.alpha * number performance + (1.0 - s.alpha) * before.average = _
        rw [ha, hx, Quantity.one_eq, Quantity.number_mul_number, Quantity.number_sub_number,
          Quantity.number_mul_number, Quantity.number_add_number]
    · exact h.average hslot

/-- Then the feature of the time of day is a number. -/
theorem Exact.exists_feature (h : s.Exact) (n : Name) (minute : Nat) :
    ∃ x, s.feature n minute = number x := by
  unfold feature
  cases hslot : s.slot? n minute with
  | none => exact ⟨_, Quantity.ofScientific_eq ..⟩
  | some slot => exact h.average hslot

end TimeSlots

/-! ## Models of numbers -/

/-- In valid settings the weight of the latest report is a number. -/
theorem LearningSettings.exists_temporalAlpha {settings : LearningSettings Quantity}
    (hvalid : settings.violation? = none) : ∃ a, settings.temporalAlpha = number a := by
  obtain ⟨a, -, ha⟩ := Quantity.zero_lt_iff.1 (violation?_eq_none_iff.1 hvalid).temporalAlpha.1
  exact ⟨a, ha⟩

/-- The score of a report is a number. -/
def LearningCall.IsNumeric : LearningCall Quantity → Prop
  | .report _ actual => ∃ x, actual = number x
  | _ => True

namespace CostModel

/-- Everything that predictions are made from is a number. -/
structure Exact (m : CostModel Quantity) : Prop where
  model : ∃ w b updates, m.model = .exact w b updates
  roundTrips (n : Name) : ∀ a ∈ m.roundTripsTo n, ∃ x, number x = a
  slots : m.slots.Exact

variable {m : CostModel Quantity} {settings : LearningSettings Quantity}

/-- The weights of a new model are numbers. -/
theorem exact_untrained (hvalid : settings.violation? = none) (now : Instant) :
    (untrained settings now).Exact where
  model := ⟨_, _, _, LinearModel.heuristic_eq⟩
  roundTrips n a ha := by simp [untrained, roundTripsTo] at ha
  slots := by
    obtain ⟨a, ha⟩ := LearningSettings.exists_temporalAlpha hvalid
    rw [untrained, ha]
    exact TimeSlots.exact_empty a

/-- The features of a model of numbers are numbers in their ranges. -/
theorem Exact.exists_features (h : m.Exact) (minute : Nat) (n : Name) :
    ∃ f : Features ℝ, f.InRange ∧ m.features minute n = f.exact := by
  obtain ⟨samples, hsamples⟩ := exists_map_number (h.roundTrips n)
  obtain ⟨t, ht⟩ := h.slots.exists_feature n minute
  rw [features, ← hsamples, ht]
  exact Features.exists_extract samples m.settings.successRtt t

/-- The rate at which a report is learnt from if training is due. -/
def rateOf {α : Type} [Scalar α] (m : CostModel α) (clock : Clock) (n : Name) (actual : α) : α :=
  ((m.noteReport clock n actual).noteError (m.errorOf clock n actual)).adaptedRate

/-- A report changes the weights only if learning is due. -/
theorem model_report {α : Type} [Scalar α] (m : CostModel α) (clock : Clock) (n : Name)
    (actual : α) :
    (m.report clock n actual).model =
      if m.isDue (m.errorOf clock n actual) clock.now then
        m.model.update (m.features clock.minuteOfDay n) actual (m.rateOf clock n actual)
      else m.model := by
  refine (congrArg CostModel.model (m.learnt_eq clock n actual)).trans ?_
  dsimp only
  split <;> rfl

/-- The rate of a sound model is a number above zero, and no higher than the settings allow. -/
theorem Sound.exists_rateOf (h : m.Sound settings) (hsettings : settings.Bounded) (clock : Clock)
    (n : Name) (actual : Quantity) :
    ∃ rate, 0 < rate ∧ m.rateOf clock n actual = number rate ∧
      number rate ≤ settings.maxLearningRate := by
  have hnoted : ((m.noteReport clock n actual).noteError (m.errorOf clock n actual)).Sound
      settings := { h with }
  obtain ⟨hlow, hhigh⟩ := hnoted.adaptedRate_mem hsettings
  obtain ⟨rate, hpos, hrate⟩ :=
    Quantity.zero_lt_iff.1 (RateArithmetic.lt_of_lt_of_le hsettings.pos hlow)
  exact ⟨rate, hpos, hrate, hrate ▸ hhigh⟩

/-- A prediction leaves the model as one of numbers. -/
theorem Exact.predictCost (h : m.Exact) (clock : Clock) (n : Name)
    (metrics : LinkMetrics Quantity) : (m.predictCost clock n metrics).2.Exact where
  model := h.model
  roundTrips other a ha := by
    rw [roundTripsTo_predictCost] at ha
    rcases mem_of_mem_keep ha with hold | hnew
    · exact h.roundTrips other a hold
    · split at hnew
      · obtain ⟨rtt, -, rfl⟩ := Option.map_eq_some_iff.1 hnew
        exact ⟨_, (Duration.wholeMillis_eq rtt).symm⟩
      · cases hnew
  slots := h.slots

/-- So does the report of a number. -/
theorem Exact.report (h : m.Exact) (hsound : m.Sound settings) (hsettings : settings.Bounded)
    (clock : Clock) (n : Name) (actual : ℝ) : (m.report clock n (number actual)).Exact where
  model := by
    obtain ⟨w, b, updates, hmodel⟩ := h.model
    rw [model_report]
    split
    · obtain ⟨f, -, hf⟩ := h.exists_features clock.minuteOfDay n
      obtain ⟨rate, -, hrate, -⟩ := hsound.exists_rateOf hsettings clock n (number actual)
      obtain ⟨w', b', hupdate, -⟩ := LinearModel.exists_update w f b updates actual rate
      rw [hmodel, hf, hrate, hupdate]
      exact ⟨w', b', updates + 1, rfl⟩
    · exact h.model
  roundTrips other := roundTripsTo_report m clock n other (number actual) ▸ h.roundTrips other
  slots := slots_report m clock n (number actual) ▸ h.slots.update n clock.minuteOfDay actual _

/-- For the features of a report, the activation moves towards what is reported if the model is
trained on it, and stays otherwise. -/
theorem Exact.exists_step (h : m.Exact) (hsound : m.Sound settings) (hsettings : settings.Bounded)
    (clock : Clock) (n : Name) (actual : ℝ) :
    ∃ z c : ℝ,
      m.model.predict (m.features clock.minuteOfDay n) = number z.sigmoid ∧
      (m.recordOf clock n (number actual)).predicted =
        number (z + c * (actual - z.sigmoid)).sigmoid ∧
      if m.isDue (m.errorOf clock n (number actual)) clock.now then
        0 < c ∧ number (c / 6) ≤ settings.maxLearningRate
      else c = 0 := by
  obtain ⟨f, hrange, hf⟩ := h.exists_features clock.minuteOfDay n
  obtain ⟨w, b, updates, hmodel⟩ := h.model
  obtain ⟨rate, hpos, hrate, hmost⟩ := hsound.exists_rateOf hsettings clock n (number actual)
  rw [recordOf, model_report, hf, hmodel]
  split
  -- A step along the gradient moves the activation by the rate times the reach of the features,
  -- which is at most six.
  · obtain ⟨w', b', hupdate, hactivation⟩ := LinearModel.exists_update w f b updates actual rate
    refine ⟨LinearModel.exactActivation w f b, rate * f.reach, ?_, ?_, ?_, ?_⟩
    · exact LinearModel.predict_eq_sigmoid w f b updates
    · rw [hrate, hupdate, LinearModel.predict_eq_sigmoid, hactivation]
    · exact mul_pos hpos f.reach_pos
    · refine RateArithmetic.le_trans (Quantity.number_le_number.2 ?_) hmost
      nlinarith [hrange.reach_le]
  · refine ⟨LinearModel.exactActivation w f b, 0, ?_, ?_, rfl⟩
    · exact LinearModel.predict_eq_sigmoid w f b updates
    · rw [zero_mul, add_zero, LinearModel.predict_eq_sigmoid]

/-- So does every call that brings numbers only. -/
theorem Exact.apply {l : Learner Quantity} (h : l.model.Exact) (hsound : l.model.Sound settings)
    (hsettings : settings.Bounded) {c : LearningCall Quantity} (hc : c.IsNumeric) :
    (l.apply c).model.Exact := by
  cases c with
  | predict n metrics => exact h.predictCost l.clock n metrics
  | report n actual =>
    obtain ⟨x, rfl⟩ := hc
    exact h.report hsound hsettings l.clock n x
  | advance | setMinute => exact h

/-- A run of such calls keeps the model one of numbers, and sound. -/
theorem Exact.run {l : Learner Quantity} (h : l.model.Exact) (hsound : l.model.Sound settings)
    (hsettings : settings.Bounded) {calls : List (LearningCall Quantity)}
    (hcalls : ∀ c ∈ calls, c.IsNumeric) :
    (l.run calls).model.Exact ∧ (l.run calls).model.Sound settings := by
  induction calls generalizing l with
  | nil => exact ⟨h, hsound⟩
  | cons c calls ih =>
    rw [List.forall_mem_cons] at hcalls
    exact ih (h.apply hsound hsettings hcalls.1) (hsound.apply hsettings c) hcalls.2

end CostModel

/-! ## Records and errors -/

/-- How the prediction in the record of a report stands to the one that was judged. -/
structure Hindsight (settings : LearningSettings Quantity) (trained : Bool)
    (actual before recorded : ℝ) : Prop where
  before_mem : before ∈ Set.Ioo 0 1
  /-- The prediction that was judged is recorded exactly if the model was not trained, or right. -/
  recorded_eq_iff : recorded = before ↔ trained = false ∨ before = actual
  /-- Training moves the prediction towards what was reported. -/
  up : trained = true → before < actual → before < recorded
  down : trained = true → actual < before → recorded < before
  /-- At rates up to four thirds it leads closer to that, so the record shows a smaller error. -/
  closer : settings.maxLearningRate ≤ number (4 / 3) → trained = true → before ≠ actual →
    |actual - recorded| < |actual - before|

/-- One step towards the target gives what the later record shows of it. -/
theorem hindsight_of_step {settings : LearningSettings Quantity} {trained : Bool}
    {actual z c : ℝ}
    (hc : if trained then 0 < c ∧ number (c / 6) ≤ settings.maxLearningRate else c = 0) :
    Hindsight settings trained actual z.sigmoid (z + c * (actual - z.sigmoid)).sigmoid where
  before_mem := ⟨Real.sigmoid_pos z, Real.sigmoid_lt_one z⟩
  recorded_eq_iff := by
    rw [Real.sigmoid_inj, add_eq_left, mul_eq_zero, sub_eq_zero, eq_comm (a := actual)]
    cases trained with
    | false =>
      rw [if_neg Bool.false_ne_true] at hc
      simp [hc]
    | true => simp [hc.1.ne']
  up htrained h := by
    subst htrained
    exact (sigmoid_step_up hc.1 h).1
  down htrained h := by
    subst htrained
    exact (sigmoid_step_down hc.1 h).1
  closer hmost htrained hne := by
    subst htrained
    obtain ⟨hpos, hc⟩ := hc
    -- The slope of the sigmoid is a quarter at most, so a step of up to eight does not overshoot by
    -- as much as it started from.
    have hlong : c ≤ 8 := by
      have := Quantity.number_le_number.1 (RateArithmetic.le_trans hc hmost)
      linarith
    rcases hne.lt_or_gt with h | h
    · obtain ⟨hmove, hslope⟩ := sigmoid_step_up hpos h
      have hquarter := mul_le_mul_of_nonneg_right hlong (sub_pos.2 h).le
      rw [abs_of_pos (sub_pos.2 h), abs_lt]
      constructor <;> linarith
    · obtain ⟨hmove, hslope⟩ := sigmoid_step_down hpos h
      have hquarter := mul_le_mul_of_nonneg_right hlong (sub_pos.2 h).le
      rw [abs_of_neg (sub_neg.2 h), abs_lt]
      constructor <;> linarith

/-- The record shows the error that was noted exactly if it holds the prediction that was judged. -/
theorem Hindsight.deviation_eq_iff {settings : LearningSettings Quantity} {trained : Bool}
    {actual before recorded : ℝ} (h : Hindsight settings trained actual before recorded)
    (hmost : settings.maxLearningRate ≤ number (4 / 3)) :
    |actual - recorded| = |actual - before| ↔ trained = false ∨ before = actual := by
  refine ⟨fun heq => ?_, fun hcase => by rw [h.recorded_eq_iff.2 hcase]⟩
  by_contra hcase
  obtain ⟨htrained, hne⟩ := not_or.1 hcase
  exact (h.closer hmost (Bool.eq_true_of_not_eq_false htrained) hne).ne heq

/-- **The record of a report follows what has been learnt from it.** Under settings that pass the
check, with a number for a learning rate, take any calls in any order, with numbers for scores, and
then a report. The error that is noted is that of the prediction before the report, and the record
that is appended holds the prediction after it, for the same features. That is the same prediction
exactly if the model is not trained on the report or was right; otherwise it has moved towards what
was reported. At rates up to four thirds the record shows the error that was noted in just these
cases, and a smaller one in all others. -/
theorem record_follows_learning {settings : LearningSettings Quantity}
    (hvalid : settings.violation? = none) (hnumber : settings.learningRate ≤ settings.learningRate)
    (clock : Clock) {calls : List (LearningCall Quantity)} (hcalls : ∀ c ∈ calls, c.IsNumeric)
    (n : Name) (actual : ℝ) :
    let l := (Learner.fresh settings clock).run calls
    let report : LearningCall Quantity := .report n (number actual)
    ∃ before recorded : ℝ,
      l.model.model.predict (l.model.features l.clock.minuteOfDay n) = number before ∧
      (l.apply report).model.errors =
        latest settings.errorWindow (l.model.errors ++ [number |actual - before|]) ∧
      (l.apply report).model.recorded n = latest settings.recordCapacity
        (l.model.recorded n ++ [⟨number recorded, number actual, l.clock.now⟩]) ∧
      Hindsight settings (l.trains report) actual before recorded ∧
      (settings.maxLearningRate ≤ number (4 / 3) →
        (|actual - recorded| = |actual - before| ↔ l.trains report = false ∨ before = actual)) := by
  intro l report
  have hsettings := LearningSettings.bounded hvalid hnumber
  obtain ⟨hexact, hsound⟩ : l.model.Exact ∧ l.model.Sound settings :=
    (CostModel.exact_untrained hvalid clock.now).run (l := Learner.fresh settings clock)
      (CostModel.sound_untrained hsettings clock.now) hsettings hcalls
  obtain ⟨z, c, hbefore, hrecorded, hc⟩ := hexact.exists_step hsound hsettings l.clock n actual
  have hhindsight : Hindsight settings (l.trains report) actual _ _ := hindsight_of_step (z := z) hc
  refine ⟨_, _, hbefore, ?_, ?_, hhindsight, hhindsight.deviation_eq_iff⟩
  · rw [l.errors_apply, hsound.settings_eq]
    show latest _ (_ ++ [l.model.errorOf l.clock n (number actual)]) = _
    rw [CostModel.errorOf, hbefore, Quantity.number_sub_number, Quantity.abs_number]
  · have hrecord : l.record? n report =
        some ⟨number (z + c * (actual - z.sigmoid)).sigmoid, number actual, l.clock.now⟩ := by
      rw [← hrecorded]
      exact if_pos rfl
    rw [l.recorded_apply, hsound.settings_eq, hrecord]
    rfl

namespace Learner.OneReport

/-- The report after the quiet is learnt from, as training is overdue, and its record shows a
smaller error than the one that is noted. -/
theorem record_overdue :
    (LearningSettings.standard : LearningSettings Quantity).violation? = none ∧
    (LearningSettings.standard : LearningSettings Quantity).learningRate ≤
      LearningSettings.standard.learningRate ∧
    (∀ c ∈ quiet, c.IsNumeric) ∧
    let l := start.run quiet
    let report : LearningCall Quantity := .report peer (number 1)
    ∃ before recorded : ℝ,
      l.model.model.predict (l.model.features l.clock.minuteOfDay peer) = number before ∧
      (l.apply report).model.errors = [number |1 - before|] ∧
      (l.apply report).model.recorded peer =
        [⟨number recorded, number 1, Duration.ofSeconds 31⟩] ∧
      |1 - recorded| < |1 - before| := by
  have hnumber : (LearningSettings.standard : LearningSettings Quantity).learningRate ≤
      LearningSettings.standard.learningRate := by
    rw [LearningSettings.standard, Quantity.ofScientific_eq, Quantity.number_le_number]
  have hcalls : ∀ c ∈ quiet, c.IsNumeric := by
    simp [quiet, LearningCall.IsNumeric]
  refine ⟨violation?_standard, hnumber, hcalls, ?_⟩
  intro l report
  obtain ⟨before, recorded, hbefore, herrors, hrecorded, hhindsight, -⟩ :=
    record_follows_learning violation?_standard hnumber ⟨0, 0⟩ hcalls peer 1
  have hlate : l.trains report = true := by
    rw [trains, CostModel.isDue, Bool.or_eq_true]
    exact .inr (decide_eq_true (by decide))
  have hmost : (LearningSettings.standard : LearningSettings Quantity).maxLearningRate ≤
      number (4 / 3) := by
    show (0.05 : Quantity) ≤ _
    rw [Quantity.ofScientific_eq, Quantity.number_le_number]
    norm_num
  exact ⟨before, recorded, hbefore, herrors, hrecorded,
    hhindsight.closer hmost hlate hhindsight.before_mem.2.ne⟩

end Learner.OneReport

end AdaptiveRouting
