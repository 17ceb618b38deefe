import AdaptiveRouting.Settings.Validation

/-!
# What the checks of settings ask for

A check looks for the first broken rule. Settings pass it when no rule is broken, so what the rules
ask for can be read off, all of it at once and in terms of the settings
(`LinkSettings.violation?_eq_none_iff`, `LearningSettings.violation?_eq_none_iff`,
`Settings.violation?_eq_none_iff`). Nothing is assumed of the arithmetic here, and so the learning
rate is only said to be neither below nor above its bounds.
-/

namespace AdaptiveRouting

variable {α : Type} [Scalar α]

omit [Scalar α] in
/-- A rule comes first in a check. -/
theorem rule_eq_none_iff {broken : Prop} [Decidable broken] {v : Violation α}
    {later : Option (Violation α)} :
    (if broken then some v else later) = none ↔ ¬ broken ∧ later = none := by
  split <;> simp [*]

/-- A fraction is positive and at most one. -/
theorem isFraction_iff {x : α} : isFraction x = true ↔ 0.0 < x ∧ x ≤ 1.0 := by
  rw [isFraction, Bool.and_eq_true, decide_eq_true_iff, decide_eq_true_iff]

/-- Link settings that keep to the rules. -/
structure LinkSettings.Sound (s : LinkSettings α) : Prop where
  maxMultiplier : 1.0 ≤ s.maxMultiplier
  changeThreshold : 0.0 < s.changeThreshold ∧ s.changeThreshold ≤ 1.0
  fineThreshold : 0.0 < s.fineThreshold ∧ s.fineThreshold ≤ 1.0
  probeInterval : s.probeInterval ≠ 0
  probeLifetime : s.probeLifetime ≠ 0
  historyCapacity : max s.minCostSamples 6 ≤ s.historyCapacity
  rttBounds : s.rttFloor < s.rttCeiling

/-- Link settings are accepted exactly if they are sound. -/
theorem LinkSettings.violation?_eq_none_iff {s : LinkSettings α} :
    s.violation? = none ↔ s.Sound := by
  unfold violation?
  simp only [rule_eq_none_iff, and_true]
  simp only [Decidable.not_not, Bool.not_eq_true', Bool.not_eq_false, not_or, isFraction_iff,
    Nat.not_lt, Nat.not_le, leastCapacity]
  constructor
  · rintro ⟨hmultiplier, hchange, hfine, ⟨hinterval, hlifetime⟩, hcapacity, hbounds⟩
    exact ⟨hmultiplier, hchange, hfine, hinterval, hlifetime, hcapacity, hbounds⟩
  · rintro ⟨hmultiplier, hchange, hfine, hinterval, hlifetime, hcapacity, hbounds⟩
    exact ⟨hmultiplier, hchange, hfine, ⟨hinterval, hlifetime⟩, hcapacity, hbounds⟩

/-- Learning settings that break no rule. -/
structure LearningSettings.Passes (s : LearningSettings α) : Prop where
  minLearningRate : 0.0 < s.minLearningRate
  rateBounds : s.minLearningRate ≤ s.maxLearningRate
  /-- The learning rate is compared the other way round. -/
  learningRate : ¬ s.learningRate < s.minLearningRate ∧ ¬ s.maxLearningRate < s.learningRate
  temporalAlpha : 0.0 < s.temporalAlpha ∧ s.temporalAlpha ≤ 1.0
  roundTripCapacity : 10 ≤ s.roundTripCapacity
  errorWindow : s.errorWindow ≠ 0

/-- Learning settings are accepted exactly if they break no rule. -/
theorem LearningSettings.violation?_eq_none_iff {s : LearningSettings α} :
    s.violation? = none ↔ s.Passes := by
  unfold violation?
  simp only [rule_eq_none_iff, and_true]
  simp only [Decidable.not_not, Bool.not_eq_true', Bool.not_eq_false, not_or, isFraction_iff,
    Nat.not_lt]
  constructor
  · rintro ⟨⟨hleast, hbounds⟩, hrate, halpha, htrips, hwindow⟩
    exact ⟨hleast, hbounds, hrate, halpha, htrips, hwindow⟩
  · rintro ⟨hleast, hbounds, hrate, halpha, htrips, hwindow⟩
    exact ⟨⟨hleast, hbounds⟩, hrate, halpha, htrips, hwindow⟩

/-- A configuration is accepted exactly if its parts are and calculations take their time. -/
theorem Settings.violation?_eq_none_iff {s : Settings α} :
    s.violation? = none ↔
      s.link.Sound ∧ s.learning.Passes ∧ s.routing.calculationInterval ≠ 0 := by
  rw [← LinkSettings.violation?_eq_none_iff, ← LearningSettings.violation?_eq_none_iff, violation?]
  cases s.link.violation? <;> cases s.learning.violation? <;> simp

end AdaptiveRouting
