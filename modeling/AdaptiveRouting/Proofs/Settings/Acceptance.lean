import AdaptiveRouting.Proofs.Decimal.Comparisons
import AdaptiveRouting.Proofs.Settings.Checks
import AdaptiveRouting.Proofs.Settings.RoundTrip

/-!
# Which configurations are accepted

The rules ask for a sound configuration (`Settings.Sound`), but they do not quite enforce it: a
learning rate that is not a number is neither below nor above its bounds, and passes
(`Settings.accepted_iff`). The other rules name what is allowed instead of what is not, and refuse
whatever is not a number.
-/

namespace AdaptiveRouting

/-- Learning settings that keep to the rules. -/
structure LearningSettings.Sound (s : LearningSettings Float) : Prop where
  minLearningRate : 0.0 < s.minLearningRate
  learningRate : s.minLearningRate ≤ s.learningRate ∧ s.learningRate ≤ s.maxLearningRate
  temporalAlpha : 0.0 < s.temporalAlpha ∧ s.temporalAlpha ≤ 1.0
  roundTripCapacity : 10 ≤ s.roundTripCapacity
  errorWindow : 1 ≤ s.errorWindow

/-- A configuration that keeps to the rules. -/
structure Settings.Sound (s : Settings Float) : Prop where
  link : s.link.Sound
  learning : s.learning.Sound
  calculationInterval : s.routing.calculationInterval ≠ 0

/-- The same settings with another learning rate. -/
def LearningSettings.withRate (s : LearningSettings Float) (rate : Float) :
    LearningSettings Float :=
  { s with learningRate := rate }

/-- The same configuration with another learning rate. -/
def Settings.withRate (s : Settings Float) (rate : Float) : Settings Float :=
  { s with learning := s.learning.withRate rate }

/-- A rate between its bounds makes passing settings sound. -/
theorem LearningSettings.Passes.sound_withRate {s : LearningSettings Float} (h : s.Passes)
    {rate : Float} (hrate : s.minLearningRate ≤ rate ∧ rate ≤ s.maxLearningRate) :
    (s.withRate rate).Sound :=
  ⟨h.minLearningRate, hrate, h.temporalAlpha, h.roundTripCapacity, Nat.pos_of_ne_zero h.errorWindow⟩

/-- A rate that is not outside its bounds passes. -/
theorem LearningSettings.Sound.passes_withRate {s : LearningSettings Float} (h : s.Sound)
    {rate : Float} (hrate : ¬ rate < s.minLearningRate ∧ ¬ s.maxLearningRate < rate) :
    (s.withRate rate).Passes :=
  ⟨h.minLearningRate, Float.le_trans h.learningRate.1 h.learningRate.2, hrate, h.temporalAlpha,
    h.roundTripCapacity, Nat.ne_of_gt h.errorWindow⟩

/-- Learning settings break no rule if they keep to the rules or would do so, were it not for a
learning rate that is not a number. -/
theorem LearningSettings.passes_iff {s : LearningSettings Float} :
    s.Passes ↔ s.Sound ∨ s.learningRate.isNaN = true ∧ (s.withRate s.minLearningRate).Sound := by
  constructor
  · intro h
    obtain ⟨hlow, hhigh⟩ := h.learningRate
    obtain ⟨hleast, hgreatest⟩ := Float.isNaN_of_le h.rateBounds
    by_cases hnan : s.learningRate.isNaN = true
    · exact .inr ⟨hnan, h.sound_withRate ⟨Float.left_le h.rateBounds, h.rateBounds⟩⟩
    · have hmin := (Float.not_lt_iff.1 hlow).resolve_right (not_or.2 ⟨hnan, hleast⟩)
      have hmax := (Float.not_lt_iff.1 hhigh).resolve_right (not_or.2 ⟨hgreatest, hnan⟩)
      exact .inl (h.sound_withRate ⟨hmin, hmax⟩)
  · rintro (h | ⟨hnan, h⟩)
    · exact h.passes_withRate ⟨Float.not_lt_iff.2 (.inl h.learningRate.1),
        Float.not_lt_iff.2 (.inl h.learningRate.2)⟩
    · exact h.passes_withRate ⟨Float.not_lt_iff.2 (.inr (.inl hnan)),
        Float.not_lt_iff.2 (.inr (.inr hnan))⟩

/-- **Which configurations are accepted.** Those that keep to the rules are, and so are those that
would keep to them if their learning rate, which is not a number, were the least one; no others are.
A text is read as a configuration exactly if its document describes the configuration and that is
accepted. -/
theorem Settings.accepted_iff (s : Settings Float) :
    (s.violation? = none ↔ s.Sound ∨
      s.learning.learningRate.isNaN = true ∧ (s.withRate s.learning.minLearningRate).Sound) ∧
    ∀ text : String, Settings.parse text = .ok s ↔
      (Document.read? text).bind Settings.decode? = some s ∧ s.violation? = none := by
  constructor
  · rw [violation?_eq_none_iff, LearningSettings.passes_iff]
    constructor
    · rintro ⟨hlink, hlearning | ⟨hnan, hlearning⟩, hinterval⟩
      · exact .inl ⟨hlink, hlearning, hinterval⟩
      · exact .inr ⟨hnan, hlink, hlearning, hinterval⟩
    · rintro (⟨hlink, hlearning, hinterval⟩ | ⟨hnan, hlink, hlearning, hinterval⟩)
      · exact ⟨hlink, .inl hlearning, hinterval⟩
      · exact ⟨hlink, .inr ⟨hnan, hlearning⟩, hinterval⟩
  · intro text
    unfold parse
    split
    · next hread => simp [hread]
    next settings hread =>
    rw [hread, Option.some_inj]
    split
    · next violation hviolation =>
      refine ⟨(nomatch ·), fun ⟨heq, hnone⟩ => ?_⟩
      rw [heq, hnone] at hviolation
      cases hviolation
    · next hviolation =>
      refine ⟨fun h => ?_, fun ⟨heq, _⟩ => congrArg Except.ok heq⟩
      obtain rfl := Except.ok.inj h
      exact ⟨rfl, hviolation⟩

namespace Settings

/-- The standard configuration without a number for a learning rate. -/
def rateless : Settings Float := standard.withRate .nan

/-- It is not sound, and yet it is accepted and read back when it has been written. -/
theorem rateless_accepted : ¬ rateless.Sound ∧ rateless.violation? = none ∧
    Settings.parse rateless.render = .ok rateless := by
  have hsound : (rateless.withRate rateless.learning.minLearningRate).Sound := by
    exact ⟨⟨by decide, by decide, by decide, by decide, by decide, by decide, by decide⟩,
      ⟨by decide, by decide, by decide, by decide, by decide⟩, by decide⟩
  obtain ⟨haccepted, hparse⟩ := accepted_iff rateless
  have hnan : rateless.learning.learningRate.isNaN = true := by rfl
  have hviolation := haccepted.2 (.inr ⟨hnan, hsound⟩)
  have hwritable : rateless.Writable := ⟨by decide, by decide⟩
  refine ⟨fun h => ?_, hviolation, (hparse _).2 ⟨?_, hviolation⟩⟩
  · exact (Float.isNaN_of_le h.learning.learningRate.1).2 hnan
  · rw [read?_render hwritable, Option.bind_some, decode?_groups hwritable]

end Settings

end AdaptiveRouting
