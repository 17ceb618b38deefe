import AdaptiveRouting.Learning.CostModel
import AdaptiveRouting.Proofs.Quantity
import AdaptiveRouting.Proofs.Settings.Checks

/-!
# What training leaves in place

The learning rate never leaves its bounds, and the model counts as ready exactly when it has been
trained, until when it is the heuristic one (`CostModel.Sound`). Sound settings begin that way
(`CostModel.sound_untrained`), and neither a prediction nor a report changes it
(`CostModel.Sound.predictCost`, `CostModel.Sound.report`).

The rate is moved by a factor and then cut off at one bound only, the one that it moves towards.
That is enough because the factors move it away from the other bound (`RateArithmetic`), which is so
only for a positive rate; hence the least rate has to be positive.
-/

namespace AdaptiveRouting

/-- Arithmetic in which a learning rate can be kept between two bounds. Numbers are ordered
linearly, and what can be compared with anything is a number and at most itself; positive numbers
do not shrink under the factor that speeds learning up, nor grow under the one that slows it down.
Rounding to the nearest number keeps to that, as it is monotone and leaves numbers as they are. -/
class RateArithmetic (α : Type) [Scalar α] : Prop where
  le_trans {a b c : α} : a ≤ b → b ≤ c → a ≤ c
  lt_of_lt_of_le {a b c : α} : a < b → b ≤ c → a < c
  le_of_lt {a b : α} : a < b → a ≤ b
  /-- The lower end of a comparison is a number. -/
  left_le {a b : α} : a ≤ b → a ≤ a
  /-- The upper end of a comparison is a number. -/
  right_le {a b : α} : a ≤ b → b ≤ b
  /-- Of two numbers one is at most the other. -/
  le_of_not_lt {a b : α} : a ≤ a → b ≤ b → ¬ a < b → b ≤ a
  le_speedup {a : α} : 0.0 < a → a ≤ a * 1.1
  slowdown_le {a : α} : 0.0 < a → a * 0.9 ≤ a

instance : RateArithmetic Quantity where
  le_trans {a b c} hab hbc := by
    cases a <;> cases b <;> cases c <;> simp_all
    exact hab.trans hbc
  lt_of_lt_of_le {a b c} hab hbc := by
    cases a <;> cases b <;> cases c <;> simp_all
    exact hab.trans_le hbc
  le_of_lt {a b} hab := by
    cases a <;> cases b <;> simp_all
    exact hab.le
  left_le {a b} hab := by
    cases a <;> cases b <;> simp_all
  right_le {a b} hab := by
    cases a <;> cases b <;> simp_all
  le_of_not_lt {a b} ha hb hab := by
    cases a <;> cases b <;> simp_all
  le_speedup ha := by
    obtain ⟨x, hx, rfl⟩ := Quantity.zero_lt_iff.1 ha
    rw [Quantity.ofScientific_eq, Quantity.number_mul_number, Quantity.number_le_number]
    norm_num
    linarith
  slowdown_le ha := by
    obtain ⟨x, hx, rfl⟩ := Quantity.zero_lt_iff.1 ha
    rw [Quantity.ofScientific_eq, Quantity.number_mul_number, Quantity.number_le_number]
    norm_num
    linarith

open RateArithmetic

variable {α : Type} [Scalar α]

/-! ## Bounded rates -/

namespace Scalar

variable {a b low high : α}

/-- The smaller of two numbers keeps to a lower bound of both. -/
theorem le_lesser (ha : low ≤ a) (hb : low ≤ b) : low ≤ lesser a b := by
  unfold lesser
  split
  · exact ha
  · exact hb

/-- The larger of two numbers keeps to an upper bound of both. -/
theorem greater_le (ha : a ≤ high) (hb : b ≤ high) : greater a b ≤ high := by
  unfold greater
  split
  · exact ha
  · exact hb

variable [RateArithmetic α]

/-- The smaller of two is at most the second, if that is a number. -/
theorem lesser_le_right (hb : b ≤ b) : lesser a b ≤ b := by
  unfold lesser
  split
  · next h => exact le_of_lt (h.resolve_right (not_not_intro hb))
  · exact hb

/-- The larger of two is at least the second, if that is a number. -/
theorem right_le_greater (hb : b ≤ b) : b ≤ greater a b := by
  unfold greater
  split
  · next h => exact le_of_lt (h.resolve_right (not_not_intro hb))
  · exact hb

end Scalar

/-- Learning settings that pass the check and have a number for a learning rate: it lies within
positive bounds. -/
structure LearningSettings.Bounded (settings : LearningSettings α) : Prop where
  pos : 0.0 < settings.minLearningRate
  min_le_max : settings.minLearningRate ≤ settings.maxLearningRate
  min_le_rate : settings.minLearningRate ≤ settings.learningRate
  rate_le_max : settings.learningRate ≤ settings.maxLearningRate
  /-- The last error at least is averaged. -/
  errorWindow_pos : 0 < settings.errorWindow

/-- Settings that break no rule bound the learning rate, if it is a number. -/
theorem LearningSettings.bounded [RateArithmetic α] {settings : LearningSettings α}
    (hvalid : settings.violation? = none)
    (hnumber : settings.learningRate ≤ settings.learningRate) : settings.Bounded := by
  have hpasses := violation?_eq_none_iff.1 hvalid
  obtain ⟨hlow, hhigh⟩ := hpasses.learningRate
  exact
    { pos := hpasses.minLearningRate
      min_le_max := hpasses.rateBounds
      min_le_rate := le_of_not_lt hnumber (left_le hpasses.rateBounds) hlow
      rate_le_max := le_of_not_lt (right_le hpasses.rateBounds) hnumber hhigh
      errorWindow_pos := Nat.pos_of_ne_zero hpasses.errorWindow }

namespace CostModel

/-- What holds of a cost model whatever it has been through. -/
structure Sound (settings : LearningSettings α) (m : CostModel α) : Prop where
  settings_eq : m.settings = settings
  min_le_rate : settings.minLearningRate ≤ m.rate
  rate_le_max : m.rate ≤ settings.maxLearningRate
  ready_iff : m.ready = true ↔ 1 ≤ m.stats.modelUpdates
  /-- The two counters of training steps agree. -/
  modelUpdates_eq : m.stats.modelUpdates = m.model.updates
  untrained : m.stats.modelUpdates = 0 → m.model = .heuristic

variable {settings : LearningSettings α} {m : CostModel α}

/-- A new model is sound. -/
theorem sound_untrained (h : settings.Bounded) (now : Instant) :
    (untrained settings now).Sound settings where
  settings_eq := rfl
  min_le_rate := h.min_le_rate
  rate_le_max := h.rate_le_max
  ready_iff := by simp [CostModel.untrained]
  modelUpdates_eq := rfl
  untrained _ := rfl

/-- The adapted rate keeps to the bounds: it is cut off at the one that it is moved to, and what is
moved away from the other one stays beyond it. -/
theorem Sound.adaptedRate_mem [RateArithmetic α] (h : m.Sound settings)
    (hsettings : settings.Bounded) :
    settings.minLearningRate ≤ m.adaptedRate ∧ m.adaptedRate ≤ settings.maxLearningRate := by
  have hpos : 0.0 < m.rate := lt_of_lt_of_le hsettings.pos h.min_le_rate
  unfold adaptedRate
  rw [h.settings_eq]
  split
  · exact ⟨Scalar.le_lesser (le_trans h.min_le_rate (le_speedup hpos)) hsettings.min_le_max,
      Scalar.lesser_le_right (right_le hsettings.min_le_max)⟩
  split
  · exact ⟨Scalar.right_le_greater (left_le hsettings.min_le_max),
      Scalar.greater_le (le_trans (slowdown_le hpos) h.rate_le_max) hsettings.min_le_max⟩
  · exact ⟨h.min_le_rate, h.rate_le_max⟩

/-- Entering an error keeps a model sound. -/
theorem Sound.noteError (h : m.Sound settings) (error : α) : (m.noteError error).Sound settings :=
  { h with }

/-- So does learning from an example, as the rate is cut off at the bounds. -/
theorem Sound.train [RateArithmetic α] (h : m.Sound settings) (hsettings : settings.Bounded)
    (f : Features α) (actual : α) (now : Instant) : (m.train f actual now).Sound settings where
  settings_eq := h.settings_eq
  min_le_rate := (h.adaptedRate_mem hsettings).1
  rate_le_max := (h.adaptedRate_mem hsettings).2
  ready_iff := by simp [CostModel.train]
  modelUpdates_eq := congrArg (· + 1) h.modelUpdates_eq
  untrained hnone := absurd hnone (Nat.succ_ne_zero _)

/-- So does a prediction. -/
theorem Sound.predictCost (h : m.Sound settings) (clock : Clock) (neighbor : Name)
    (metrics : LinkMetrics α) : (m.predictCost clock neighbor metrics).2.Sound settings :=
  { h with }

/-- So does learning when it is due. -/
theorem Sound.learn [RateArithmetic α] (h : m.Sound settings) (hsettings : settings.Bounded)
    (f : Features α) (actual : α) (now : Instant) : (m.learn f actual now).Sound settings := by
  unfold CostModel.learn
  dsimp only
  split
  · exact (h.noteError _).train hsettings f actual now
  · exact h.noteError _

/-- A report enters its time slot before the model learns from it. -/
def noteReport (m : CostModel α) (clock : Clock) (neighbor : Name) (actual : α) : CostModel α :=
  { m with
    slots := m.slots.update neighbor clock.minuteOfDay actual clock.now
    stats.patternUpdates := m.stats.patternUpdates + 1 }

/-- So does a report. -/
theorem Sound.report [RateArithmetic α] (h : m.Sound settings) (hsettings : settings.Bounded)
    (clock : Clock) (neighbor : Name) (actual : α) :
    (m.report clock neighbor actual).Sound settings :=
  have hnoted : (m.noteReport clock neighbor actual).Sound settings := { h with }
  { hnoted.learn hsettings (m.features clock.minuteOfDay neighbor) actual clock.now with }

end CostModel

end AdaptiveRouting
