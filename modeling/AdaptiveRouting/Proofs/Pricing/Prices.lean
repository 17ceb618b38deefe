import AdaptiveRouting.Pricing.LoadAware
import AdaptiveRouting.Proofs.Learning.Books

/-!
# What the strategies charge

A load-aware price is cut off at the cap, which is a multiple of the configured cost, before it is
put in force; hence a price that is kept because the change is small or the price young has been cut
off as well (`LoadAware.Within`).

A learned price is not cut off. It is the configured cost with a share of it on top, which is the
score of the link and one at most (`CostModel.predictCost_eq`); and the model can be driven to any
score below one (`CostModel.exists_score`).
-/

namespace AdaptiveRouting

open Quantity (number undefined)

/-! ## Load-aware prices -/

namespace LoadAware

/-- The prices in force are within the cap, for neighbors that are configured to cost so much. -/
structure Within (k : ℝ) (configured : Name → ℝ) (s : LoadAware Quantity) : Prop where
  maxMultiplier : s.maxMultiplier = number k
  price {n : Name} {p : Price Quantity} : s.prices[n]? = some p →
    p.cost ≤ number (configured n * k)

variable {k : ℝ} {configured : Name → ℝ} {s : LoadAware Quantity} {n : Name}

/-- At first no price is in force. -/
theorem within_fresh (k : ℝ) (configured : Name → ℝ) : (fresh (number k)).Within k configured where
  maxMultiplier := rfl
  price h := by simp [fresh] at h

/-- Whatever the factors of a price are, it is cut off. -/
theorem undamped_le (hk : s.maxMultiplier = number k) (x : ℝ) (millis : Quantity)
    (samples : List Quantity) : s.undamped (number x) millis samples ≤ number (x * k) := by
  unfold undamped
  rw [hk, Quantity.number_mul_number]
  exact Scalar.lesser_le_right (Quantity.number_le_number.2 le_rfl)

/-- A price within the cap can be settled, and then all are within it. -/
theorem Within.settle (h : s.Within k configured) (now : Instant) {cost : Quantity}
    (hcost : cost ≤ number (configured n * k)) :
    (s.settle now n cost).1 ≤ number (configured n * k) ∧
      (s.settle now n cost).2.Within k configured := by
  have hreplaced : Within k configured { s with prices := s.prices.insert n ⟨cost, now⟩ } := by
    refine ⟨h.maxMultiplier, ?_⟩
    intro j p hp
    rw [Std.ExtTreeMap.getElem?_insert] at hp
    split at hp
    · next hj =>
      obtain rfl := Std.LawfulEqCmp.eq_of_compare hj
      cases hp
      exact hcost
    · exact h.price hp
  unfold LoadAware.settle
  dsimp only
  split
  · exact ⟨hcost, hreplaced⟩
  · next previous hprevious =>
    split
    · exact ⟨h.price hprevious, h⟩
    · exact ⟨hcost, hreplaced⟩

/-- A price keeps to the cap if there is a round-trip time; in any case the prices in force do. -/
theorem Within.price_le {metrics : LinkMetrics Quantity} (h : s.Within k configured) (now : Instant)
    (cost : Quantity) (hconfigured : metrics.configuredCost = number (configured n)) :
    (metrics.rtt ≠ none → (s.price now n cost metrics).1 ≤ number (configured n * k)) ∧
      (s.price now n cost metrics).2.Within k configured := by
  unfold LoadAware.price
  split
  · next hnone => exact ⟨fun hsome => absurd hnone hsome, h⟩
  · next rtt _ =>
    dsimp only
    rw [hconfigured]
    have hobserved : Within k configured
        { s with latencies := s.latencies.insert n (s.observed n rtt.wholeMillis) } :=
      ⟨h.maxMultiplier, h.price⟩
    obtain ⟨hle, hwithin⟩ := hobserved.settle now (undamped_le h.maxMultiplier (configured n)
      rtt.wholeMillis (s.observed n rtt.wholeMillis))
    exact ⟨fun _ => hle, hwithin⟩

end LoadAware

/-! ## Scores -/

/-- The logistic function of a number. -/
theorem logistic_number (z : ℝ) : logistic (number z) = number (1 / (1 + Real.exp (-z))) := by
  have hpos : 1 + Real.exp (-z) ≠ 0 := by positivity
  rw [logistic, Quantity.one_eq, Quantity.neg_number, Quantity.exp_number,
    Quantity.number_add_number, Quantity.number_div_number hpos]

/-- The logistic function has its values between zero and one. -/
theorem of_logistic {z : Quantity} {s : ℝ} (h : logistic z = number s) : 0 ≤ s ∧ s ≤ 1 := by
  cases z with
  | number x =>
    rw [logistic_number] at h
    obtain rfl := Quantity.number.inj h
    have hexp := Real.exp_pos (-x)
    refine ⟨by positivity, ?_⟩
    rw [div_le_one (by positivity)]
    linarith
  | undefined => cases h

/-- The score without a model is between 0 and 1. -/
theorem of_fallbackScore {f : Features Quantity} {s : ℝ} (h : fallbackScore f = number s) :
    0 ≤ s ∧ s ≤ 1 := by
  unfold fallbackScore Scalar.clamp at h
  rw [Quantity.zero_eq, Quantity.one_eq] at h
  split at h
  · obtain rfl := Quantity.number.inj h
    exact ⟨le_rfl, zero_le_one⟩
  next hlow =>
  split at h
  · obtain rfl := Quantity.number.inj h
    exact ⟨zero_le_one, le_rfl⟩
  next hhigh =>
  rw [h, Quantity.number_lt_number] at hlow hhigh
  exact ⟨not_lt.1 hlow, not_lt.1 hhigh⟩

namespace CostModel

variable {m : CostModel Quantity}

/-- The score of a model is between 0 and 1. -/
theorem of_score {f : Features Quantity} {s : ℝ} (h : m.score f = number s) : 0 ≤ s ∧ s ≤ 1 := by
  unfold score at h
  split at h
  · exact of_logistic h
  · exact of_fallbackScore h

/-- A learned price is the configured cost and a share of it on top. -/
theorem predictCost_eq {clock : Clock} {n : Name} {metrics : LinkMetrics Quantity} {x p : ℝ}
    (hconfigured : metrics.configuredCost = number x)
    (h : (m.predictCost clock n metrics).1 = number p) :
    ∃ s, m.score (m.features clock.minuteOfDay n) = number s ∧ 0 ≤ s ∧ s ≤ 1 ∧
      p = x * (1 + s) := by
  unfold predictCost at h
  dsimp only at h
  rw [hconfigured] at h
  cases hscore : m.score (m.features clock.minuteOfDay n) with
  | number s =>
    rw [hscore, Quantity.one_eq, Quantity.number_add_number, Quantity.number_mul_number] at h
    obtain ⟨hlow, hhigh⟩ := of_score hscore
    exact ⟨s, rfl, hlow, hhigh, (Quantity.number.inj h).symm⟩
  | undefined =>
    rw [hscore, Quantity.add_undefined, Quantity.mul_undefined] at h
    cases h

end CostModel

/-! ## What a report can do to a score -/

/-- Features that are numbers, as quantities. -/
def Features.exact (f : Features ℝ) : Features Quantity :=
  ⟨number f.trend, number f.variation, number f.success, number f.load, number f.temporal⟩

namespace LinearModel

/-- A model whose weights are numbers. -/
def exact (weights : Features ℝ) (bias : ℝ) (updates : Nat) : LinearModel Quantity :=
  ⟨weights.exact, number bias, updates⟩

variable (w f : Features ℝ) (b : ℝ) (updates : Nat)

/-- The weighted sum of the features. -/
def exactActivation : ℝ :=
  b + (w.trend * f.trend + w.variation * f.variation + w.success * f.success + w.load * f.load +
    w.temporal * f.temporal)

/-- What a model of numbers predicts from numbers. -/
theorem predict_exact : (exact w b updates).predict f.exact =
    number (1 / (1 + Real.exp (-exactActivation w f b))) := by
  rw [← logistic_number, predict, activation]
  simp [exact, Features.exact, Features.toList, Scalar.dot, Scalar.sum, exactActivation]

/-- A model of numbers takes a step along the gradient. -/
theorem update_exact (target rate p : ℝ) (hp : (exact w b updates).predict f.exact = number p) :
    (exact w b updates).update f.exact (number target) (number rate) =
      exact ⟨w.trend + rate * (target - p) * f.trend,
        w.variation + rate * (target - p) * f.variation,
        w.success + rate * (target - p) * f.success, w.load + rate * (target - p) * f.load,
        w.temporal + rate * (target - p) * f.temporal⟩ (b + rate * (target - p)) (updates + 1) := by
  unfold update
  rw [hp]
  simp [exact, Features.exact]

end LinearModel

/-- The logistic function comes as close to one as desired. -/
theorem lt_logistic {c z : ℝ} (hc : c < 1) (hz : 1 / (1 - c) ≤ z) :
    c < 1 / (1 + Real.exp (-z)) := by
  have hgap : 0 < 1 - c := sub_pos.2 hc
  have hpos := Real.exp_pos (-z)
  have hsmall : Real.exp (-z) < 1 - c := by
    have hlarge : 1 / (1 - c) < Real.exp z := hz.trans_lt (by linarith [Real.add_one_le_exp z])
    rw [Real.exp_neg, ← one_div]
    exact (one_div_lt (Real.exp_pos z) hgap).2 hlarge
  rw [lt_div_iff₀ (by linarith)]
  nlinarith

/-- The weights that a model begins with. -/
theorem LinearModel.heuristic_eq :
    (heuristic : LinearModel Quantity) = exact ⟨0.4, 0.3, 0.2, 0.1, 0.15⟩ 0 0 := by
  rw [heuristic, Quantity.zero_eq]
  rfl

namespace CostModel

open Learner.OneReport (violation?_standard)

/-- The standard settings bound the learning rate. -/
theorem bounded_standard : (LearningSettings.standard : LearningSettings Quantity).Bounded := by
  refine LearningSettings.bounded violation?_standard ?_
  rw [LearningSettings.standard, Quantity.ofScientific_eq, Quantity.number_le_number]

/-- The features of a neighbor whose round-trip times are not known, at a time of day at which its
performance is known. -/
theorem features_eq {m : CostModel Quantity} {minute : Nat} {n : Name} {t : ℝ}
    (hroundTrips : m.roundTripsTo n = []) (hslot : m.slots.feature n minute = number t)
    (ht : 0 ≤ t) : m.features minute n = Features.exact ⟨0, 0, 1 / 2, 0, min t 1⟩ := by
  have htemporal : Scalar.clamp (number t) 0.0 1.0 = number (min t 1) := by
    rw [Scalar.clamp, Quantity.zero_eq, Quantity.one_eq, if_neg (by simpa using ht)]
    split
    · next hone => rw [min_eq_right (Quantity.number_lt_number.1 hone).le]
    · next hone => rw [min_eq_left (by simpa using hone)]
  have hhalf : (0.5 : Quantity) = number (1 / 2) := by
    rw [Quantity.ofScientific_eq]
    norm_num
  rw [features, hroundTrips, hslot, Features.extract, htemporal]
  simp [Features.exact, Features.trendOf, Features.variationOf, Features.successOf, Features.loadOf,
    Quantity.zero_eq, hhalf]

/-- A report enters its performance into the slot of the minute. -/
theorem slots_report (m : CostModel Quantity) (clock : Clock) (n : Name) (actual : Quantity) :
    (m.report clock n actual).slots = m.slots.update n clock.minuteOfDay actual clock.now := by
  unfold report learn
  dsimp only
  split
  · rfl
  · rfl

/-- The first performance of a slot is taken over as it is. -/
theorem feature_update_empty (alpha : Quantity) (n : Name) (minute : Nat) (performance : Quantity)
    (now : Instant) :
    ((TimeSlots.empty alpha).update n minute performance now).feature n minute = performance := by
  simp [TimeSlots.feature, TimeSlots.slot?, TimeSlots.update, TimeSlots.empty, TimeSlots.report]

/-- The features of a neighbor of which nothing is known. -/
theorem features_untrained (settings : LearningSettings Quantity) (now : Instant) (minute : Nat)
    (n : Name) :
    (untrained settings now).features minute n = Features.exact ⟨0, 0, 1 / 2, 0, 1 / 2⟩ := by
  have hslot : (untrained settings now).slots.feature n minute = number (1 / 2) := by
    show (0.5 : Quantity) = number (1 / 2)
    rw [Quantity.ofScientific_eq]
    norm_num
  rw [features_eq (by simp [untrained, roundTripsTo]) hslot (by norm_num),
    min_eq_left (by norm_num)]

/-- The rate of learning is a number that is bounded from below. -/
theorem Sound.exists_rate {settings : LearningSettings Quantity} {m : CostModel Quantity}
    (h : m.Sound settings) (hsettings : settings.Bounded) {least : ℝ}
    (hleast : settings.minLearningRate = number least) :
    ∃ rate, m.adaptedRate = number rate ∧ least ≤ rate := by
  have hbound := (h.adaptedRate_mem hsettings).1
  rw [hleast] at hbound
  cases hrate : m.adaptedRate with
  | number rate => exact ⟨rate, rfl, by simpa [hrate] using hbound⟩
  | undefined => simp [hrate] at hbound

/-- A new model that has noted a report and its error would learn at some rate. -/
theorem exists_rate_noted (clock : Clock) (n : Name) (actual error : Quantity) :
    ∃ rate, (((untrained .standard clock.now).noteReport clock n actual).noteError
      error).adaptedRate = number rate ∧ 1 / 1000 ≤ rate := by
  have hreported : ((untrained .standard clock.now).noteReport clock n actual).Sound .standard :=
    { sound_untrained bounded_standard clock.now with }
  obtain ⟨rate, hrate, hleast⟩ :=
    (hreported.noteError error).exists_rate bounded_standard (show _ = number 0.001 from rfl)
  norm_num at hleast
  exact ⟨rate, hrate, hleast⟩

/-- Training is due if the error is large. -/
theorem isDue_of_large {m : CostModel Quantity} {threshold error : ℝ}
    (hthreshold : m.settings.adaptationThreshold = number threshold) (hlarge : threshold < error)
    (now : Instant) : m.isDue (number error) now = true := by
  rw [isDue, Bool.or_eq_true, hthreshold]
  exact .inl (decide_eq_true (Quantity.number_lt_number.2 hlarge))

/-- What an untrained model learns from a report of a bad performance: a step towards what was
reported, which is the longer the worse that was. -/
theorem exists_step (clock : Clock) (n : Name) {actual : ℝ} (hactual : 2 ≤ actual) :
    ∃ step, (actual - 1) / 1000 ≤ step ∧
      ((untrained .standard clock.now).report clock n (number actual)).ready = true ∧
      ((untrained .standard clock.now).report clock n (number actual)).model =
        .exact ⟨0.4, 0.3, 0.2 + step * (1 / 2), 0.1, 0.15 + step * (1 / 2)⟩ step 1 := by
  let m : CostModel Quantity := untrained .standard clock.now
  let f : Features ℝ := ⟨0, 0, 1 / 2, 0, 1 / 2⟩
  have hf : m.features clock.minuteOfDay n = f.exact := features_untrained ..
  have hmodel : m.model = .exact ⟨0.4, 0.3, 0.2, 0.1, 0.15⟩ 0 0 := LinearModel.heuristic_eq
  obtain ⟨p, hp⟩ : ∃ p, m.model.predict f.exact = number p :=
    ⟨_, hmodel ▸ LinearModel.predict_exact ..⟩
  obtain ⟨-, hp1⟩ := of_logistic hp
  have herror : m.errorOf clock n (number actual) = number (actual - p) := by
    rw [errorOf, hf, hp, Quantity.number_sub_number, Quantity.abs_number,
      abs_of_nonneg (by linarith)]
  have hdue : m.isDue (m.errorOf clock n (number actual)) clock.now = true := by
    rw [herror]
    refine isDue_of_large (show _ = number 0.2 from rfl) ?_ clock.now
    norm_num
    linarith
  let noted := (m.noteReport clock n (number actual)).noteError (m.errorOf clock n (number actual))
  have hlearnt : m.learnt clock n (number actual) =
      noted.train f.exact (number actual) clock.now := by
    rw [learnt_eq, if_pos hdue, hf]
  obtain ⟨rate, hrate, hleast⟩ : ∃ rate, noted.adaptedRate = number rate ∧ 1 / 1000 ≤ rate :=
    exists_rate_noted ..
  refine ⟨rate * (actual - p), ?_, ?_, ?_⟩
  · nlinarith
  · show (m.learnt clock n (number actual)).ready = true
    rw [hlearnt]
    rfl
  · show (m.learnt clock n (number actual)).model = _
    rw [hlearnt]
    show m.model.update f.exact (number actual) noted.adaptedRate = _
    rw [hrate, hmodel, LinearModel.update_exact _ _ _ _ _ _ _ (hmodel ▸ hp)]
    simp [f]

/-- One report of a performance that is bad enough drives the score of a neighbor beyond any number
below one. -/
theorem exists_score {c : ℝ} (hc : 0 ≤ c) (hc' : c < 1) (clock : Clock) (n : Name) :
    ∃ actual s : ℝ, c < s ∧
      let m := (untrained .standard clock.now).report clock n (number actual)
      m.score (m.features clock.minuteOfDay n) = number s := by
  have hgap : 1 ≤ 1 / (1 - c) := by
    rw [le_div_iff₀ (by linarith)]
    linarith
  obtain ⟨step, hstep, hready, hmodel⟩ :=
    exists_step clock n (show 2 ≤ 1 + 1000 * (1 / (1 - c)) by linarith)
  let m := (untrained .standard clock.now).report clock n (number (1 + 1000 * (1 / (1 - c))))
  have hfeatures : m.features clock.minuteOfDay n = Features.exact ⟨0, 0, 1 / 2, 0, 1⟩ := by
    have hroundTrips : m.roundTripsTo n = [] := by
      rw [roundTripsTo_report]
      simp [untrained, roundTripsTo]
    have hslot : m.slots.feature n clock.minuteOfDay = number (1 + 1000 * (1 / (1 - c))) := by
      rw [slots_report]
      exact feature_update_empty ..
    rw [features_eq hroundTrips hslot (by linarith), min_eq_right (by linarith)]
  -- The bad performance counts twice: in the features, and in the weights that have been trained on
  -- it.
  let z := LinearModel.exactActivation
    ⟨0.4, 0.3, 0.2 + step * (1 / 2), 0.1, 0.15 + step * (1 / 2)⟩ ⟨0, 0, 1 / 2, 0, 1⟩ step
  have hz : 1 / (1 - c) ≤ z := by
    simp only [z, LinearModel.exactActivation]
    linarith
  have hscore : m.score (m.features clock.minuteOfDay n) = number (1 / (1 + Real.exp (-z))) := by
    rw [score, if_pos hready, hmodel, hfeatures, LinearModel.predict_exact]
  exact ⟨_, _, lt_logistic hc' hz, hscore⟩

end CostModel

end AdaptiveRouting
