import AdaptiveRouting.Link.Performance
import AdaptiveRouting.Proofs.Statistics
import AdaptiveRouting.Proofs.Windows
import Mathlib.Tactic.Linarith

/-!
# Performance scores in exact arithmetic

The score of a latency climbs through its bands, each of which begins where the one before ends
(`latencyScore_number`); so it never falls, and the score of missed hellos does not either. All
partial scores lie between 0 and 1, and so does their weighted sum, which is therefore the score as
it is: there is nothing to cut off (`score_eq`).

Jitter and trend are ratios. They do not depend on the unit of measurement, as long as no sample is
cut down to whole milliseconds (`stabilityScore_scaled`, `trendScore_scaled`). All of this together
is `score_graded`.
-/

namespace AdaptiveRouting.Performance

open Quantity (number Between)

/-! ## Latency -/

/-- Climbs from 0 to 1 between two borders. -/
noncomputable def ramp (low high x : ℝ) : ℝ := max 0 (min 1 ((x - low) / (high - low)))

section
variable {low high x : ℝ}

/-- A ramp is at least zero. -/
theorem ramp_nonneg : 0 ≤ ramp low high x := le_max_left _ _

/-- A ramp is at most one. -/
theorem ramp_le_one : ramp low high x ≤ 1 := max_le zero_le_one (min_le_left _ _)

/-- A ramp does not fall. -/
theorem monotone_ramp (h : low < high) : Monotone (ramp low high) := by
  intro x y hxy
  have hwidth : 0 ≤ high - low := sub_nonneg.2 h.le
  unfold ramp
  gcongr

/-- Below its range a ramp is zero. -/
theorem ramp_of_le (h : low < high) (hx : x ≤ low) : ramp low high x = 0 := by
  have hpos : (x - low) / (high - low) ≤ 0 :=
    div_nonpos_of_nonpos_of_nonneg (sub_nonpos.2 hx) (sub_nonneg.2 h.le)
  exact max_eq_left ((min_le_right _ _).trans hpos)

/-- From the start of its range on a ramp climbs until it is one. -/
theorem ramp_of_low_le (h : low < high) (hx : low ≤ x) :
    ramp low high x = min 1 ((x - low) / (high - low)) := by
  have hpos : 0 ≤ (x - low) / (high - low) := div_nonneg (sub_nonneg.2 hx) (sub_nonneg.2 h.le)
  exact max_eq_right (le_min zero_le_one hpos)

/-- In its range a ramp climbs evenly. -/
theorem ramp_of_mem (h : low < high) (hlow : low ≤ x) (hhigh : x ≤ high) :
    ramp low high x = (x - low) / (high - low) := by
  rw [ramp_of_low_le h hlow]
  exact min_eq_right ((div_le_one (sub_pos.2 h)).2 (sub_le_sub_right hhigh low))

/-- Above its range a ramp is one. -/
theorem ramp_of_high_le (h : low < high) (hx : high ≤ x) : ramp low high x = 1 := by
  rw [ramp_of_low_le h (h.le.trans hx)]
  exact min_eq_left ((one_le_div (sub_pos.2 h)).2 (sub_le_sub_right hx low))

end

/-- The score of a latency, as it climbs through the bands. -/
noncomputable def latency (x : ℝ) : ℝ :=
  0.3 * ramp 10.0 50.0 x + 0.3 * ramp 50.0 100.0 x + 0.3 * ramp 100.0 200.0 x +
    0.1 * ramp 200.0 1000.0 x

/-- The latency score in fractions. -/
theorem latency_eq (x : ℝ) : latency x =
    3 / 10 * ramp 10 50 x + 3 / 10 * ramp 50 100 x + 3 / 10 * ramp 100 200 x +
      1 / 10 * ramp 200 1000 x := by
  norm_num [latency]

/-- A higher latency scores no lower. -/
theorem monotone_latency : Monotone latency := by
  intro x y h
  have hfirst := monotone_ramp (by norm_num : (10 : ℝ) < 50) h
  have hsecond := monotone_ramp (by norm_num : (50 : ℝ) < 100) h
  have hthird := monotone_ramp (by norm_num : (100 : ℝ) < 200) h
  have hlast := monotone_ramp (by norm_num : (200 : ℝ) < 1000) h
  rw [latency_eq, latency_eq]
  linarith

/-- The score of a latency is between 0 and 1. -/
theorem latency_mem (x : ℝ) : latency x ∈ Set.Icc 0 1 := by
  have hnonneg : ∀ low high : ℝ, 0 ≤ ramp low high x := fun _ _ => ramp_nonneg
  have hle : ∀ low high : ℝ, ramp low high x ≤ 1 := fun _ _ => ramp_le_one
  rw [latency_eq]
  constructor
  · linarith [hnonneg 10 50, hnonneg 50 100, hnonneg 100 200, hnonneg 200 1000]
  · linarith [hle 10 50, hle 50 100, hle 100 200, hle 200 1000]

/-- The score is computed band by band. -/
theorem latencyScore_bands (x : ℝ) : latencyScore (number x) = number (
    if x ≤ 10 then 0
    else if x ≤ 50 then (x - 10) / 40 * (3 / 10)
    else if x ≤ 100 then 3 / 10 + (x - 50) / 50 * (3 / 10)
    else if x ≤ 200 then 6 / 10 + (x - 100) / 100 * (3 / 10)
    else 9 / 10 + min (1 / 10) ((x - 200) / 800 * (1 / 10))) := by
  unfold latencyScore
  simp (disch := norm_num) only [Quantity.ofScientific_eq, Quantity.number_le_number,
    Quantity.number_sub_number, Quantity.number_div_number, Quantity.number_mul_number,
    Quantity.number_add_number, Quantity.lesser_number]
  norm_num
  split_ifs <;> rfl

/-- Each band begins where the one before ends. -/
theorem latencyScore_number (x : ℝ) : latencyScore (number x) = number (latency x) := by
  rw [latencyScore_bands]
  congr 1
  rw [latency_eq]
  split_ifs with hten hfifty hhundred htwohundred
  · rw [ramp_of_le, ramp_of_le, ramp_of_le, ramp_of_le] <;> linarith
  · rw [ramp_of_mem, ramp_of_le, ramp_of_le, ramp_of_le] <;> linarith
  · rw [ramp_of_high_le, ramp_of_mem, ramp_of_le, ramp_of_le] <;> linarith
  · rw [ramp_of_high_le, ramp_of_high_le, ramp_of_mem, ramp_of_le] <;> linarith
  · have hlast : 1 / 10 * min 1 ((x - 200) / (1000 - 200)) =
        min (1 / 10) ((x - 200) / 800 * (1 / 10)) := by
      rw [mul_min_of_nonneg _ _ (by norm_num : (0 : ℝ) ≤ 1 / 10)]
      norm_num
      ring_nf
    rw [ramp_of_high_le, ramp_of_high_le, ramp_of_high_le, ramp_of_low_le, hlast] <;> linarith

/-! ## Missed hellos -/

/-- The score of some missed hellos. -/
noncomputable def reliability (timeouts : ℕ) : ℝ :=
  if timeouts = 0 then 0 else if timeouts ≤ 2 then 0.2 else if timeouts ≤ 5 then 0.5 else 0.8

/-- The score of missed hellos in exact arithmetic. -/
theorem reliabilityScore_number (timeouts : ℕ) :
    reliabilityScore timeouts = number (reliability timeouts) := by
  unfold reliabilityScore reliability
  split_ifs
  · exact Quantity.zero_eq
  all_goals exact Quantity.ofScientific_eq ..

/-- More missed hellos score no lower. -/
theorem monotone_reliability : Monotone reliability := by
  intro s t h
  unfold reliability
  split_ifs <;> norm_num <;> omega

/-- The score of missed hellos is between 0 and 1. -/
theorem reliability_mem (timeouts : ℕ) : reliability timeouts ∈ Set.Icc 0 1 := by
  unfold reliability
  split_ifs <;> constructor <;> norm_num

/-! ## Jitter -/

/-- The score of a variation is between 0 and 1. -/
theorem between_variationScore {v : ℝ} (h : 0 ≤ v) : Between 0 1 (variationScore (number v)) := by
  have hbands : variationScore (number v) = number (
      if v ≤ 1 / 10 then 0
      else if v ≤ 3 / 10 then v / (3 / 10) * (2 / 5)
      else 2 / 5 + min (3 / 5) ((v - 3 / 10) / (7 / 10) * (3 / 5))) := by
    unfold variationScore
    simp (disch := norm_num) only [Quantity.ofScientific_eq, Quantity.number_le_number,
      Quantity.number_sub_number, Quantity.number_div_number, Quantity.number_mul_number,
      Quantity.number_add_number, Quantity.lesser_number]
    norm_num
    split_ifs <;> rfl
  refine ⟨_, hbands, ?_⟩
  split_ifs with hlow hmiddle
  · exact ⟨le_rfl, zero_le_one⟩
  · constructor
    · positivity
    · linarith
  · have hcap : min (3 / 5) ((v - 3 / 10) / (7 / 10) * (3 / 5)) ≤ 3 / 5 := min_le_left _ _
    have hpos : 0 ≤ min (3 / 5) ((v - 3 / 10) / (7 / 10) * (3 / 5)) := by
      refine le_min (by norm_num) ?_
      linarith
    constructor <;> linarith

/-- Samples in whole milliseconds. -/
theorem map_wholeMillis (samples : List Duration) :
    samples.map Duration.wholeMillis =
      (samples.map fun d => ((d / 1000000 : ℕ) : ℝ)).map number := by
  rw [List.map_map]
  rfl

/-- So is the score of a history's variation. -/
theorem between_stabilityScore (history : List Duration) :
    Between 0 1 (stabilityScore history) := by
  unfold stabilityScore
  split
  · exact Quantity.between_literal (by norm_num) (by norm_num)
  · rw [map_wholeMillis]
    rcases variation?_number ((latest 5 history).map fun d => ((d / 1000000 : ℕ) : ℝ)) with
      hnone | ⟨v, hpos, hv⟩
    · rw [hnone, Option.getD_none, Quantity.zero_eq]
      exact between_variationScore le_rfl
    · rw [hv, Option.getD_some]
      exact between_variationScore hpos

/-! ## Trend -/

/-- The score of a change is between 0 and 1, even if the change is undefined. -/
theorem between_changeScore (change : Quantity) : Between 0 1 (changeScore change) := by
  unfold changeScore
  split_ifs <;> exact Quantity.between_literal (by norm_num) (by norm_num)

/-- So is the score of a history's trend. -/
theorem between_trendScore (history : List Duration) : Between 0 1 (trendScore history) := by
  unfold trendScore
  dsimp only
  split_ifs
  · exact Quantity.between_zero le_rfl zero_le_one
  · exact Quantity.between_zero le_rfl zero_le_one
  · exact between_changeScore _

/-! ## The score -/

/-- The weighted sum of the four scores, in exact arithmetic. -/
theorem blend_number {history : List Duration} {stability trend : ℝ}
    (hstability : stabilityScore history = number stability)
    (htrend : trendScore history = number trend) (rtt : Duration) (timeouts : ℕ) :
    blend rtt history timeouts = number (2 / 5 * latency ((rtt / 1000000 : ℕ) : ℝ) +
      1 / 4 * stability + 1 / 5 * reliability timeouts + 3 / 20 * trend) := by
  have hrtt : latencyScore (rtt.wholeMillis : Quantity) =
    number (latency ((rtt / 1000000 : ℕ) : ℝ)) := latencyScore_number _
  rw [blend, hrtt, hstability, htrend, reliabilityScore_number]
  simp only [Quantity.ofScientific_eq, Quantity.number_mul_number, Quantity.number_add_number]
  norm_num

/-- The weights add up to one. -/
theorem between_blend (rtt : Duration) (history : List Duration) (timeouts : ℕ) :
    Between 0 1 (blend rtt history timeouts) := by
  obtain ⟨stability, hstability, hstability₀, hstability₁⟩ := between_stabilityScore history
  obtain ⟨trend, htrend, htrend₀, htrend₁⟩ := between_trendScore history
  obtain ⟨hlatency₀, hlatency₁⟩ := latency_mem ((rtt / 1000000 : ℕ) : ℝ)
  obtain ⟨hreliability₀, hreliability₁⟩ := reliability_mem timeouts
  refine ⟨_, blend_number hstability htrend rtt timeouts, ?_, ?_⟩ <;> linarith

/-- There is nothing to cut off from the weighted sum. -/
theorem score_eq (rtt : Duration) (history : List Duration) (timeouts : ℕ) :
    score rtt history timeouts = (blend rtt history timeouts : Quantity) := by
  obtain ⟨x, hx, hlow, hhigh⟩ := between_blend rtt history timeouts
  rw [score, hx, Scalar.clamp, Quantity.zero_eq, Quantity.one_eq,
    if_neg (Quantity.number_lt_number.not.2 (not_lt.2 hlow)),
    if_neg (Quantity.number_lt_number.not.2 (not_lt.2 hhigh))]

/-- A longer round-trip time and more missed hellos score no lower. -/
theorem score_mono {rtt rtt' : Duration} {timeouts timeouts' : ℕ} (history : List Duration)
    (hrtt : rtt ≤ rtt') (htimeouts : timeouts ≤ timeouts') :
    (score rtt history timeouts : Quantity) ≤ score rtt' history timeouts' := by
  obtain ⟨stability, hstability, -⟩ := between_stabilityScore history
  obtain ⟨trend, htrend, -⟩ := between_trendScore history
  have hmillis : ((rtt / 1000000 : ℕ) : ℝ) ≤ ((rtt' / 1000000 : ℕ) : ℝ) :=
    Nat.cast_le.2 (Nat.div_le_div_right hrtt)
  have hlatency := monotone_latency hmillis
  have hreliability := monotone_reliability htimeouts
  rw [score_eq, score_eq, blend_number hstability htrend, blend_number hstability htrend,
    Quantity.number_le_number]
  linarith

/-! ## Other units -/

/-- Histories of whole milliseconds are scaled as the numbers are. -/
theorem map_wholeMillis_scaled (k : ℕ) (millis : List ℕ) :
    ((millis.map Duration.ofMillis).map (k * ·)).map Duration.wholeMillis =
      ((millis.map fun n : ℕ => (n : ℝ)).map ((k : ℝ) * ·)).map number := by
  rw [List.map_map, List.map_map, List.map_map, List.map_map]
  refine List.map_congr_left fun n _ => ?_
  show number ((k * (n * 1000000) / 1000000 : ℕ) : ℝ) = number (k * n)
  rw [← Nat.mul_assoc, Nat.mul_div_cancel _ (by decide), Nat.cast_mul]

/-- Whole milliseconds are the numbers that they were made of. -/
theorem map_wholeMillis_ofMillis (millis : List ℕ) :
    (millis.map Duration.ofMillis).map Duration.wholeMillis =
      (millis.map fun n : ℕ => (n : ℝ)).map number := by
  rw [List.map_map, List.map_map]
  refine List.map_congr_left fun n _ => ?_
  show number ((n * 1000000 / 1000000 : ℕ) : ℝ) = number n
  rw [Nat.mul_div_cancel _ (by decide)]

/-- The variation of a history does not depend on its scale. -/
theorem stabilityScore_scaled {k : ℕ} (hk : 0 < k) (millis : List ℕ) :
    (stabilityScore ((millis.map Duration.ofMillis).map (k * ·)) : Quantity) =
      stabilityScore (millis.map Duration.ofMillis) := by
  unfold stabilityScore
  rw [List.length_map, latest_map, latest_map, map_wholeMillis_scaled, map_wholeMillis_ofMillis,
    variation?_scaled (Nat.cast_pos.2 hk)]

/-- The average of three samples in exact arithmetic. -/
theorem averageOfThree_number {samples : List Duration} {xs : List ℝ}
    (h : samples.map Duration.wholeMillis = xs.map number) :
    averageOfThree samples = number (xs.sum / 3) := by
  have hthree : (3.0 : Quantity) = number 3 := by
    rw [Quantity.ofScientific_eq]
    norm_num
  rw [averageOfThree, h, Scalar.sum_number, hthree, Quantity.number_div_number (by norm_num)]

/-- The average of scaled samples is a multiple of their average. -/
theorem exists_averageOfThree (k : ℕ) (window : List ℕ) : ∃ x : ℝ,
    averageOfThree (window.map Duration.ofMillis) = number x ∧
    averageOfThree ((window.map Duration.ofMillis).map (k * ·)) = number (k * x) := by
  refine ⟨_, averageOfThree_number (map_wholeMillis_ofMillis window), ?_⟩
  rw [averageOfThree_number (map_wholeMillis_scaled k window), List.sum_map_mul_left, List.map_id',
    mul_div_assoc]

/-- Neither does the trend of a history. -/
theorem trendScore_scaled {k : ℕ} (hk : 0 < k) (millis : List ℕ) :
    (trendScore ((millis.map Duration.ofMillis).map (k * ·)) : Quantity) =
      trendScore (millis.map Duration.ofMillis) := by
  obtain ⟨recent, hrecent, hrecent'⟩ := exists_averageOfThree k (latest 3 millis)
  obtain ⟨previous, hprevious, hprevious'⟩ := exists_averageOfThree k ((latest 6 millis).take 3)
  have hpos : (0 : ℝ) < k := Nat.cast_pos.2 hk
  have hsign : k * previous ≤ 0 ↔ previous ≤ 0 := by
    rw [← not_lt, ← not_lt, mul_pos_iff_of_pos_left hpos]
  unfold trendScore
  dsimp only
  simp only [List.length_map, latest_map, ← List.map_take, hrecent, hrecent', hprevious,
    hprevious', Quantity.zero_eq, Quantity.number_le_number, Quantity.number_sub_number, hsign]
  split_ifs with hshort hzero
  · rfl
  · rfl
  · have hne : previous ≠ 0 := (not_le.1 hzero).ne'
    rw [Quantity.number_div_number hne, Quantity.number_div_number (mul_ne_zero hpos.ne' hne),
      ← mul_sub, mul_div_mul_left _ _ hpos.ne']

/-- **A score is graded.** All partial scores and their weighted sum lie between 0 and 1, so that
the score is the weighted sum. It does not fall with a longer round-trip time or with more missed
hellos, and jitter and trend are the same for a history of whole milliseconds and for any multiple
of it. -/
theorem score_graded (rtt : Duration) (history : List Duration) (timeouts : ℕ) :
    (Between 0 1 (latencyScore rtt.wholeMillis) ∧ Between 0 1 (stabilityScore history) ∧
      Between 0 1 (reliabilityScore timeouts) ∧ Between 0 1 (trendScore history)) ∧
    (Between 0 1 (blend rtt history timeouts) ∧
      score rtt history timeouts = (blend rtt history timeouts : Quantity)) ∧
    (∀ rtt', rtt ≤ rtt' →
      (score rtt history timeouts : Quantity) ≤ score rtt' history timeouts) ∧
    (∀ timeouts', timeouts ≤ timeouts' →
      (score rtt history timeouts : Quantity) ≤ score rtt history timeouts') ∧
    ∀ (k : ℕ) (millis : List ℕ), 0 < k → history = millis.map Duration.ofMillis →
      (stabilityScore (history.map (k * ·)) : Quantity) = stabilityScore history ∧
      (trendScore (history.map (k * ·)) : Quantity) = trendScore history := by
  refine ⟨⟨?_, between_stabilityScore history, ?_, between_trendScore history⟩,
    ⟨between_blend rtt history timeouts, score_eq rtt history timeouts⟩, ?_, ?_, ?_⟩
  · exact ⟨_, latencyScore_number _, latency_mem _⟩
  · exact ⟨_, reliabilityScore_number timeouts, reliability_mem timeouts⟩
  · intro rtt' h
    exact score_mono history h le_rfl
  · intro timeouts' h
    exact score_mono history le_rfl h
  · rintro k millis hk rfl
    exact ⟨stabilityScore_scaled hk millis, trendScore_scaled hk millis⟩

/-- A link that grows slower, in milliseconds. -/
def slowdown : List ℕ := [40, 50, 45, 60, 80, 130]

/-- The same history in units of 3 ms. -/
theorem score_graded_slowdown : Duration.ofMillis 130 ≤ Duration.ofMillis 700 ∧ 1 ≤ 4 ∧ 0 < 3 ∧
    Between 0 1 (blend (.ofMillis 130) (slowdown.map Duration.ofMillis) 1) ∧
    (score (.ofMillis 130) (slowdown.map Duration.ofMillis) 1 : Quantity) ≤
      score (.ofMillis 700) (slowdown.map Duration.ofMillis) 1 ∧
    (score (.ofMillis 130) (slowdown.map Duration.ofMillis) 1 : Quantity) ≤
      score (.ofMillis 130) (slowdown.map Duration.ofMillis) 4 ∧
    (stabilityScore ((slowdown.map Duration.ofMillis).map (3 * ·)) : Quantity) =
      stabilityScore (slowdown.map Duration.ofMillis) ∧
    (trendScore ((slowdown.map Duration.ofMillis).map (3 * ·)) : Quantity) =
      trendScore (slowdown.map Duration.ofMillis) := by
  have hrtt : Duration.ofMillis 130 ≤ Duration.ofMillis 700 := by decide
  obtain ⟨-, ⟨hblend, -⟩, hlonger, hmissed, hscaled⟩ :=
    score_graded (.ofMillis 130) (slowdown.map Duration.ofMillis) 1
  have hthree := hscaled 3 slowdown (by decide) rfl
  exact ⟨hrtt, by decide, by decide, hblend, hlonger _ hrtt, hmissed 4 (by decide), hthree.1,
    hthree.2⟩

end AdaptiveRouting.Performance
