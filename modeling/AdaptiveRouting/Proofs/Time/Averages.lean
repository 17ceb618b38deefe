import AdaptiveRouting.Time.Duration
import Mathlib.Data.List.Forall2

/-!
# Sums and averages of durations

An average in whole nanoseconds lies between the least and the greatest sample
(`Duration.average?_bounds`). It does not fall when the samples grow (`Duration.average?_mono`), nor
when a sample joins them that is not below it (`Duration.average?_concat`): what the quotient leaves
out is always less than what the new sample adds.
-/

namespace AdaptiveRouting.Duration

variable {samples samples' : List Duration} {average : Duration}

/-- One more sample adds to the total. -/
theorem total_concat (samples : List Duration) (d : Duration) :
    total (samples ++ [d]) = total samples + d := by
  induction samples with
  | nil => exact Nat.add_comm d 0
  | cons x rest ih => rw [List.cons_append, total, total, ih, Nat.add_assoc]

/-- The total is at least the least sample as many times as there are samples. -/
theorem length_mul_le_total {low : Duration} (h : ∀ x ∈ samples, low ≤ x) :
    samples.length * low ≤ total samples := by
  induction samples with
  | nil => simp [total]
  | cons x rest ih =>
    obtain ⟨hx, hrest⟩ := List.forall_mem_cons.1 h
    rw [total, List.length_cons, Nat.succ_mul, Nat.add_comm]
    exact Nat.add_le_add hx (ih hrest)

/-- The total is at most the greatest sample as many times as there are samples. -/
theorem total_le_length_mul {high : Duration} (h : ∀ x ∈ samples, x ≤ high) :
    total samples ≤ samples.length * high := by
  induction samples with
  | nil => simp [total]
  | cons x rest ih =>
    obtain ⟨hx, hrest⟩ := List.forall_mem_cons.1 h
    rw [total, List.length_cons, Nat.succ_mul, Nat.add_comm]
    exact Nat.add_le_add (ih hrest) hx

/-- The total grows with the samples. -/
theorem total_mono (h : List.Forall₂ (· ≤ ·) samples samples') :
    total samples ≤ total samples' := by
  induction h with
  | nil => exact Nat.le_refl _
  | cons hx _ ih => exact Nat.add_le_add hx ih

/-- The average is the total through the number of samples, rounded down. -/
theorem average?_of_ne_nil (h : samples ≠ []) :
    average? samples = some (total samples / samples.length) := if_neg h

/-- An average lies between the least and the greatest sample. -/
theorem average?_bounds (h : average? samples = some average) : ∃ low high,
    samples.min? = some low ∧ samples.max? = some high ∧ low ≤ average ∧ average ≤ high := by
  unfold average? at h
  split at h
  · cases h
  next hne =>
  cases h
  obtain ⟨low, hlow⟩ := Option.isSome_iff_exists.1 (List.isSome_min?_of_ne_nil hne)
  obtain ⟨high, hhigh⟩ := Option.isSome_iff_exists.1 (List.isSome_max?_of_ne_nil hne)
  have hpos : 0 < samples.length := List.length_pos_of_ne_nil hne
  refine ⟨low, high, hlow, hhigh, (Nat.le_div_iff_mul_le hpos).2 ?_, ?_⟩
  · rw [Nat.mul_comm]
    exact length_mul_le_total (List.min?_eq_some_iff.1 hlow).2
  · exact Nat.div_le_of_le_mul (total_le_length_mul (List.max?_eq_some_iff.1 hhigh).2)

/-- Samples that are greater one by one have no smaller average. -/
theorem average?_mono (hne : samples ≠ []) (h : List.Forall₂ (· ≤ ·) samples samples') :
    ∃ average average', average? samples = some average ∧ average? samples' = some average' ∧
      average ≤ average' := by
  have hlength : samples.length = samples'.length := h.length_eq
  have hne' : samples' ≠ [] := by
    intro hnil
    rw [hnil, List.length_nil, List.length_eq_zero_iff] at hlength
    exact hne hlength
  refine ⟨_, _, average?_of_ne_nil hne, average?_of_ne_nil hne', ?_⟩
  rw [hlength]
  exact Nat.div_le_div_right (total_mono h)

/-- One more sample that is not below the average does not lower it. -/
theorem average?_concat {d : Duration} (h : average? samples = some average) (hd : average ≤ d) :
    ∃ average', average? (samples ++ [d]) = some average' ∧ average ≤ average' := by
  have hne : samples ≠ [] := by
    rintro rfl
    cases h
  rw [average?_of_ne_nil hne, Option.some_inj] at h
  refine ⟨_, average?_of_ne_nil (List.append_ne_nil_of_right_ne_nil _ (List.cons_ne_nil d [])), ?_⟩
  have hlength : (samples ++ [d]).length = samples.length + 1 := by simp
  have hbelow : average * samples.length ≤ total samples := by
    rw [← h]
    exact Nat.div_mul_le_self _ _
  rw [hlength, total_concat, Nat.le_div_iff_mul_le (Nat.succ_pos _), Nat.mul_succ]
  exact Nat.add_le_add hbelow hd

end AdaptiveRouting.Duration
