import AdaptiveRouting.Proofs.Learning.Training
import AdaptiveRouting.Proofs.Windows

/-!
# The books of the cost model

The bounded histories of the cost model and its counters are kept one call at a time, and they
always agree with what a reader finds who goes over all calls from the beginning (`books_balance`).

A `Learner` is the model together with the clock that it reads, and it is driven by calls
(`LearningCall`). The calls of a run, each with the learner that it met, make up its transcript, and
a transcript says what should be in the books: the round-trip times that the predictions for a
neighbor brought, the reports about it, the errors of all reports, and how many calls there were of
each kind (`Transcript.samples`, `Transcript.records`, `Transcript.errors`). A model is `Balanced`
against a transcript when its histories are the last entries of these lists. One call keeps the
balance (`Balanced.apply`), since a window of a window that has grown is a window of the whole
(`latest_latest_append`), and so does a run (`Balanced.run`).
-/

namespace AdaptiveRouting

/-! ## Lists and maps -/

/-- One more entry counts if it satisfies the condition. -/
theorem countP_concat {β : Type} (p : β → Bool) (xs : List β) (x : β) :
    (xs ++ [x]).countP p = xs.countP p + (p x).toNat := by
  rw [List.countP_append]
  cases h : p x <;> simp [h]

/-- The entry of one name is replaced. -/
theorem getD_insert {β : Type} (map : NameMap (List β)) (n k : Name) (xs : List β) :
    ((map.insert n xs)[k]?).getD [] = if n = k then xs else (map[k]?).getD [] := by
  rw [Std.ExtTreeMap.getElem?_insert]
  simp only [Std.compare_eq_iff_eq]
  split <;> rfl

variable {α : Type} [Scalar α]

/-- A mean of something needs no value to fall back on. -/
theorem mean?_of_ne_nil {xs : List α} (h : xs ≠ []) (fallback fallback' : α) :
    (mean? xs).getD fallback = (mean? xs).getD fallback' := by
  cases xs with
  | nil => exact absurd rfl h
  | cons x xs => rfl

/-! ## What a call writes down -/

namespace CostModel

/-- How far the model is off in the eyes of a report. -/
def errorOf (m : CostModel α) (clock : Clock) (neighbor : Name) (actual : α) : α :=
  Scalar.abs (actual - m.model.predict (m.features clock.minuteOfDay neighbor))

/-- The record of a report, with what the model says after having learnt from it. -/
def recordOf (m : CostModel α) (clock : Clock) (neighbor : Name) (actual : α) :
    PerformanceRecord α where
  predicted :=
    (m.report clock neighbor actual).model.predict (m.features clock.minuteOfDay neighbor)
  actual := actual
  timestamp := clock.now

/-- The model that has learnt from a report and has yet to record it. -/
def learnt (m : CostModel α) (clock : Clock) (neighbor : Name) (actual : α) : CostModel α :=
  (m.noteReport clock neighbor actual).learn (m.features clock.minuteOfDay neighbor) actual
    clock.now

section Calls

variable (m : CostModel α) (clock : Clock) (neighbor other : Name) (actual : α)

/-- Whether a report is learnt from does not depend on what is written down first. -/
theorem learnt_eq :
    m.learnt clock neighbor actual =
      let noted := (m.noteReport clock neighbor actual).noteError (m.errorOf clock neighbor actual)
      if m.isDue (m.errorOf clock neighbor actual) clock.now then
        noted.train (m.features clock.minuteOfDay neighbor) actual clock.now
      else noted := rfl

/-- Learning changes none of the settings, round-trip times, records and predictions, and counts one
report. -/
theorem learnt_frame :
    (m.learnt clock neighbor actual).settings = m.settings ∧
    (m.learnt clock neighbor actual).roundTrips = m.roundTrips ∧
    (m.learnt clock neighbor actual).records = m.records ∧
    (m.learnt clock neighbor actual).stats.predictions = m.stats.predictions ∧
    (m.learnt clock neighbor actual).stats.patternUpdates = m.stats.patternUpdates + 1 := by
  rw [learnt_eq]
  split <;> exact ⟨rfl, rfl, rfl, rfl, rfl⟩

/-- Learning enters the error of the report among the latest ones. -/
theorem learnt_errors :
    let errors := latest m.settings.errorWindow (m.errors ++ [m.errorOf clock neighbor actual])
    (m.learnt clock neighbor actual).errors = errors ∧
    (m.learnt clock neighbor actual).stats.averageError =
      (mean? errors).getD (m.errorOf clock neighbor actual) := by
  rw [learnt_eq]
  split <;> exact ⟨rfl, rfl⟩

/-- The model is counted as updated exactly if learning was due. -/
theorem learnt_modelUpdates :
    (m.learnt clock neighbor actual).stats.modelUpdates =
      m.stats.modelUpdates + (m.isDue (m.errorOf clock neighbor actual) clock.now).toNat := by
  rw [learnt_eq]
  cases m.isDue (m.errorOf clock neighbor actual) clock.now <;> rfl

/-- A report leaves the round-trip times alone. -/
theorem roundTripsTo_report :
    (m.report clock neighbor actual).roundTripsTo other = m.roundTripsTo other := by
  obtain ⟨-, hroundTrips, -⟩ := m.learnt_frame clock neighbor actual
  exact congrArg (fun map : NameMap (List α) => (map[other]?).getD []) hroundTrips

/-- A report enters a record for its own neighbor and for no other. -/
theorem recorded_report :
    (m.report clock neighbor actual).recorded other =
      keep m.settings.recordCapacity (m.recorded other)
        (if neighbor = other then some (m.recordOf clock neighbor actual) else none) := by
  obtain ⟨hsettings, -, hrecords, -⟩ := m.learnt_frame clock neighbor actual
  have hrecorded : (m.learnt clock neighbor actual).recorded = m.recorded := by
    unfold recorded
    rw [hrecords]
  have hreport : (m.report clock neighbor actual).recorded other =
      if neighbor = other then
        latest (m.learnt clock neighbor actual).settings.recordCapacity
          ((m.learnt clock neighbor actual).recorded neighbor ++
            [m.recordOf clock neighbor actual])
      else (m.learnt clock neighbor actual).recorded other := getD_insert ..
  rw [hreport, hsettings, hrecorded]
  split
  · next h => subst h; rfl
  · rfl

/-- A report enters its error. -/
theorem errors_report :
    (m.report clock neighbor actual).errors =
      latest m.settings.errorWindow (m.errors ++ [m.errorOf clock neighbor actual]) :=
  (m.learnt_errors clock neighbor actual).1

/-- After a report the average error is the mean of the latest errors. -/
theorem averageError_report :
    (m.report clock neighbor actual).stats.averageError =
      (mean? (m.report clock neighbor actual).errors).getD (m.errorOf clock neighbor actual) := by
  rw [errors_report]
  exact (m.learnt_errors clock neighbor actual).2

/-- A prediction enters the round-trip time that it was given, for its own neighbor. -/
theorem roundTripsTo_predictCost (metrics : LinkMetrics α) :
    (m.predictCost clock neighbor metrics).2.roundTripsTo other =
      keep m.settings.roundTripCapacity (m.roundTripsTo other)
        (if neighbor = other then metrics.rtt.map Duration.wholeMillis else none) := by
  unfold predictCost
  cases metrics.rtt with
  | none =>
    rw [Option.map_none, ite_self]
    rfl
  | some rtt =>
    refine (getD_insert ..).trans ?_
    split
    · next h => subst h; rfl
    · rfl

end Calls

end CostModel

/-! ## Learners and their transcripts -/

/-- The cost model with the clock that it reads. -/
structure Learner (α : Type) where
  clock : Clock
  model : CostModel α

/-- What is done with a learner. -/
inductive LearningCall (α : Type) where
  | predict (neighbor : Name) (metrics : LinkMetrics α)
  | report (neighbor : Name) (actual : α)
  | advance (elapsed : Duration)
  | setMinute (minute : Nat)

/-- Calls with the learners that they met. -/
abbrev Transcript (α : Type) : Type := List (Learner α × LearningCall α)

namespace LearningCall

def isPrediction : LearningCall α → Bool
  | .predict .. => true
  | _ => false

def isReport : LearningCall α → Bool
  | .report .. => true
  | _ => false

/-- The round-trip time in milliseconds that comes with a prediction for a neighbor. -/
def sample? (neighbor : Name) : LearningCall α → Option α
  | .predict other metrics =>
    if other = neighbor then metrics.rtt.map Duration.wholeMillis else none
  | _ => none

end LearningCall

namespace Learner

/-- A learner that has not been called. -/
def fresh (settings : LearningSettings α) (clock : Clock) : Learner α :=
  ⟨clock, .untrained settings clock.now⟩

def apply (l : Learner α) : LearningCall α → Learner α
  | .predict neighbor metrics =>
    { l with model := (l.model.predictCost l.clock neighbor metrics).2 }
  | .report neighbor actual => { l with model := l.model.report l.clock neighbor actual }
  | .advance elapsed => { l with clock := l.clock.advance elapsed }
  | .setMinute minute => { l with clock := l.clock.setMinute minute }

def run (l : Learner α) (calls : List (LearningCall α)) : Learner α := calls.foldl apply l

/-- The calls of a run, each with the learner that it meets. -/
def transcript : Learner α → List (LearningCall α) → Transcript α
  | _, [] => []
  | l, c :: calls => (l, c) :: transcript (l.apply c) calls

/-- The error that a call reveals. -/
def error? (l : Learner α) : LearningCall α → Option α
  | .report neighbor actual => some (l.model.errorOf l.clock neighbor actual)
  | _ => none

/-- The record that comes of a report about a neighbor. -/
def record? (neighbor : Name) (l : Learner α) : LearningCall α → Option (PerformanceRecord α)
  | .report other actual =>
    if other = neighbor then some (l.model.recordOf l.clock other actual) else none
  | _ => none

/-- Whether the model is to be trained on a call. -/
def trains (l : Learner α) : LearningCall α → Bool
  | .report neighbor actual =>
    l.model.isDue (l.model.errorOf l.clock neighbor actual) l.clock.now
  | _ => false

/-- The calls of a transcript are those that were made. -/
theorem map_snd_transcript (l : Learner α) (calls : List (LearningCall α)) :
    (l.transcript calls).map Prod.snd = calls := by
  induction calls generalizing l with
  | nil => rfl
  | cons c calls ih => exact congrArg (c :: ·) (ih (l.apply c))

end Learner

namespace Transcript

/-- The round-trip times in milliseconds that the predictions for a neighbor brought. -/
def samples (t : Transcript α) (neighbor : Name) : List α :=
  t.filterMap fun e => e.2.sample? neighbor

def records (t : Transcript α) (neighbor : Name) : List (PerformanceRecord α) :=
  t.filterMap fun e => e.1.record? neighbor e.2

def errors (t : Transcript α) : List α := t.filterMap fun e => e.1.error? e.2

def predictions (t : Transcript α) : Nat := t.countP fun e => e.2.isPrediction

def reports (t : Transcript α) : Nat := t.countP fun e => e.2.isReport

def trainings (t : Transcript α) : Nat := t.countP fun e => e.1.trains e.2

section Growth

variable (t : Transcript α) (l : Learner α) (c : LearningCall α)

/-- One more call adds its round-trip time, if it brings one for the neighbor. -/
theorem samples_concat (neighbor : Name) :
    samples (t ++ [(l, c)]) neighbor = t.samples neighbor ++ (c.sample? neighbor).toList :=
  filterMap_concat ..

/-- One more call adds its record, if it makes one for the neighbor. -/
theorem records_concat (neighbor : Name) :
    records (t ++ [(l, c)]) neighbor = t.records neighbor ++ (l.record? neighbor c).toList :=
  filterMap_concat ..

/-- One more call adds its error, if it is a report. -/
theorem errors_concat : errors (t ++ [(l, c)]) = t.errors ++ (l.error? c).toList :=
  filterMap_concat ..

omit [Scalar α] in
/-- One more call counts among the predictions if it is one. -/
theorem predictions_concat :
    predictions (t ++ [(l, c)]) = t.predictions + c.isPrediction.toNat := countP_concat ..

omit [Scalar α] in
/-- One more call counts among the reports if it is one. -/
theorem reports_concat : reports (t ++ [(l, c)]) = t.reports + c.isReport.toNat := countP_concat ..

/-- One more call counts among the trainings if the model learns from it. -/
theorem trainings_concat : trainings (t ++ [(l, c)]) = t.trainings + (l.trains c).toNat :=
  countP_concat ..

end Growth

/-- The model learns from reports only. -/
theorem trainings_le_reports (t : Transcript α) : t.trainings ≤ t.reports := by
  refine List.countP_mono_left fun e _ htrains => ?_
  obtain ⟨l, c⟩ := e
  cases c <;> first | rfl | cases htrains

end Transcript

/-! ## One call -/

namespace Learner

variable (l : Learner α) (c : LearningCall α)

/-- A call enters its round-trip time and forgets the oldest one beyond the capacity. -/
theorem roundTripsTo_apply (neighbor : Name) :
    (l.apply c).model.roundTripsTo neighbor =
      keep l.model.settings.roundTripCapacity (l.model.roundTripsTo neighbor)
        (c.sample? neighbor) := by
  cases c with
  | predict other metrics => exact l.model.roundTripsTo_predictCost l.clock other neighbor metrics
  | report => exact CostModel.roundTripsTo_report ..
  | advance | setMinute => rfl

/-- A call enters its record and forgets the oldest one beyond the capacity. -/
theorem recorded_apply (neighbor : Name) :
    (l.apply c).model.recorded neighbor =
      keep l.model.settings.recordCapacity (l.model.recorded neighbor)
        (l.record? neighbor c) := by
  cases c with
  | report => exact CostModel.recorded_report ..
  | predict | advance | setMinute => rfl

/-- A call enters its error and forgets the oldest one beyond the window. -/
theorem errors_apply :
    (l.apply c).model.errors =
      keep l.model.settings.errorWindow l.model.errors (l.error? c) := by
  cases c with
  | report => exact CostModel.errors_report ..
  | predict | advance | setMinute => rfl

/-- A call is counted as a prediction exactly if it is one. -/
theorem predictions_apply :
    (l.apply c).model.stats.predictions = l.model.stats.predictions + c.isPrediction.toNat := by
  cases c with
  | report => exact (CostModel.learnt_frame ..).2.2.2.1
  | predict | advance | setMinute => rfl

/-- A call is counted as a report exactly if it is one. -/
theorem patternUpdates_apply :
    (l.apply c).model.stats.patternUpdates = l.model.stats.patternUpdates + c.isReport.toNat := by
  cases c with
  | report => exact (CostModel.learnt_frame ..).2.2.2.2
  | predict | advance | setMinute => rfl

/-- A call is counted as an update of the model exactly if the model learns from it. -/
theorem modelUpdates_apply :
    (l.apply c).model.stats.modelUpdates = l.model.stats.modelUpdates + (l.trains c).toNat := by
  cases c with
  | report => exact CostModel.learnt_modelUpdates ..
  | predict | advance | setMinute => rfl

/-- The average is that of the errors in the window, as long as the window is open. -/
theorem averageError_apply (hopen : 0 < l.model.settings.errorWindow)
    (h : l.model.stats.averageError = (mean? l.model.errors).getD 0.0) :
    (l.apply c).model.stats.averageError = (mean? (l.apply c).model.errors).getD 0.0 := by
  cases c with
  | report neighbor actual =>
    have hmean : (l.model.report l.clock neighbor actual).errors ≠ [] := by
      rw [CostModel.errors_report]
      exact latest_append_singleton_ne_nil hopen _ _
    exact (CostModel.averageError_report ..).trans (mean?_of_ne_nil hmean ..)
  | predict | advance | setMinute => exact h

end Learner

/-- No call makes the model unsound. -/
theorem CostModel.Sound.apply [RateArithmetic α] {settings : LearningSettings α} {l : Learner α}
    (h : l.model.Sound settings) (hsettings : settings.Bounded) (c : LearningCall α) :
    (l.apply c).model.Sound settings := by
  cases c with
  | predict neighbor metrics => exact h.predictCost l.clock neighbor metrics
  | report neighbor actual => exact h.report hsettings l.clock neighbor actual
  | advance | setMinute => exact h

/-! ## All calls -/

namespace CostModel

/-- The histories and the counters of a model agree with a transcript. -/
structure Balanced (settings : LearningSettings α) (t : Transcript α) (m : CostModel α) : Prop where
  roundTripsTo_eq (neighbor : Name) :
    m.roundTripsTo neighbor = latest settings.roundTripCapacity (t.samples neighbor)
  recorded_eq (neighbor : Name) :
    m.recorded neighbor = latest settings.recordCapacity (t.records neighbor)
  errors_eq : m.errors = latest settings.errorWindow t.errors
  /-- The average error is zero before there is any. -/
  averageError_eq : m.stats.averageError = (mean? (latest settings.errorWindow t.errors)).getD 0.0
  predictions_eq : m.stats.predictions = t.predictions
  patternUpdates_eq : m.stats.patternUpdates = t.reports
  modelUpdates_eq : m.stats.modelUpdates = t.trainings

/-- The books of a new model balance. -/
theorem balanced_untrained (settings : LearningSettings α) (now : Instant) :
    (untrained settings now).Balanced settings [] where
  roundTripsTo_eq _ := by simp [roundTripsTo, CostModel.untrained, Transcript.samples, latest]
  recorded_eq _ := by simp [recorded, CostModel.untrained, Transcript.records, latest]
  errors_eq := by simp [CostModel.untrained, Transcript.errors, latest]
  averageError_eq := by simp [CostModel.untrained, Transcript.errors, latest, mean?]
  predictions_eq := rfl
  patternUpdates_eq := rfl
  modelUpdates_eq := rfl

variable {settings : LearningSettings α} {t : Transcript α} {l : Learner α}

/-- Books that balance do so after one more call. -/
theorem Balanced.apply (h : l.model.Balanced settings t) (hsettings : l.model.settings = settings)
    (hopen : 0 < settings.errorWindow) (c : LearningCall α) :
    (l.apply c).model.Balanced settings (t ++ [(l, c)]) := by
  subst hsettings
  -- The average is taken over the errors, so these come first.
  have herrors : (l.apply c).model.errors =
      latest l.model.settings.errorWindow (Transcript.errors (t ++ [(l, c)])) := by
    rw [l.errors_apply, h.errors_eq, keep_latest, Transcript.errors_concat]
  exact
    { roundTripsTo_eq := fun neighbor => by
        rw [l.roundTripsTo_apply, h.roundTripsTo_eq, keep_latest, Transcript.samples_concat]
      recorded_eq := fun neighbor => by
        rw [l.recorded_apply, h.recorded_eq, keep_latest, Transcript.records_concat]
      errors_eq := herrors
      averageError_eq := by
        rw [← herrors]
        refine l.averageError_apply c hopen ?_
        rw [h.averageError_eq, h.errors_eq]
      predictions_eq := by
        rw [l.predictions_apply, h.predictions_eq, Transcript.predictions_concat]
      patternUpdates_eq := by
        rw [l.patternUpdates_apply, h.patternUpdates_eq, Transcript.reports_concat]
      modelUpdates_eq := by
        rw [l.modelUpdates_apply, h.modelUpdates_eq, Transcript.trainings_concat] }

/-- A run keeps a model sound and its books in balance. -/
theorem Balanced.run [RateArithmetic α] (h : l.model.Balanced settings t)
    (hsound : l.model.Sound settings) (hsettings : settings.Bounded)
    (calls : List (LearningCall α)) :
    (l.run calls).model.Balanced settings (t ++ l.transcript calls) ∧
    (l.run calls).model.Sound settings := by
  induction calls generalizing l t with
  | nil => exact ⟨by rwa [Learner.transcript, List.append_nil], hsound⟩
  | cons c calls ih =>
    have hrun := ih (h.apply hsound.settings_eq hsettings.errorWindow_pos c)
      (hsound.apply hsettings c)
    rwa [List.append_assoc] at hrun

end CostModel

/-- **The books of the cost model balance.** Under settings that pass the check, with a number for a
learning rate, take any calls in any order: predictions for any neighbors, reports of any scores,
time that passes and a time of day that is set. The learning rate is within its bounds, and the
model is ready exactly when it has been trained, which both counters of training steps agree on, and
heuristic before. The histories hold the latest round-trip times and reports of each neighbor and
the latest errors of all of them, in order and as many as fit, with the average error that of the
errors in the window. The counters count the predictions, the reports and the reports that called
for training. And a prediction is made from the round-trip times that came with the predictions
before it. -/
theorem books_balance [RateArithmetic α] {settings : LearningSettings α}
    (hvalid : settings.violation? = none) (hnumber : settings.learningRate ≤ settings.learningRate)
    (clock : Clock) (calls : List (LearningCall α)) :
    let l := (Learner.fresh settings clock).run calls
    let t := (Learner.fresh settings clock).transcript calls
    t.map Prod.snd = calls ∧ l.model.Sound settings ∧ l.model.Balanced settings t ∧
    l.model.stats.modelUpdates ≤ l.model.stats.patternUpdates ∧
    ∀ (neighbor : Name) (metrics : LinkMetrics α),
      (l.model.predictCost l.clock neighbor metrics).1 =
        metrics.configuredCost * (1.0 + l.model.score
          (.extract (latest settings.roundTripCapacity (t.samples neighbor)) settings.successRtt
            (l.model.slots.feature neighbor l.clock.minuteOfDay))) := by
  intro l t
  have hsettings := LearningSettings.bounded hvalid hnumber
  obtain ⟨hbalanced, hsound⟩ : l.model.Balanced settings t ∧ l.model.Sound settings :=
    (CostModel.balanced_untrained settings clock.now).run
      (l := Learner.fresh settings clock) (CostModel.sound_untrained hsettings clock.now)
      hsettings calls
  refine ⟨Learner.map_snd_transcript _ calls, hsound, hbalanced, ?_, fun neighbor metrics => ?_⟩
  · rw [hbalanced.modelUpdates_eq, hbalanced.patternUpdates_eq]
    exact t.trainings_le_reports
  · rw [← hbalanced.roundTripsTo_eq, CostModel.predictCost, CostModel.features, hsound.settings_eq]

namespace Learner.OneReport

open Quantity (number)

def peer : Name := { components := ["upstream"] }

noncomputable def metrics (rtt : Option Duration) : LinkMetrics Quantity where
  neighbor := peer
  status := .active
  configuredCost := 10.0
  currentCost := 10.0
  timeouts := 0
  lastSuccess := 0
  history := []
  rtt := rtt

/-- Two predictions, one without a round-trip time, and more than half a minute without a call. -/
noncomputable def quiet : List (LearningCall Quantity) :=
  [.predict peer (metrics (some (.ofMillis 30))), .predict peer (metrics none),
    .advance (.ofSeconds 31)]

noncomputable def start : Learner Quantity := .fresh .standard ⟨0, 0⟩

/-- The standard settings break no rule. -/
theorem violation?_standard :
    (LearningSettings.standard : LearningSettings Quantity).violation? = none := by
  have hleast : (0.0 : Quantity) < 0.001 := by
    simp only [Quantity.ofScientific_eq, Quantity.number_lt_number]
    norm_num
  have hbounds : (0.001 : Quantity) ≤ 0.05 := by
    simp only [Quantity.ofScientific_eq, Quantity.number_le_number]
    norm_num
  have hlow : ¬ (0.01 : Quantity) < 0.001 := by
    simp only [Quantity.ofScientific_eq, Quantity.number_lt_number]
    norm_num
  have hhigh : ¬ (0.05 : Quantity) < 0.01 := by
    simp only [Quantity.ofScientific_eq, Quantity.number_lt_number]
    norm_num
  have halpha : 0.0 < (0.1 : Quantity) ∧ (0.1 : Quantity) ≤ 1.0 := by
    simp only [Quantity.ofScientific_eq, Quantity.number_lt_number, Quantity.number_le_number]
    norm_num
  exact LearningSettings.violation?_eq_none_iff.2
    ⟨hleast, hbounds, ⟨hlow, hhigh⟩, halpha, by decide, by decide⟩

/-- The report after the quiet is learnt from, whatever its error is. -/
theorem trained_once :
    (LearningSettings.standard : LearningSettings Quantity).violation? = none ∧
    let model := (start.run (quiet ++ [.report peer 0.5])).model
    model.ready = true ∧ model.model.updates = 1 ∧ model.stats.predictions = 2 ∧
      model.roundTripsTo peer = [number 30] := by
  have hnumber : (LearningSettings.standard : LearningSettings Quantity).learningRate ≤
      LearningSettings.standard.learningRate := by
    rw [LearningSettings.standard, Quantity.ofScientific_eq, Quantity.number_le_number]
  obtain ⟨-, hsound, hbalanced, -⟩ :=
    books_balance violation?_standard hnumber ⟨0, 0⟩ (quiet ++ [.report peer 0.5])
  have hlate : (start.run quiet).trains (.report peer 0.5) = true := by
    rw [trains, CostModel.isDue, Bool.or_eq_true]
    exact .inr (decide_eq_true (by decide))
  have hupdates : (start.run (quiet ++ [.report peer 0.5])).model.stats.modelUpdates = 1 := by
    refine hbalanced.modelUpdates_eq.trans ?_
    refine (Transcript.trainings_concat (start.transcript quiet) (start.run quiet) _).trans ?_
    rw [hlate]
    rfl
  have hsample : Duration.wholeMillis (.ofMillis 30) = number 30 := by
    norm_num [Duration.wholeMillis, Duration.ofMillis]
  refine ⟨violation?_standard, hsound.ready_iff.2 hupdates.ge, ?_, hbalanced.predictions_eq, ?_⟩
  · exact hsound.modelUpdates_eq.symm.trans hupdates
  · rw [← hsample]
    exact hbalanced.roundTripsTo_eq peer

end Learner.OneReport

end AdaptiveRouting
