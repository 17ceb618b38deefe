import AdaptiveRouting.Document.Reader
import AdaptiveRouting.Failure
import AdaptiveRouting.Settings.Validation
import AdaptiveRouting.Time.DurationText

/-!
# Reading settings

A configuration is read from a document with one table for each group of settings. What the
document leaves out keeps its standard value and what it adds is ignored, but a setting of the
wrong kind makes the whole configuration unreadable. Durations are given as text, and integers
will do for numbers.

A configuration that was read is checked before it is handed out (`Settings.parse`).
-/

namespace AdaptiveRouting

/-! ## Values -/

namespace Datum

def toText? : Datum → Option String
  | .text s => some s
  | _ => none

def toFlag? : Datum → Option Bool
  | .flag b => some b
  | _ => none

/-- A number; an integer is rounded to the nearest one. -/
def toNumber? : Datum → Option Float
  | .number x => some x
  | .integer n => some (Decimal.toFloat (n < 0) n.natAbs 0)
  | _ => none

def toCount? (bound : Nat) : Datum → Option Nat
  | .integer n => if 0 ≤ n ∧ n.toNat < bound then some n.toNat else none
  | _ => none

def toDuration? (d : Datum) : Option Duration := d.toText?.bind Duration.parse?

/-- A word of a closed vocabulary. -/
def toKeyed? (τ : Type) [Keyed τ] (d : Datum) : Option τ := d.toText?.bind (Keyed.find? τ)

def toEntries? : Datum → Option Entries
  | .table _ entries => some entries
  | _ => none

end Datum

/-- The value of a key, or a standard value where the key is missing. -/
def Entries.field? {τ : Type} (entries : Entries) (key : String) (read : Datum → Option τ)
    (standard : τ) : Option τ :=
  match entries.lookup key with
  | none => some standard
  | some d => read d

/-! ## Groups of settings -/

/-- Reads the link settings. -/
def LinkSettings.decode? (t : Entries) : Option (LinkSettings Float) := do
  let s : LinkSettings Float := .standard
  return {
    probeInterval := ← t.field? "probe_interval" Datum.toDuration? s.probeInterval
    probeJitter := ← t.field? "probe_jitter" Datum.toDuration? s.probeJitter
    probeLifetime := ← t.field? "probe_lifetime" Datum.toDuration? s.probeLifetime
    warmUp := ← t.field? "warm_up" Datum.toDuration? s.warmUp
    reportInterval := ← t.field? "status_report_interval" Datum.toDuration? s.reportInterval
    retryThreshold := ← t.field? "retry_threshold" (Datum.toCount? UInt32.size) s.retryThreshold
    maxMultiplier := ← t.field? "max_cost_multiplier" Datum.toNumber? s.maxMultiplier
    changeThreshold := ← t.field? "cost_change_threshold" Datum.toNumber? s.changeThreshold
    fineThreshold := ← t.field? "fine_change_threshold" Datum.toNumber? s.fineThreshold
    triggerInterval := ← t.field? "trigger_interval" Datum.toDuration? s.triggerInterval
    minFeedbackSamples :=
      ← t.field? "min_feedback_samples" (Datum.toCount? wordBound) s.minFeedbackSamples
    minCostSamples := ← t.field? "min_cost_samples" (Datum.toCount? wordBound) s.minCostSamples
    historyCapacity :=
      ← t.field? "rtt_history_capacity" (Datum.toCount? wordBound) s.historyCapacity
    rttFloor := ← t.field? "rtt_floor" Datum.toDuration? s.rttFloor
    rttCeiling := ← t.field? "rtt_ceiling" Datum.toDuration? s.rttCeiling }

/-- Reads the learning settings. -/
def LearningSettings.decode? (t : Entries) : Option (LearningSettings Float) := do
  let s : LearningSettings Float := .standard
  return {
    learningRate := ← t.field? "learning_rate" Datum.toNumber? s.learningRate
    minLearningRate := ← t.field? "min_learning_rate" Datum.toNumber? s.minLearningRate
    maxLearningRate := ← t.field? "max_learning_rate" Datum.toNumber? s.maxLearningRate
    adaptationThreshold := ← t.field? "adaptation_threshold" Datum.toNumber? s.adaptationThreshold
    refreshInterval := ← t.field? "refresh_interval" Datum.toDuration? s.refreshInterval
    successRtt := ← t.field? "success_rtt_ms" Datum.toNumber? s.successRtt
    temporalAlpha := ← t.field? "temporal_alpha" Datum.toNumber? s.temporalAlpha
    roundTripCapacity :=
      ← t.field? "rtt_mirror_capacity" (Datum.toCount? wordBound) s.roundTripCapacity
    recordCapacity :=
      ← t.field? "performance_history_capacity" (Datum.toCount? wordBound) s.recordCapacity
    errorWindow := ← t.field? "error_window" (Datum.toCount? wordBound) s.errorWindow }

/-- Reads the routing settings. -/
def RoutingSettings.decode? (t : Entries) : Option RoutingSettings := do
  let s : RoutingSettings := .standard
  return {
    router := ← t.field? "router_name" (fun d => d.toText?.map Name.ofString) s.router
    algorithm := ← t.field? "algorithm" (Datum.toKeyed? Algorithm) s.algorithm
    hyperbolic := ← t.field? "hyperbolic" (Datum.toKeyed? HyperbolicMode) s.hyperbolic
    calculationInterval :=
      ← t.field? "calculation_interval" Datum.toDuration? s.calculationInterval }

/-- Reads the log settings. -/
def LogSettings.decode? (t : Entries) : Option LogSettings := do
  let s : LogSettings := .standard
  return {
    level := ← t.field? "level" Datum.toText? s.level
    format := ← t.field? "format" Datum.toText? s.format
    file := ← t.field? "file" (fun d => d.toText?.map some) s.file
    color := ← t.field? "color" Datum.toFlag? s.color }

/-- Reads a group of settings, of which nothing is said when its table is missing. -/
def Entries.group? {τ : Type} (t : Entries) (key : String) (read : Entries → Option τ) : Option τ :=
  match t.lookup key with
  | none => read []
  | some d => d.toEntries?.bind read

/-- Reads a configuration. -/
def Settings.decode? (t : Entries) : Option (Settings Float) := do
  return {
    link := ← t.group? "link_cost" LinkSettings.decode?
    learning := ← t.group? "adaptive" LearningSettings.decode?
    routing := ← t.group? "routing" RoutingSettings.decode?
    log := ← t.group? "logging" LogSettings.decode? }

/-! ## Whole configurations -/

/-- Why a text is no configuration. -/
inductive SettingsFault where
  | unreadable
  | unsound (violation : Violation Float)

def SettingsFault.failure : SettingsFault → Failure
  | .unreadable => .config "Failed to parse config"
  | .unsound violation => .invalidConfig violation.message

/-- Reads a sound configuration. -/
def Settings.parse (s : String) : Except SettingsFault (Settings Float) :=
  match (Document.read? s).bind Settings.decode? with
  | none => .error .unreadable
  | some settings =>
    match settings.violation? with
    | some violation => .error (.unsound violation)
    | none => .ok settings

end AdaptiveRouting
