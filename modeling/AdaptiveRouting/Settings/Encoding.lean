import AdaptiveRouting.Document.Numeral
import AdaptiveRouting.Document.TextLiteral
import AdaptiveRouting.Settings.Basic
import AdaptiveRouting.Time.DurationText

/-!
# Writing settings

A configuration is written as one table for each group of settings (`Settings.groups`), with every
setting on a line of its own and a blank line between tables. A log file that is not set is left
out.
-/

namespace AdaptiveRouting

/-! ## Settings as data -/

/-- The value of a setting. -/
inductive SettingValue where
  | duration (d : Duration)
  | number (x : Float)
  | count (n : Nat)
  | text (s : String)
  | flag (b : Bool)

/-- Settings by key, in the order in which they are written. -/
abbrev SettingFields : Type := List (String × SettingValue)

/-- The link settings by key. -/
def LinkSettings.fields (s : LinkSettings Float) : SettingFields := [
  ("probe_interval", .duration s.probeInterval),
  ("probe_jitter", .duration s.probeJitter),
  ("probe_lifetime", .duration s.probeLifetime),
  ("warm_up", .duration s.warmUp),
  ("status_report_interval", .duration s.reportInterval),
  ("retry_threshold", .count s.retryThreshold),
  ("max_cost_multiplier", .number s.maxMultiplier),
  ("cost_change_threshold", .number s.changeThreshold),
  ("fine_change_threshold", .number s.fineThreshold),
  ("trigger_interval", .duration s.triggerInterval),
  ("min_feedback_samples", .count s.minFeedbackSamples),
  ("min_cost_samples", .count s.minCostSamples),
  ("rtt_history_capacity", .count s.historyCapacity),
  ("rtt_floor", .duration s.rttFloor),
  ("rtt_ceiling", .duration s.rttCeiling)]

/-- The learning settings by key. -/
def LearningSettings.fields (s : LearningSettings Float) : SettingFields := [
  ("learning_rate", .number s.learningRate),
  ("min_learning_rate", .number s.minLearningRate),
  ("max_learning_rate", .number s.maxLearningRate),
  ("adaptation_threshold", .number s.adaptationThreshold),
  ("refresh_interval", .duration s.refreshInterval),
  ("success_rtt_ms", .number s.successRtt),
  ("temporal_alpha", .number s.temporalAlpha),
  ("rtt_mirror_capacity", .count s.roundTripCapacity),
  ("performance_history_capacity", .count s.recordCapacity),
  ("error_window", .count s.errorWindow)]

/-- The routing settings by key. -/
def RoutingSettings.fields (s : RoutingSettings) : SettingFields := [
  ("router_name", .text s.router.text),
  ("algorithm", .text (Keyed.key s.algorithm)),
  ("hyperbolic", .text (Keyed.key s.hyperbolic)),
  ("calculation_interval", .duration s.calculationInterval)]

/-- The log settings by key. -/
def LogSettings.fields (s : LogSettings) : SettingFields :=
  [("level", .text s.level), ("format", .text s.format)] ++
    s.file.toList.map (fun file => ("file", .text file)) ++ [("color", .flag s.color)]

/-- The groups of settings by key, in the order in which they are written. -/
def Settings.groups (s : Settings Float) : List (String × SettingFields) := [
  ("link_cost", s.link.fields),
  ("adaptive", s.learning.fields),
  ("routing", s.routing.fields),
  ("logging", s.log.fields)]

/-! ## Settings as text -/

def SettingValue.write : SettingValue → List Char
  | .duration d => TextLiteral.write d.text.toList
  | .number x => (Decimal.plain Numeral.style x).toList
  | .count n => Nat.toDigits 10 n
  | .text s => TextLiteral.write s.toList
  | .flag b => if b then ['t', 'r', 'u', 'e'] else ['f', 'a', 'l', 's', 'e']

def settingLine (field : String × SettingValue) : List Char :=
  field.1.toList ++ [' ', '=', ' '] ++ field.2.write ++ ['\n']

def settingTable (group : String × SettingFields) : List Char :=
  '[' :: group.1.toList ++ [']', '\n'] ++ group.2.flatMap settingLine

/-- A configuration as the text of a document. -/
def Settings.render (s : Settings Float) : String :=
  String.ofList (['\n'].intercalate (s.groups.map settingTable))

end AdaptiveRouting
