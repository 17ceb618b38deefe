import AdaptiveRouting.Proofs.Document.Tables
import AdaptiveRouting.Settings.Decoding
import AdaptiveRouting.Settings.Encoding

/-!
# Configurations read back

A sound configuration that is written as a document is the one that is read back
(`Settings.parse_render`). It goes from the inside out: the text of a single value denotes that
value (`SettingValue.denotes`), lines and tables are read as the statements that they were written
for (`reads_tables`), the statements build the tables (`read?_tables`), and every group of settings
is decoded from its own table. Only the size of numbers matters: durations and counts have to fit
into the integers of a document (`Settings.Writable`), while texts may hold any character and
numbers may be any number.
-/

namespace AdaptiveRouting

open Document

/-! ## Values -/

/-- A value as it stands in a document. -/
def SettingValue.datum : SettingValue → Datum
  | .duration d => .text d.text
  | .number x => .number x
  | .count n => .integer n
  | .text s => .text s
  | .flag b => .flag b

/-- Whether a value has a place in a document: the seconds of a duration fit into 64 bits and a
count into 63. -/
def SettingValue.Fits : SettingValue → Prop
  | .duration d => d.seconds < wordBound
  | .count n => n ≤ 9223372036854775807
  | .number _ => True
  | .text _ => True
  | .flag _ => True

instance : (v : SettingValue) → Decidable v.Fits
  | .duration d => inferInstanceAs (Decidable (d.seconds < wordBound))
  | .count n => inferInstanceAs (Decidable (n ≤ 9223372036854775807))
  | .number _ => isTrue trivial
  | .text _ => isTrue trivial
  | .flag _ => isTrue trivial

/-- The text that is written for a value denotes it. -/
theorem SettingValue.denotes {v : SettingValue} (hfits : v.Fits) : Denotes v.write v.datum := by
  cases v with
  | duration d => exact denotes_text d.text
  | number x => exact denotes_plain x
  | count n => exact denotes_toDigits hfits
  | text s => exact denotes_text s
  | flag b =>
    cases b
    · exact denotes_token (by decide) (List.all_eq_true.1 (by decide)) rfl
    · exact denotes_token (by decide) (List.all_eq_true.1 (by decide)) rfl

/-! ## Lines and tables -/

/-- Settings as they stand in a document. -/
def SettingFields.entries (fields : SettingFields) : Entries :=
  fields.map fun field => (field.1, field.2.datum)

/-- The settings stand in a document under their keys. -/
theorem SettingFields.map_fst_entries (fields : SettingFields) :
    fields.entries.map (·.1) = fields.map (·.1) := by
  simp [entries]

/-- Keys that may stand side by side without quotes. -/
def AreBareKeys (keys : List String) : Prop := keys.Nodup ∧ ∀ key ∈ keys, IsBareKey key

instance (keys : List String) : Decidable (AreBareKeys keys) := inferInstanceAs (Decidable (_ ∧ _))

/-- A line is read as the assignment of its value to its key. -/
theorem reads_line {field : String × SettingValue} (hkey : IsBareKey field.1)
    (hfits : field.2.Fits) {text : List Char} {statements : List Statement}
    (h : Reads text statements) :
    Reads (settingLine field ++ text) (.assignment [field.1] field.2.datum :: statements) := by
  obtain ⟨c, cs, hcs, hc⟩ := hkey.exists_cons
  have hstart : settingLine field =
      c :: (cs ++ ' ' :: '=' :: ' ' :: (field.2.write ++ ['\n'])) := by
    simp [settingLine, hcs]
  have hread : readStatement? (settingLine field ++ text) =
      some (.assignment [field.1] field.2.datum, text) := by
    have hassignment := readStatement?_assignment hkey (SettingValue.denotes hfits) text
    simpa [settingLine] using hassignment
  exact h.statement hstart (.inl hc) hread

/-- Lines are read as assignments, one after the other. -/
theorem reads_fields {fields : SettingFields} (hkeys : ∀ field ∈ fields, IsBareKey field.1)
    (hfits : ∀ field ∈ fields, field.2.Fits) {text : List Char} {statements : List Statement}
    (h : Reads text statements) :
    Reads (fields.flatMap settingLine ++ text)
      (fields.entries.map (fun entry => .assignment [entry.1] entry.2) ++ statements) := by
  induction fields with
  | nil => exact h
  | cons field fields ih =>
    have hrest := ih (fun f hf => hkeys f (List.mem_cons_of_mem field hf))
      fun f hf => hfits f (List.mem_cons_of_mem field hf)
    have hread := reads_line (hkeys field List.mem_cons_self) (hfits field List.mem_cons_self) hrest
    simpa [SettingFields.entries] using hread

/-- A table that can be written: its name and its keys need no quotes, and its values fit. -/
structure WritableTable (group : String × SettingFields) : Prop where
  name : IsBareKey group.1
  keys : AreBareKeys (group.2.map (·.1))
  fits : ∀ field ∈ group.2, field.2.Fits

/-- A table as it stands in a document. -/
def tableEntries (group : String × SettingFields) : String × Entries := (group.1, group.2.entries)

/-- A table is read as its header and its assignments. -/
theorem reads_table {group : String × SettingFields} (hgroup : WritableTable group)
    {text : List Char} {statements : List Statement} (h : Reads text statements) :
    Reads (settingTable group ++ text) (tableStatements (tableEntries group) ++ statements) := by
  have hkeys : ∀ field ∈ group.2, IsBareKey field.1 := fun field hfield =>
    hgroup.keys.2 field.1 (List.mem_map_of_mem hfield)
  have hfields := reads_fields hkeys hgroup.fits h
  have hheader := readStatement?_header hgroup.name (group.2.flatMap settingLine ++ text)
  have hread : readStatement? (('[' :: (group.1.toList ++ [']', '\n'])) ++
      (group.2.flatMap settingLine ++ text)) =
      some (.header [group.1], group.2.flatMap settingLine ++ text) := by
    simpa using hheader
  have htable := hfields.statement rfl (.inr rfl) hread
  simpa [settingTable, tableStatements, tableEntries] using htable

/-- Tables are read one after the other. -/
theorem reads_tables {groups : List (String × SettingFields)}
    (hgroups : ∀ group ∈ groups, WritableTable group) :
    Reads (['\n'].intercalate (groups.map settingTable))
      ((groups.map tableEntries).flatMap tableStatements) := by
  induction groups with
  | nil => exact reads_nil
  | cons group groups ih =>
    have hgroup := hgroups group List.mem_cons_self
    have hrest := ih fun g hg => hgroups g (List.mem_cons_of_mem group hg)
    cases groups with
    | nil => simpa using reads_table hgroup reads_nil
    | cons next groups =>
      have hread := reads_table hgroup hrest.blankLine
      simpa [List.intercalate_cons_cons] using hread

/-- A text that is empty or begins with a header has no mark in front of it. -/
theorem dropMark_tables (groups : List (String × SettingFields)) :
    dropMark (['\n'].intercalate (groups.map settingTable)) =
      ['\n'].intercalate (groups.map settingTable) := by
  match groups with
  | [] => rfl
  | [_] => rfl
  | _ :: _ :: _ => rfl

/-- Tables with distinct names are read back. -/
theorem read?_tables {groups : List (String × SettingFields)}
    (hnames : (groups.map (·.1)).Nodup) (hgroups : ∀ group ∈ groups, WritableTable group) :
    Document.read? (String.ofList (['\n'].intercalate (groups.map settingTable))) =
      some (groups.map fun group => (group.1, .table .stated group.2.entries)) := by
  have hkeys : ∀ table ∈ groups.map tableEntries, (table.2.map (·.1)).Nodup := by
    refine List.forall_mem_map.2 fun group hgroup => ?_
    rw [tableEntries, SettingFields.map_fst_entries]
    exact (hgroups group hgroup).keys.1
  have hdistinct : (([] : Entries).map (·.1) ++ (groups.map tableEntries).map (·.1)).Nodup := by
    rw [List.map_map]
    exact hnames
  have hread := reads_tables hgroups _ (Nat.lt_succ_self _)
  have htables := assemble?_tables [] hdistinct hkeys
  rw [Document.read?, String.toList_ofList, dropMark_tables, hread]
  simp only [Option.bind_eq_bind, Option.bind_some, htables, List.nil_append, List.map_map]
  rfl

/-! ## Groups of settings -/

namespace SettingValue

/-- A duration that fits is read back. -/
theorem toDuration?_datum {d : Duration} (hfits : (duration d).Fits) :
    (duration d).datum.toDuration? = some d :=
  Duration.parse?_text hfits

@[simp] theorem toNumber?_datum (x : Float) : (number x).datum.toNumber? = some x := rfl

@[simp] theorem toText?_datum (s : String) : (text s).datum.toText? = some s := rfl

@[simp] theorem toFlag?_datum (b : Bool) : (flag b).datum.toFlag? = some b := rfl

/-- A count below the bound is read back. -/
theorem toCount?_datum {n bound : Nat} (h : n < bound) :
    (count n).datum.toCount? bound = some n := by
  simp [datum, Datum.toCount?, h]

/-- A count in a document fits into a machine word. -/
theorem toCount?_wordBound {n : Nat} (hfits : (count n).Fits) :
    (count n).datum.toCount? wordBound = some n :=
  toCount?_datum (Nat.lt_of_le_of_lt hfits (by decide))

@[simp] theorem toKeyed?_algorithm (a : Algorithm) :
    (text (Keyed.key a)).datum.toKeyed? Algorithm = some a := by
  cases a <;> rfl

@[simp] theorem toKeyed?_hyperbolicMode (m : HyperbolicMode) :
    (text (Keyed.key m)).datum.toKeyed? HyperbolicMode = some m := by
  cases m <;> rfl

end SettingValue

/-- A setting that stands in a table is read as what it is. -/
theorem SettingFields.field?_entries {τ : Type} (fields : SettingFields) (key : String)
    (read : Datum → Option τ) (standard : τ) :
    fields.entries.field? key read standard =
      (fields.lookup key).elim (some standard) fun v => read v.datum := by
  induction fields with
  | nil => rfl
  | cons field fields ih =>
    rw [Entries.field?] at ih ⊢
    rw [entries, List.map_cons, List.lookup_cons, List.lookup_cons]
    cases key == field.1 with
    | true => rfl
    | false => exact ih

/-- Link settings are read back from their fields. -/
theorem LinkSettings.decode?_fields {s : LinkSettings Float}
    (hfits : ∀ field ∈ s.fields, field.2.Fits) (hretry : s.retryThreshold < UInt32.size) :
    LinkSettings.decode? s.fields.entries = some s := by
  simp only [fields, List.forall_mem_cons] at hfits
  simp [decode?, SettingFields.field?_entries, fields, List.lookup_cons,
    SettingValue.toDuration?_datum, SettingValue.toCount?_wordBound,
    SettingValue.toCount?_datum hretry, hfits]

/-- Learning settings are read back from their fields. -/
theorem LearningSettings.decode?_fields {s : LearningSettings Float}
    (hfits : ∀ field ∈ s.fields, field.2.Fits) :
    LearningSettings.decode? s.fields.entries = some s := by
  simp only [fields, List.forall_mem_cons] at hfits
  simp [decode?, SettingFields.field?_entries, fields, List.lookup_cons,
    SettingValue.toDuration?_datum, SettingValue.toCount?_wordBound, hfits]

/-- Routing settings are read back from their fields. -/
theorem RoutingSettings.decode?_fields {s : RoutingSettings}
    (hfits : ∀ field ∈ s.fields, field.2.Fits) :
    RoutingSettings.decode? s.fields.entries = some s := by
  simp only [fields, List.forall_mem_cons] at hfits
  simp [decode?, SettingFields.field?_entries, fields, List.lookup_cons,
    SettingValue.toDuration?_datum, hfits]

/-- A log file that is not set has no line, and what has no line is not set. -/
theorem LogSettings.decode?_fields (s : LogSettings) :
    LogSettings.decode? s.fields.entries = some s := by
  obtain ⟨level, format, file, color⟩ := s
  cases file with
  | none => simp [decode?, SettingFields.field?_entries, fields, List.lookup_cons, standard]
  | some file => simp [decode?, SettingFields.field?_entries, fields, List.lookup_cons]

/-- The tables of a configuration have keys that need no quotes. -/
theorem Settings.areBareKeys (s : Settings Float) :
    ∀ group ∈ s.groups, AreBareKeys (group.2.map (·.1)) := by
  -- no key but that of the log file depends on the values
  have hlink : s.link.fields.map (·.1) =
      (LinkSettings.standard : LinkSettings Float).fields.map (·.1) := rfl
  have hlearning : s.learning.fields.map (·.1) =
      (LearningSettings.standard : LearningSettings Float).fields.map (·.1) := rfl
  have hrouting : s.routing.fields.map (·.1) = RoutingSettings.standard.fields.map (·.1) := rfl
  have hlog : AreBareKeys (s.log.fields.map (·.1)) := by
    obtain ⟨level, format, file, color⟩ := s.log
    cases file with
    | none => exact (by decide : AreBareKeys ["level", "format", "color"])
    | some _ => exact (by decide : AreBareKeys ["level", "format", "file", "color"])
  simp only [groups, List.forall_mem_cons, hlink, hlearning, hrouting]
  exact ⟨by decide, by decide, by decide, hlog, by simp⟩

/-- A configuration whose values have a place in a document. -/
structure Settings.Writable (s : Settings Float) : Prop where
  fits : ∀ group ∈ s.groups, ∀ field ∈ group.2, field.2.Fits
  /-- The number of missed hellos is a machine number of 32 bits. -/
  retries : s.link.retryThreshold < UInt32.size

/-- A configuration is read as its tables. -/
theorem Settings.read?_render {s : Settings Float} (h : s.Writable) :
    Document.read? s.render =
      some (s.groups.map fun group => (group.1, .table .stated group.2.entries)) := by
  have hnames : AreBareKeys (s.groups.map (·.1)) :=
    (by decide : AreBareKeys ["link_cost", "adaptive", "routing", "logging"])
  exact read?_tables hnames.1 fun group hgroup =>
    ⟨hnames.2 _ (List.mem_map_of_mem hgroup), s.areBareKeys group hgroup, h.fits group hgroup⟩

/-- A configuration is read back from its tables. -/
theorem Settings.decode?_groups {s : Settings Float} (h : s.Writable) :
    Settings.decode? (s.groups.map fun group => (group.1, .table .stated group.2.entries)) =
      some s := by
  have hfits := h.fits
  simp only [groups, List.forall_mem_cons] at hfits
  simp [decode?, groups, Entries.group?, List.lookup_cons, Datum.toEntries?,
    LinkSettings.decode?_fields hfits.1 h.retries, LearningSettings.decode?_fields hfits.2.1,
    RoutingSettings.decode?_fields hfits.2.2.1, LogSettings.decode?_fields]

/-- Saving a sound configuration and loading it again loses nothing. -/
theorem Settings.parse_render {s : Settings Float} (hsound : s.violation? = none)
    (h : s.Writable) : Settings.parse s.render = .ok s := by
  simp only [parse, read?_render h, Option.bind_some, decode?_groups h, hsound]

namespace RoundTrip

/-- A configuration with texts that need escapes, with the longest of all durations and with a log
file. -/
def awkward : Settings Float where
  link := { LinkSettings.standard with
    probeInterval := 18446744073709551615999999999
    maxMultiplier := 7.25
    historyCapacity := 9223372036854775807 }
  learning := { LearningSettings.standard with successRtt := -0.0 }
  routing := { RoutingSettings.standard with
    router := ⟨["campus", "router 1"], by decide⟩
    algorithm := .mlAdaptive
    hyperbolic := .dryRun }
  log := ⟨"debug\"\\", "one\n'''two'''\u0001", some "/var/log/\u00E9tat", false⟩

/-- The awkward configuration is valid and survives being written. -/
theorem awkward_parse_render :
    awkward.violation? = none ∧ awkward.Writable ∧ Settings.parse awkward.render = .ok awkward := by
  have hsound : awkward.violation? = none := by rfl
  have hwritable : awkward.Writable := ⟨by decide, by decide⟩
  exact ⟨hsound, hwritable, Settings.parse_render hsound hwritable⟩

end RoundTrip

end AdaptiveRouting
