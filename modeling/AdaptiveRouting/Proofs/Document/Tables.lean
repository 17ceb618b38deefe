import AdaptiveRouting.Document.Reader
import AdaptiveRouting.Proofs.Decimal.ReadBack
import AdaptiveRouting.Proofs.Document.Numerals
import AdaptiveRouting.Proofs.Document.TextLiterals

/-!
# Tables read back

A document that is written as headers and assignments with keys that need no quotes is read back as
the tables that were meant. There are two steps: the text is cut into statements, line by line
(`Reads`), and the statements are carried out (`assemble?_tables`).
-/

namespace AdaptiveRouting

/-! ## Carrying out statements -/

namespace Entries

/-- A key that no entry has is not found. -/
theorem lookup_eq_none {entries : Entries} {key : String} (h : key ∉ entries.map (·.1)) :
    entries.lookup key = none := by
  refine List.lookup_eq_none_iff.2 fun entry hentry => bne_iff_ne.2 ?_
  rintro rfl
  exact h (List.mem_map_of_mem hentry)

/-- A new last entry is found under its key. -/
theorem lookup_concat {root : Entries} {key : String} (h : key ∉ root.map (·.1)) (value : Datum) :
    (root ++ [(key, value)]).lookup key = some value := by
  rw [List.lookup_append, lookup_eq_none h]
  simp

/-- Setting the key of the last entry replaces its value. -/
theorem set_concat {root : Entries} {key : String} (h : key ∉ root.map (·.1)) (old new : Datum) :
    Entries.set key new (root ++ [(key, old)]) = root ++ [(key, new)] := by
  induction root with
  | nil => simp [set]
  | cons entry root ih =>
    simp only [List.map_cons, List.mem_cons, not_or] at h
    simp [set, Ne.symm h.1, ih h.2]

end Entries

namespace Document

/-- A header and the assignments below it. -/
def tableStatements (table : String × Entries) : List Statement :=
  .header [table.1] :: table.2.map fun entry => .assignment [entry.1] entry.2

/-- Assignments with keys of their own fill the table that was opened last. -/
theorem assemble?_assignments {root : Entries} {name : String} (hname : name ∉ root.map (·.1))
    {entries fields : Entries} (hkeys : ((entries ++ fields).map (·.1)).Nodup)
    (rest : List Statement) :
    assemble? [name] (root ++ [(name, .table .stated entries)])
        (fields.map (fun entry => .assignment [entry.1] entry.2) ++ rest) =
      assemble? [name] (root ++ [(name, .table .stated (entries ++ fields))]) rest := by
  induction fields generalizing entries with
  | nil => simp
  | cons entry fields ih =>
    have hnew : entry.1 ∉ entries.map (·.1) := by
      rw [List.map_append, List.map_cons] at hkeys
      exact fun hmem => (List.nodup_append.1 hkeys).2.2 _ hmem _ List.mem_cons_self rfl
    have hsplit : entries ++ entry :: fields = entries ++ [entry] ++ fields := by simp
    rw [hsplit] at hkeys ⊢
    rw [← ih hkeys]
    simp [assemble?, Entries.modifyAt?, Entries.lookup_concat hname, Entries.addValue?,
      Entries.addNew?, Entries.lookup_eq_none hnew, Entries.set_concat hname]

/-- Tables that are stated one after the other are appended in this order. -/
theorem assemble?_tables (current : List String) {root : Entries} {tables : List (String × Entries)}
    (hnames : (root.map (·.1) ++ tables.map (·.1)).Nodup)
    (hkeys : ∀ table ∈ tables, (table.2.map (·.1)).Nodup) :
    assemble? current root (tables.flatMap tableStatements) =
      some (root ++ tables.map fun table => (table.1, .table .stated table.2)) := by
  induction tables generalizing current root with
  | nil => simp [assemble?]
  | cons table tables ih =>
    have hname : table.1 ∉ root.map (·.1) := fun hmem =>
      (List.nodup_append.1 hnames).2.2 _ hmem _ List.mem_cons_self rfl
    have hfields : (([] ++ table.2 : Entries).map (·.1)).Nodup := hkeys table List.mem_cons_self
    have hnames' : ((root ++ [(table.1, Datum.table .stated table.2)]).map (·.1) ++
        tables.map (·.1)).Nodup := by
      simpa using hnames
    have hrest := ih [table.1] hnames' fun t ht => hkeys t (List.mem_cons_of_mem table ht)
    simp only [List.flatMap_cons, tableStatements, List.cons_append, assemble?, Entries.addTable?,
      Entries.lookup_eq_none hname]
    rw [assemble?_assignments hname hfields, List.nil_append, hrest]
    simp

/-! ## Cutting a text into statements -/

/-- Nothing is skipped in front of a character that is no blank. -/
theorem skipBlanks_cons {c : Char} (hspace : c ≠ ' ') (htab : c ≠ '\t') (cs : List Char) :
    skipBlanks (c :: cs) = c :: cs := by
  simp [skipBlanks, hspace, htab]

/-- A key that needs no quotes. -/
def IsBareKey (key : String) : Prop := key.toList ≠ [] ∧ ∀ c ∈ key.toList, isBare c = true

instance (key : String) : Decidable (IsBareKey key) :=
  decidable_of_iff (key.toList ≠ [] ∧ key.toList.all isBare = true)
    (and_congr Iff.rfl List.all_eq_true)

/-- A character of a key without quotes is none of those that have a meaning of their own. -/
theorem ne_of_isBare {c d : Char} (hc : isBare c = true) (hd : isBare d = false) : c ≠ d := by
  rintro rfl
  exact absurd hc (by simp [hd])

/-- The first character of a key without quotes begins neither a line end nor a header. -/
theorem IsBareKey.exists_cons {key : String} (h : IsBareKey key) :
    ∃ c cs, key.toList = c :: cs ∧ isBare c = true := by
  obtain ⟨c, cs, hcs⟩ := List.exists_cons_of_ne_nil h.1
  exact ⟨c, cs, hcs, h.2 c (hcs ▸ List.mem_cons_self)⟩

/-- A key without quotes is read up to the first character that it cannot have. -/
theorem readKeyPart?_bare {key : String} (hkey : IsBareKey key) {rest : List Char}
    (hstop : ∀ c ∈ rest.head?, isBare c = false) :
    readKeyPart? (key.toList ++ rest) = some (key, rest) := by
  obtain ⟨c, cs, hcs, hc⟩ := hkey.exists_cons
  have hspan := span_append hkey.2 hstop
  have hdouble : c ≠ '"' := ne_of_isBare hc (by decide)
  have hsingle : c ≠ '\'' := ne_of_isBare hc (by decide)
  have hpart : String.ofList (c :: cs) = key := by rw [← hcs, String.ofList_toList]
  rw [hcs, List.cons_append] at hspan ⊢
  simp only [readKeyPart?, hspan, hdouble, hsingle, hpart, or_self, if_false, reduceCtorEq]

/-- Unless a dot follows, it is the whole key. -/
theorem readKey?_bare {key : String} (hkey : IsBareKey key) {rest : List Char}
    (hstop : ∀ c ∈ rest.head?, isBare c = false) (hdot : ∀ more, skipBlanks rest ≠ '.' :: more)
    (fuel : Nat) :
    readKey? (fuel + 1) (key.toList ++ rest) = some ([key], skipBlanks rest) := by
  have hskip : skipBlanks (key.toList ++ rest) = key.toList ++ rest := by
    obtain ⟨c, cs, hcs, hc⟩ := hkey.exists_cons
    rw [hcs]
    exact skipBlanks_cons (ne_of_isBare hc (by decide)) (ne_of_isBare hc (by decide)) _
  simp only [readKey?, hskip, readKeyPart?_bare hkey hstop, Option.bind_eq_bind, Option.bind_some]

/-- A line that is at its end may end. -/
theorem endLine?_break (rest : List Char) : endLine? ('\n' :: rest) = some rest := rfl

/-- A header is read as the statement that opens its table. -/
theorem readStatement?_header {name : String} (hname : IsBareKey name) (rest : List Char) :
    readStatement? ('[' :: (name.toList ++ ']' :: '\n' :: rest)) =
      some (.header [name], rest) := by
  have hskip : skipBlanks (']' :: '\n' :: rest) = ']' :: '\n' :: rest :=
    skipBlanks_cons (by decide) (by decide) _
  have hstop : ∀ c ∈ (']' :: '\n' :: rest).head?, isBare c = false := by
    simp
    decide
  have hkey := readKey?_bare hname hstop (by simp [hskip])
    ('[' :: (name.toList ++ ']' :: '\n' :: rest)).length
  rw [hskip] at hkey
  simp only [readStatement?, hkey, endLine?_break, Option.bind_eq_bind, Option.bind_some]

/-- A text that stands for a value, up to the end of its line. -/
structure Denotes (text : List Char) (value : Datum) : Prop where
  exists_cons : ∃ c cs, text = c :: cs ∧ c ≠ ' ' ∧ c ≠ '\t'
  read : ∀ fuel rest, readValue? (fuel + 1) (text ++ '\n' :: rest) = some (value, '\n' :: rest)

/-- The literal of a text denotes it. -/
theorem denotes_text (s : String) : Denotes (TextLiteral.write s.toList) (.text s) := by
  obtain ⟨quote, body, hwrite, hquote⟩ := TextLiteral.exists_write_eq s.toList
  have hne : ∀ c, c ≠ '"' → c ≠ '\'' → quote ≠ c := by
    rintro c hdouble hsingle rfl
    exact hquote.elim hdouble hsingle
  refine ⟨⟨quote, body, hwrite, hne _ (by decide) (by decide), hne _ (by decide) (by decide)⟩, ?_⟩
  intro fuel rest
  have hread : TextLiteral.read? (TextLiteral.write s.toList ++ '\n' :: rest) =
      some (s.toList, '\n' :: rest) :=
    TextLiteral.read?_write s.toList (by simp) (by simp)
  have hlist : quote ≠ '[' := hne _ (by decide) (by decide)
  have htable : quote ≠ '{' := hne _ (by decide) (by decide)
  rw [hwrite, List.cons_append] at hread ⊢
  rw [readValue?]
  · simp only [hquote, if_true, hread, String.ofList_toList]
  · simpa using hlist
  · simpa using htable

/-- A token denotes what it is read as. -/
theorem denotes_token {token : List Char} (hne : token ≠ [])
    (hchars : ∀ c ∈ token, isTokenChar c = true) {value : Datum}
    (hread : readToken? token = some value) : Denotes token value := by
  obtain ⟨c, cs, hcs⟩ := List.exists_cons_of_ne_nil hne
  have hc : ∀ d, isTokenChar d = false → c ≠ d := by
    rintro d hd rfl
    exact absurd (hchars c (hcs ▸ List.mem_cons_self)) (by simp [hd])
  refine ⟨⟨c, cs, hcs, hc _ (by decide), hc _ (by decide)⟩, fun fuel rest => ?_⟩
  have hstop : ∀ d ∈ ('\n' :: rest).head?, isTokenChar d = false := by
    simp
    decide
  have hspan := span_append hchars hstop
  -- No token begins like a text, a list or a table, so the value is read as a token.
  have hquote : ¬ (c = '"' ∨ c = '\'') :=
    not_or.2 ⟨hc _ (by decide), hc _ (by decide)⟩
  have hlist : c ≠ '[' := hc _ (by decide)
  have htable : c ≠ '{' := hc _ (by decide)
  rw [hcs, List.cons_append] at hspan ⊢
  rw [readValue?]
  · simp only [hquote, if_false, hspan, ← hcs, hread]
  · simpa using hlist
  · simpa using htable

/-- A numeral is written in the characters of a token. -/
theorem isTokenChar_of_isDigit {c : Char} (h : c.isDigit = true) : isTokenChar c = true := by
  simp [isTokenChar, Char.isAlphanum, h]

/-- The sign and the names of numbers that have no digits. -/
theorem isTokenChar_of_name {name : String} (h : name ∈ ["", "-", "nan", "inf", "-inf"]) :
    ∀ c ∈ name.toList, isTokenChar c = true := by
  have hall : ∀ name ∈ ["", "-", "nan", "inf", "-inf"], name.toList.all isTokenChar = true := by
    decide
  exact List.all_eq_true.1 (hall name h)

/-- So is every number. -/
theorem isTokenChar_plain (x : Float) :
    ∀ c ∈ (Decimal.plain Numeral.style x).toList, isTokenChar c = true := by
  cases hx : Magnitude.ofFloat x with
  | undefined =>
    rw [Decimal.plain, hx]
    exact isTokenChar_of_name (by decide : "nan" ∈ _)
  | infinite =>
    rw [Decimal.plain, hx]
    cases Magnitude.isNegative x with
    | false => exact isTokenChar_of_name (by simp)
    | true => exact isTokenChar_of_name (by simp)
  | finite m q =>
    obtain ⟨whole, behind, htext, -, hdigits, -⟩ := Numeral.exists_toList_plain hx
    have hsign : Numeral.sign x ∈ ["", "-", "nan", "inf", "-inf"] := by
      rw [Numeral.sign]
      split <;> simp
    intro c hc
    rw [htext] at hc
    simp only [List.mem_append, List.mem_cons] at hc
    rcases hc with hc | hc | rfl | hc
    · exact isTokenChar_of_name hsign c hc
    · exact isTokenChar_of_isDigit (Numeral.isDigit_of_mem_toDigits hc)
    · decide
    · exact isTokenChar_of_isDigit (hdigits c hc)

/-- A numeral is read as such, since it is neither of the flags. -/
theorem readToken?_numeral {token : List Char} {d : Datum} (h : Numeral.read? token = some d) :
    readToken? token = some d := by
  have htrue : token ≠ ['t', 'r', 'u', 'e'] := by
    rintro rfl
    cases h
  have hfalse : token ≠ ['f', 'a', 'l', 's', 'e'] := by
    rintro rfl
    cases h
  simp only [readToken?, htrue, hfalse, if_false, h]

/-- The text of a number denotes it, whatever number it is. -/
theorem denotes_plain (x : Float) :
    Denotes (Decimal.plain Numeral.style x).toList (.number x) := by
  have hread := Numeral.read?_plain x
  refine denotes_token ?_ (isTokenChar_plain x) (readToken?_numeral hread)
  intro hnil
  rw [hnil] at hread
  cases hread

/-- The digits of a count denote it if it fits into an integer of a document. -/
theorem denotes_toDigits {n : Nat} (hn : n ≤ 9223372036854775807) :
    Denotes (Nat.toDigits 10 n) (.integer n) :=
  denotes_token Nat.toDigits_ne_nil
    (fun _ hc => isTokenChar_of_isDigit (Numeral.isDigit_of_mem_toDigits hc))
    (readToken?_numeral (Numeral.read?_toDigits hn))

/-- An assignment is read as the key with the value that its text denotes. -/
theorem readStatement?_assignment {key : String} (hkey : IsBareKey key) {text : List Char}
    {value : Datum} (h : Denotes text value) (rest : List Char) :
    readStatement? (key.toList ++ ' ' :: '=' :: ' ' :: (text ++ '\n' :: rest)) =
      some (.assignment [key] value, rest) := by
  obtain ⟨c, cs, hcs, hc⟩ := hkey.exists_cons
  obtain ⟨d, ds, hds, hspace, htab⟩ := h.exists_cons
  have hbracket : c ≠ '[' := ne_of_isBare hc (by decide)
  have hequals : skipBlanks (' ' :: '=' :: ' ' :: (text ++ '\n' :: rest)) =
      '=' :: ' ' :: (text ++ '\n' :: rest) := rfl
  have hvalue : skipBlanks (' ' :: (text ++ '\n' :: rest)) = text ++ '\n' :: rest := by
    rw [hds]
    exact skipBlanks_cons hspace htab _
  have hstop : ∀ c ∈ (' ' :: '=' :: ' ' :: (text ++ '\n' :: rest)).head?, isBare c = false := by
    simp
    decide
  have hread := readKey?_bare hkey hstop (by simp [hequals])
    (key.toList ++ ' ' :: '=' :: ' ' :: (text ++ '\n' :: rest)).length
  rw [hequals] at hread
  rw [hcs, List.cons_append] at hread ⊢
  rw [readStatement?]
  · simp only [hread, hvalue, h.read, endLine?_break, Option.bind_eq_bind, Option.bind_some]
  · simpa using hbracket

/-- What is read in a text, whatever bound on the recursion leaves room for it. -/
def Reads (text : List Char) (statements : List Statement) : Prop :=
  ∀ fuel, text.length < fuel → readStatements? fuel text = some statements

/-- An empty text has no statements. -/
theorem reads_nil : Reads [] [] := by
  intro fuel hfuel
  obtain ⟨fuel, rfl⟩ := Nat.exists_eq_succ_of_ne_zero (Nat.ne_of_gt hfuel)
  rfl

/-- A blank line adds no statement. -/
theorem Reads.blankLine {text : List Char} {statements : List Statement}
    (h : Reads text statements) : Reads ('\n' :: text) statements := by
  intro fuel hfuel
  rw [List.length_cons] at hfuel
  obtain ⟨fuel, rfl⟩ := Nat.exists_eq_succ_of_ne_zero (Nat.ne_of_gt (Nat.zero_lt_of_lt hfuel))
  have hskip : skipBlanks ('\n' :: text) = '\n' :: text := skipBlanks_cons (by decide) (by decide) _
  simp only [readStatements?, hskip, endLine?_break, true_or, if_true]
  exact h fuel (by omega)

/-- A statement that does not begin like a blank line. -/
theorem Reads.statement {text : List Char} {statements : List Statement} {line : List Char}
    {statement : Statement} (h : Reads text statements) {c : Char} {cs : List Char}
    (hline : line = c :: cs) (hc : isBare c = true ∨ c = '[')
    (hread : readStatement? (line ++ text) = some (statement, text)) :
    Reads (line ++ text) (statement :: statements) := by
  subst hline
  intro fuel hfuel
  rw [List.cons_append, List.length_cons, List.length_append] at hfuel
  obtain ⟨fuel, rfl⟩ := Nat.exists_eq_succ_of_ne_zero (Nat.ne_of_gt (Nat.zero_lt_of_lt hfuel))
  have hne : ∀ d, isBare d = false → d ≠ '[' → c ≠ d := by
    rintro d hd hd' rfl
    exact hc.elim (fun hc => absurd hc (by simp [hd])) hd'
  -- None of the characters that the reader of statements looks for first begins this line.
  have hskip : skipBlanks (c :: (cs ++ text)) = c :: (cs ++ text) :=
    skipBlanks_cons (hne _ (by decide) (by decide)) (hne _ (by decide) (by decide)) _
  have hbreak : c ≠ '\n' := hne _ (by decide) (by decide)
  have hreturn : c ≠ '\r' := hne _ (by decide) (by decide)
  have hcomment : c ≠ '#' := hne _ (by decide) (by decide)
  rw [List.cons_append] at hread ⊢
  simp only [readStatements?, hskip, hread, hbreak, hreturn, hcomment, or_self, if_false,
    h fuel (by omega)]
  rfl

end Document

end AdaptiveRouting
