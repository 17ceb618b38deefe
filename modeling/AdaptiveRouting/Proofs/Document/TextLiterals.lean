import AdaptiveRouting.Document.TextLiteral

/-!
# Texts read back

Whatever text is written is read back as it was, in front of anything but a quote
(`TextLiteral.read?_write`). Reading first looks for the closing quote and then resolves what stands
between the quotes, so there are two things to show of each form.

Between double quotes no quote and no backslash stands without an escape (`Sealed`), so the closing
quote is the first one that is found, tripled or not, and every escape is resolved to the character
that it was written for (`unescape?_escaped`). Single quotes are used only where every character
stands for itself (`suitsVerbatim`). A run of them in the text is shorter than three and does not
touch the closing quotes, which is what `splitTripled?_verbatim` carries along.
-/

namespace AdaptiveRouting.TextLiteral

/-! ## Escapes -/

/-- A text in which every double quote and every backslash belongs to an escape. -/
inductive Sealed : List Char → Prop where
  | nil : Sealed []
  | char {c : Char} {cs : List Char} : c ≠ '"' → c ≠ '\\' → Sealed cs → Sealed (c :: cs)
  | escape {c : Char} {cs : List Char} : Sealed cs → Sealed ('\\' :: c :: cs)

/-- What is sealed may be put together. -/
theorem Sealed.append {as bs : List Char} (ha : Sealed as) (hb : Sealed bs) :
    Sealed (as ++ bs) := by
  induction ha with
  | nil => exact hb
  | char hquote hslash _ ih => exact .char hquote hslash ih
  | escape _ ih => exact .escape ih

/-- Characters that are neither quotes nor backslashes are sealed. -/
theorem sealed_of_forall {cs : List Char} (h : ∀ c ∈ cs, c ≠ '"' ∧ c ≠ '\\') : Sealed cs := by
  induction cs with
  | nil => exact .nil
  | cons c cs ih =>
    obtain ⟨hquote, hslash⟩ := h c List.mem_cons_self
    exact .char hquote hslash (ih fun d hd => h d (List.mem_cons_of_mem c hd))

/-- A control character is written in four digits, and these give it back. -/
theorem codePoint?_hex4 {n : Nat} (hn : n < 0x80) : (hex4 n).length = 4 ∧
    (∀ c ∈ hex4 n, c ≠ '"' ∧ c ≠ '\\') ∧ codePoint? (hex4 n) = some (Char.ofNat n) := by
  have hall : ∀ n < 0x80, (hex4 n).length = 4 ∧ '"' ∉ hex4 n ∧ '\\' ∉ hex4 n ∧
      codePoint? (hex4 n) = some (Char.ofNat n) := by
    decide +kernel
  obtain ⟨hlength, hquote, hslash, hpoint⟩ := hall n hn
  refine ⟨hlength, fun c hc => ⟨?_, ?_⟩, hpoint⟩
  · rintro rfl
    exact hquote hc
  · rintro rfl
    exact hslash hc

/-- Whatever a character is written as is sealed. -/
theorem sealed_escaped (multi : Bool) (c : Char) : Sealed (escaped multi c) := by
  have hescape : ∀ d, Sealed ['\\', d] := fun d => .escape .nil
  unfold escaped
  split
  · exact hescape _
  split
  · exact hescape _
  split
  · split
    · next hbreak _ => subst hbreak; exact .char (by decide) (by decide) .nil
    · exact hescape _
  split
  · exact hescape _
  split
  · exact hescape _
  split
  · exact hescape _
  split
  · exact hescape _
  split
  · next hcontrol => exact .escape (sealed_of_forall (codePoint?_hex4 (by omega)).2.1)
  · next hquote hslash _ => exact .char hquote hslash .nil

/-- A character in hexadecimal digits is read as that character. -/
theorem unescape?_hex4 (multi : Bool) {n : Nat} (hn : n < 0x80) (rest : List Char) :
    unescape? multi false ('\\' :: 'u' :: (hex4 n ++ rest)) =
      (unescape? multi false rest).map (Char.ofNat n :: ·) := by
  obtain ⟨hlength, -, hpoint⟩ := codePoint?_hex4 hn
  match hex4 n, hlength, hpoint with
  | [x, y, z, w], _, hpoint => simp [unescape?, hpoint]

/-- A plain character is read as itself. -/
theorem unescape?_plain (multi : Bool) {c : Char} (hslash : c ≠ '\\') (hplain : isPlain c = true)
    (rest : List Char) :
    unescape? multi false (c :: rest) = (unescape? multi false rest).map (c :: ·) := by
  have hreturn : c ≠ '\r' := by rintro rfl; cases hplain
  have hbreak : c ≠ '\n' := by rintro rfl; cases hplain
  rw [unescape?]
  all_goals simp_all

/-- An escape is resolved to the character that it was written for. -/
theorem unescape?_escaped (multi : Bool) (c : Char) (rest : List Char) :
    unescape? multi false (escaped multi c ++ rest) =
      (unescape? multi false rest).map (c :: ·) := by
  have hofNat : ∀ n, c.toNat = n → c = Char.ofNat n := by
    rintro _ rfl
    exact (Char.ofNat_toNat c).symm
  unfold escaped
  split
  · next h => rw [hofNat 8 h]; rfl
  split
  · next h => subst h; rfl
  split
  · next h => subst h; cases multi <;> rfl
  split
  · next h => rw [hofNat 12 h]; rfl
  split
  · next h => subst h; rfl
  split
  · next h => subst h; rfl
  split
  · next h => subst h; rfl
  split
  · next h =>
    have hhex := unescape?_hex4 multi (n := c.toNat) (by omega) rest
    rwa [Char.ofNat_toNat] at hhex
  · next hslash h =>
    refine unescape?_plain multi hslash ?_ rest
    simp only [isPlain, Bool.or_eq_true, Bool.and_eq_true, decide_eq_true_iff]
    omega

/-- A text that has been escaped is sealed. -/
theorem sealed_flatMap (multi : Bool) (cs : List Char) : Sealed (cs.flatMap (escaped multi)) := by
  induction cs with
  | nil => exact .nil
  | cons c cs ih => exact (sealed_escaped multi c).append ih

/-- A text that has been escaped is read back. -/
theorem unescape?_flatMap (multi : Bool) (cs : List Char) :
    unescape? multi false (cs.flatMap (escaped multi)) = some cs := by
  induction cs with
  | nil => rfl
  | cons c cs ih => rw [List.flatMap_cons, unescape?_escaped, ih]; rfl

/-! ## Closing quotes -/

/-- How the search for the closing quote goes on behind one character. -/
theorem split?_cons (quote c : Char) (rest : List Char) : split? quote (c :: rest) =
    if c = quote then some ([], rest)
    else if c = '\\' ∧ quote = '"' then
      match rest with
      | [] => none
      | d :: rest => (split? quote rest).map fun s => (c :: d :: s.1, s.2)
    else (split? quote rest).map fun s => (c :: s.1, s.2) := by
  cases rest <;> rfl

/-- How the search for three closing quotes goes on behind one character. -/
theorem splitTripled?_cons (quote c : Char) (run : Nat) (rest : List Char) :
    splitTripled? quote run (c :: rest) =
      if c = quote then
        if run = 5 then some ([quote, quote], c :: rest) else splitTripled? quote (run + 1) rest
      else if 3 ≤ run then some (List.replicate (run - 3) quote, c :: rest)
      else if c = '\\' ∧ quote = '"' then
        match rest with
        | [] => none
        | d :: rest =>
          (splitTripled? quote 0 rest).map fun s =>
            (List.replicate run quote ++ c :: d :: s.1, s.2)
      else
        (splitTripled? quote 0 rest).map fun s => (List.replicate run quote ++ c :: s.1, s.2) := by
  cases rest <;> rfl

/-- What is sealed ends at the quote behind it. -/
theorem Sealed.split? {cs : List Char} (h : Sealed cs) (rest : List Char) :
    split? '"' (cs ++ '"' :: rest) = some (cs, rest) := by
  induction h with
  | nil => simp [split?_cons]
  | char hquote hslash _ ih => simp [split?_cons, hquote, hslash, ih]
  | escape _ ih => simp [split?_cons, ih]

/-- Between single quotes a text ends at the first of them. -/
theorem split?_verbatim {cs : List Char} (h : '\'' ∉ cs) (rest : List Char) :
    split? '\'' (cs ++ '\'' :: rest) = some (cs, rest) := by
  induction cs with
  | nil => simp [split?_cons]
  | cons c cs ih =>
    obtain ⟨hne, hcs⟩ := not_or.1 (mt List.mem_cons.2 h)
    simp [split?_cons, Ne.symm hne, ih hcs]

/-- Three quotes in front of anything but a fourth close a text. -/
theorem splitTripled?_close {quote : Char} {rest : List Char} (hrest : rest.head? ≠ some quote) :
    splitTripled? quote 0 (quote :: quote :: quote :: rest) = some ([], rest) := by
  cases rest with
  | nil =>
    simp only [splitTripled?_cons, reduceIte]
    rfl
  | cons c rest =>
    have hne : c ≠ quote := by simpa using hrest
    simp [splitTripled?_cons, hne]

/-- What is sealed ends at the three quotes behind it. -/
theorem Sealed.splitTripled? {cs rest : List Char} (h : Sealed cs)
    (hrest : rest.head? ≠ some '"') :
    splitTripled? '"' 0 (cs ++ '"' :: '"' :: '"' :: rest) = some (cs, rest) := by
  induction h with
  | nil => exact splitTripled?_close hrest
  | char hquote hslash _ ih =>
    rw [List.cons_append, splitTripled?_cons, ih]
    simp [hquote, hslash]
  | escape _ ih =>
    rw [List.cons_append, List.cons_append, splitTripled?_cons]
    simp [ih]

/-- The end of a text without three quotes in a row has no three either. -/
theorem hasTripled_append {as bs : List Char} (h : hasTripled (as ++ bs) = false) :
    hasTripled bs = false := by
  induction as with
  | nil => exact h
  | cons a as ih =>
    refine ih ?_
    rw [List.cons_append] at h
    unfold hasTripled at h
    split at h
    · cases h
    · next heq => cases heq; exact h
    · next heq => cases heq

/-- Where no three quotes stand in a row, a text begins with two at most. -/
theorem lt_three_of_hasTripled {cs : List Char} {run : Nat}
    (h : hasTripled (List.replicate run '\'' ++ cs) = false) : run < 3 := by
  refine Nat.lt_of_not_le fun hrun => ?_
  obtain ⟨more, rfl⟩ := Nat.exists_eq_add_of_le' hrun
  rw [← List.replicate_append_replicate, List.append_assoc] at h
  cases hasTripled_append h

/-- The quotes that have just been seen, `run` of them, and what follows hold no three quotes in a
row, so the text goes on to the closing ones. -/
theorem splitTripled?_verbatim {cs rest : List Char} {run : Nat} (hrest : rest.head? ≠ some '\'')
    (htripled : hasTripled (List.replicate run '\'' ++ cs) = false)
    (hlast : (List.replicate run '\'' ++ cs).getLast? ≠ some '\'') :
    splitTripled? '\'' run (cs ++ '\'' :: '\'' :: '\'' :: rest) =
      some (List.replicate run '\'' ++ cs, rest) := by
  have hrun := lt_three_of_hasTripled htripled
  induction cs generalizing run with
  | nil =>
    obtain rfl : run = 0 := by
      refine Decidable.byContradiction fun hne => hlast ?_
      simp [List.getLast?_replicate, hne]
    exact splitTripled?_close hrest
  | cons c cs ih =>
    rw [List.cons_append, splitTripled?_cons]
    -- A quote makes the run longer, and anything else begins a new one.
    by_cases hc : c = '\''
    · subst hc
      have hreplicate : List.replicate run '\'' ++ '\'' :: cs =
          List.replicate (run + 1) '\'' ++ cs := by
        rw [List.replicate_succ', List.append_assoc, List.singleton_append]
      rw [hreplicate] at htripled hlast ⊢
      rw [if_pos rfl, if_neg (by omega)]
      exact ih htripled hlast (lt_three_of_hasTripled htripled)
    · have htripled' : hasTripled (List.replicate 0 '\'' ++ cs) = false := by
        rw [List.append_cons] at htripled
        exact hasTripled_append htripled
      have hlast' : (List.replicate 0 '\'' ++ cs).getLast? ≠ some '\'' := by
        intro hquote
        cases cs with
        | nil => cases hquote
        | cons d cs => exact hlast (by simpa using hquote)
      rw [if_neg hc, if_neg (Nat.not_le.2 hrun), if_neg (by simp), ih htripled' hlast' (by decide)]
      rfl

/-- Plain characters may stand as they are, and so may line breaks in a literal of several lines. -/
theorem verbatim?_of_all {multi : Bool} {cs : List Char}
    (h : ∀ c ∈ cs, multi = true ∧ c = '\n' ∨ isPlain c = true) : verbatim? multi cs = some cs := by
  induction cs with
  | nil => rfl
  | cons c cs ih =>
    have hcs := ih fun d hd => h d (List.mem_cons_of_mem c hd)
    rcases h c List.mem_cons_self with ⟨rfl, rfl⟩ | hplain
    · simp [verbatim?, hcs]
    · have hreturn : c ≠ '\r' := by rintro rfl; cases hplain
      have hbreak : c ≠ '\n' := by rintro rfl; cases hplain
      rw [verbatim?] <;> simp_all

/-! ## Whole texts -/

section
variable {cs rest : List Char}

/-- A literal in double quotes is read back. -/
theorem read?_double (cs : List Char) (hrest : rest.head? ≠ some '"') :
    read? ('"' :: (cs.flatMap (escaped false) ++ '"' :: rest)) = some (cs, rest) := by
  have hsealed := sealed_flatMap false cs
  -- otherwise the text would be taken for a tripled one
  have hone : ∀ more, cs.flatMap (escaped false) ++ '"' :: rest ≠ '"' :: '"' :: more := by
    intro more heq
    cases hbody : cs.flatMap (escaped false) with
    | nil =>
      rw [hbody] at heq
      cases heq
      exact hrest rfl
    | cons c body =>
      rw [hbody] at heq hsealed
      obtain rfl : c = '"' := (List.cons.inj heq).1
      cases hsealed with
      | char hquote => exact hquote rfl
  rw [read?.eq_3 _ hone, hsealed.split?]
  simp [unescape?_flatMap]

/-- So is one of several lines in double quotes. -/
theorem read?_doubleTripled (cs : List Char) (hrest : rest.head? ≠ some '"') :
    read? ('"' :: '"' :: '"' :: '\n' :: (cs.flatMap (escaped true) ++ '"' :: '"' :: '"' :: rest)) =
      some (cs, rest) := by
  have hsplit := (sealed_flatMap true cs).splitTripled? hrest
  simp [read?, dropBreak, hsplit, unescape?_flatMap]

/-- A literal in single quotes is read as what stands between them. -/
theorem read?_single (hcs : cs ≠ []) (hquote : '\'' ∉ cs) (hplain : ∀ c ∈ cs, isPlain c = true) :
    read? ('\'' :: (cs ++ '\'' :: rest)) = some (cs, rest) := by
  have hone : ∀ more, cs ++ '\'' :: rest ≠ '\'' :: '\'' :: more := by
    intro more heq
    cases cs with
    | nil => exact hcs rfl
    | cons c cs =>
      obtain rfl : c = '\'' := (List.cons.inj heq).1
      exact hquote List.mem_cons_self
  rw [read?.eq_4 _ hone, split?_verbatim hquote]
  simp [verbatim?_of_all fun c hc => .inr (hplain c hc)]

/-- So is one of several lines in single quotes, behind its first line break. -/
theorem read?_singleTripled {body : List Char}
    (hbody : dropBreak body = cs ++ '\'' :: '\'' :: '\'' :: rest)
    (hrest : rest.head? ≠ some '\'') (htripled : hasTripled cs = false)
    (hlast : cs.getLast? ≠ some '\'') (hplain : ∀ c ∈ cs, c = '\n' ∨ isPlain c = true) :
    read? ('\'' :: '\'' :: '\'' :: body) = some (cs, rest) := by
  have hsplit : splitTripled? '\'' 0 (cs ++ '\'' :: '\'' :: '\'' :: rest) = some (cs, rest) :=
    splitTripled?_verbatim hrest htripled hlast
  have hverbatim : verbatim? true cs = some cs :=
    verbatim?_of_all fun c hc => (hplain c hc).imp_left fun h => ⟨rfl, h⟩
  simp [read?, hbody, hsplit, hverbatim]

/-- Nothing is dropped in front of a text that begins with a character of its own. -/
theorem dropBreak_plain {c : Char} (hplain : isPlain c = true) (more : List Char) :
    dropBreak (c :: more) = c :: more := by
  have hbreak : c ≠ '\n' := by rintro rfl; cases hplain
  have hreturn : c ≠ '\r' := by rintro rfl; cases hplain
  rw [dropBreak] <;> simp_all

/-- Reading undoes writing. The closing quotes must not run into others. -/
theorem read?_write (cs : List Char) (hdouble : rest.head? ≠ some '"')
    (hsingle : rest.head? ≠ some '\'') :
    read? (write cs ++ rest) = some (cs, rest) := by
  unfold write
  dsimp only
  split
  · next hsuits =>
    simp only [suitsVerbatim, Bool.and_eq_true, Bool.not_eq_true', List.all_eq_true,
      Bool.or_eq_true, decide_eq_true_iff, bne_iff_ne] at hsuits
    obtain ⟨⟨⟨hgain, hplain⟩, htripled⟩, hlast⟩ := hsuits
    split
    · have hbody : dropBreak ('\n' :: (cs ++ '\'' :: '\'' :: '\'' :: rest)) = _ := rfl
      simpa using read?_singleTripled hbody hsingle htripled hlast hplain
    -- Without a line break the verbatim text stands on one line, between one quote or three.
    · next hmulti =>
      have hplain' : ∀ c ∈ cs, isPlain c = true := by
        intro c hc
        refine (hplain c hc).resolve_left ?_
        rintro rfl
        exact hmulti (List.contains_iff_mem.2 hc)
      split
      · have hbody : dropBreak (cs ++ '\'' :: '\'' :: '\'' :: rest) =
            cs ++ '\'' :: '\'' :: '\'' :: rest := by
          cases cs with
          | nil => simp at hgain
          | cons c cs => exact dropBreak_plain (hplain' c List.mem_cons_self) _
        simpa using read?_singleTripled hbody hsingle htripled hlast hplain
      · next hquote =>
        have hcs : cs ≠ [] := by
          rintro rfl
          simp at hgain
        simpa using read?_single hcs (mt List.contains_iff_mem.2 hquote) hplain'
  · split
    · simpa using read?_doubleTripled cs hdouble
    · simpa using read?_double cs hdouble

end

/-- Every literal begins with a quote. -/
theorem exists_write_eq (cs : List Char) :
    ∃ quote body, write cs = quote :: body ∧ (quote = '"' ∨ quote = '\'') := by
  unfold write
  dsimp only
  split
  · split
    · exact ⟨_, _, rfl, .inr rfl⟩
    · split
      · exact ⟨_, _, rfl, .inr rfl⟩
      · exact ⟨_, _, rfl, .inr rfl⟩
  · split
    · exact ⟨_, _, rfl, .inl rfl⟩
    · exact ⟨_, _, rfl, .inl rfl⟩

end AdaptiveRouting.TextLiteral
