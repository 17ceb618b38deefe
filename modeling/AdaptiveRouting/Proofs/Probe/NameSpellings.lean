import AdaptiveRouting.Proofs.Decimal.Positional
import AdaptiveRouting.Proofs.Probe.ProbeNames

/-!
# Names that spell a probe

A name is taken for a probe exactly if it consists of the neighbor, the components of the probe
namespace and a spelling of the sequence number: its digits, with any number of zeros and possibly a
plus sign in front of them (`IsSpelling`). So a probe has many spellings (`lenient_parse`), but a
spelling belongs to one probe, and the one without needless characters is the name that the probe is
given (`probe_names_spelled`).

Behind the zeros, the digits of a number are those that it is written with
(`exists_zeros_toDigits`); the induction is on the last digit, since writing puts it last.
-/

namespace AdaptiveRouting

/-! ## Digits -/

/-- The value of a digit is less than ten. -/
theorem digitValue_lt {c : Char} (h : c.isDigit = true) : digitValue c < 10 := by
  have hc : 48 ≤ c.toNat ∧ c.toNat ≤ 57 := Char.isDigit_iff_toNat.1 h
  change c.toNat - 48 < 10
  omega

/-- A digit is the character of its value. -/
theorem digitChar_digitValue {c : Char} (h : c.isDigit = true) :
    Nat.digitChar (digitValue c) = c := by
  have hc : 48 ≤ c.toNat ∧ c.toNat ≤ 57 := Char.isDigit_iff_toNat.1 h
  apply Char.toNat_inj.1
  rw [Nat.toNat_digitChar_of_lt_ten (digitValue_lt h)]
  change 48 + (c.toNat - 48) = c.toNat
  omega

/-- Digits are those of the number that they make up, behind some zeros. -/
theorem exists_zeros_toDigits {cs : List Char} (hne : cs ≠ [])
    (hall : ∀ c ∈ cs, c.isDigit = true) :
    ∃ zeros, cs = List.replicate zeros '0' ++ Nat.toDigits 10 (ofDigits cs) := by
  -- The digits are taken in from the left, so the induction is on the last of them.
  induction cs using List.reverseRecOn with
  | nil => exact absurd rfl hne
  | append_singleton ds c ih =>
    have hc : c.isDigit = true := hall c (by simp)
    have hone : Nat.toDigits 10 (digitValue c) = [c] := by
      rw [Nat.toDigits_of_lt_base (digitValue_lt hc), digitChar_digitValue hc]
    have hvalue : ofDigits (ds ++ [c]) = 10 * ofDigits ds + digitValue c := by
      rw [ofDigits, List.foldl_append]
      rfl
    rw [hvalue]
    by_cases hds : ds = []
    · subst hds
      exact ⟨0, by simpa [ofDigits] using hone.symm⟩
    obtain ⟨zeros, hzeros⟩ := ih hds fun d hd => hall d (by simp [hd])
    rcases Nat.eq_zero_or_pos (ofDigits ds) with hzero | hpos
    · -- so far there are zeros only, and the last of them is not needed any more
      rw [hzero, Nat.toDigits_zero, ← List.replicate_succ'] at hzeros
      exact ⟨zeros + 1, by rw [hzero, Nat.mul_zero, Nat.zero_add, hone, ← hzeros]⟩
    · refine ⟨zeros, ?_⟩
      rw [← Nat.toDigits_append_toDigits (by decide) hpos (digitValue_lt hc), hone,
        ← List.append_assoc, ← hzeros]

/-! ## Sequence numbers -/

/-- The digits of a number behind some zeros. -/
def digitsBehind (zeros n : Nat) : List Char := List.replicate zeros '0' ++ Nat.toDigits 10 n

/-- There is nothing but digits in a number behind zeros. -/
theorem isDigit_of_mem_digitsBehind {zeros n : Nat} {c : Char} (h : c ∈ digitsBehind zeros n) :
    c.isDigit = true := by
  rcases List.mem_append.1 h with h | h
  · rw [List.eq_of_mem_replicate h]
    decide
  · exact Numeral.isDigit_of_mem_toDigits h

/-- There is no plus sign among digits. -/
theorem plus_notMem_digitsBehind (zeros n : Nat) : '+' ∉ digitsBehind zeros n := fun h =>
  absurd (isDigit_of_mem_digitsBehind h) (by decide)

/-- Every number has a digit. -/
theorem digitsBehind_ne_nil (zeros n : Nat) : digitsBehind zeros n ≠ [] := by
  simp [digitsBehind, Nat.toDigits_ne_nil]

/-- A spelling of a sequence number: its digits, with zeros and possibly a plus sign in front of
them. -/
def IsSpelling (seq : UInt32) (s : String) : Prop :=
  ∃ zeros, s.toList = digitsBehind zeros seq.toNat ∨ s.toList = '+' :: digitsBehind zeros seq.toNat

/-- A text without a plus sign in front, and without a zero in front unless it is nothing else. -/
def IsPlain (s : String) : Prop :=
  s.toList.head? ≠ some '+' ∧ (s.toList.head? = some '0' → s.toList = ['0'])

/-- Digits that make up a sequence number are its digits behind some zeros. -/
theorem reads_iff_digitsBehind {digits : List Char} {seq : UInt32} :
    ((digits ≠ [] ∧ digits.all Char.isDigit = true ∧ ofDigits digits < UInt32.size) ∧
      UInt32.ofNat (ofDigits digits) = seq) ↔
    ∃ zeros, digits = digitsBehind zeros seq.toNat := by
  constructor
  · rintro ⟨⟨hne, hall, hlt⟩, rfl⟩
    rw [UInt32.toNat_ofNat_of_lt' hlt]
    exact exists_zeros_toDigits hne (List.all_eq_true.1 hall)
  · rintro ⟨zeros, rfl⟩
    have hvalue : ofDigits (digitsBehind zeros seq.toNat) = seq.toNat := by
      rw [digitsBehind, ofDigits_append, ofDigits_replicate_zero, ofDigits_toDigits, Nat.zero_mul,
        Nat.zero_add]
    refine ⟨⟨digitsBehind_ne_nil _ _, ?_, ?_⟩, ?_⟩
    · exact List.all_eq_true.2 fun _ => isDigit_of_mem_digitsBehind
    · rw [hvalue]
      exact seq.toNat_lt
    · rw [hvalue, UInt32.ofNat_toNat]

/-- Exactly the spellings of a sequence number are read as it. -/
theorem parseSeq?_eq_some_iff {s : String} {seq : UInt32} :
    parseSeq? s = some seq ↔ IsSpelling seq s := by
  unfold parseSeq?
  dsimp only
  split
  · next digits hsign =>
    rw [Option.ite_none_right_eq_some, Option.some_inj, reads_iff_digitsBehind]
    refine exists_congr fun zeros => ?_
    have hsigned : '+' :: digits ≠ digitsBehind zeros seq.toNat := fun h =>
      plus_notMem_digitsBehind zeros seq.toNat (h ▸ List.mem_cons_self)
    simp [hsign, hsigned]
  · next hsign =>
    rw [Option.ite_none_right_eq_some, Option.some_inj, reads_iff_digitsBehind]
    refine exists_congr fun zeros => ?_
    rw [or_iff_left (hsign _)]

/-- A sequence number as it is written is a spelling of itself. -/
theorem isSpelling_seqText (seq : UInt32) : IsSpelling seq (seqText seq) :=
  parseSeq?_eq_some_iff.1 (parseSeq?_seqText seq)

/-- A spelling can stand as a component of a name. -/
theorem IsSpelling.isComponent {seq : UInt32} {s : String} (h : IsSpelling seq s) :
    IsComponent s := by
  obtain ⟨zeros, h⟩ := h
  have hslash : '/' ∉ digitsBehind zeros seq.toNat := fun hmem =>
    absurd (isDigit_of_mem_digitsBehind hmem) (by decide)
  rcases h with h | h
  · exact ⟨h ▸ digitsBehind_ne_nil _ _, h ▸ hslash⟩
  · exact ⟨h ▸ List.cons_ne_nil _ _, by simp [h, hslash]⟩

/-- Only the digits alone are plain. -/
theorem IsSpelling.isPlain_iff {seq : UInt32} {s : String} (h : IsSpelling seq s) :
    IsPlain s ↔ s = seqText seq := by
  obtain ⟨zeros, h⟩ := h
  have hplain : IsPlain (seqText seq) := by
    refine ⟨fun hplus => ?_, fun hzero => ?_⟩
    · exact absurd (isDigit_of_mem_seqText (List.mem_of_head? hplus)) (by decide)
    · rw [toList_seqText] at hzero ⊢
      have hseq : seq.toNat = 0 := by
        by_contra hne
        exact Numeral.head?_toDigits (Nat.pos_of_ne_zero hne) hzero
      rw [hseq, Nat.toDigits_zero]
  refine ⟨fun hs => ?_, fun hs => hs ▸ hplain⟩
  have hdigits : s.toList = digitsBehind zeros seq.toNat := by
    refine h.resolve_right fun hsigned => hs.1 ?_
    rw [hsigned, List.head?_cons]
  cases zeros with
  | zero => exact String.toList_inj.1 (hdigits.trans (toList_seqText seq).symm)
  | succ zeros =>
    -- a zero in front would be all there is, and no digit would be left
    have hzero : s.toList = ['0'] := hs.2 (by rw [hdigits]; rfl)
    have hlength := congrArg List.length (hdigits.symm.trans hzero)
    have hpos : 0 < (Nat.toDigits 10 seq.toNat).length := List.length_pos_iff.2 Nat.toDigits_ne_nil
    simp only [digitsBehind, List.length_append, List.length_replicate, List.length_singleton]
      at hlength
    omega

namespace ProbeName

/-! ## Names -/

/-- The last three components are those that are split off. -/
theorem exists_eq_append_of_splitLast? {xs : List String} {a b c : String}
    (h : splitLast? xs = some (a, b, c)) : ∃ ys, xs = ys ++ [a, b, c] := by
  fun_induction splitLast? xs with
  | case1 =>
    cases h
    exact ⟨[], rfl⟩
  | case2 x xs _ ih =>
    obtain ⟨ys, rfl⟩ := ih h
    exact ⟨x :: ys, rfl⟩
  | case3 => cases h

/-- The spelling is the last component of the name. -/
theorem last?_spelled (p : ProbeName) {s : String} (h : IsComponent s) :
    (p.spelled s).last? = some s := by
  simp [Name.last?, p.components_spelled h]

/-- A name is read as a probe exactly if it is one of a neighbor other than the root, with some
spelling of its number. -/
theorem parse_eq_ok_iff {n : Name} {p : ProbeName} :
    parse n = .ok p ↔ p.neighbor ≠ .root ∧ ∃ s, IsSpelling p.seq s ∧ n = p.spelled s := by
  constructor
  · intro h
    unfold parse at h
    split at h
    · cases h
    next a b c hsplit =>
    obtain ⟨xs, hxs⟩ := exists_eq_append_of_splitLast? hsplit
    split at h
    next hguard =>
      obtain ⟨hlong, hspace⟩ := hguard
      obtain ⟨rfl, rfl⟩ : a = "link-cost" ∧ b = "rtt-probe" := by
        simpa [probeComponents] using hspace
      split at h
      · cases h
      next seq hseq =>
      cases h
      have hspelling : IsSpelling seq c := parseSeq?_eq_some_iff.1 hseq
      have hneighbor : (n.dropLast 3).components = xs := components_dropLast hxs rfl
      refine ⟨fun hroot => ?_, c, hspelling, Name.ext ?_⟩
      · -- the root has no components, and the guard asks for one more than three
        obtain rfl : xs = [] := hneighbor.symm.trans (congrArg Name.components hroot)
        have hlength : n.length = 3 := congrArg List.length hxs
        omega
      · rw [components_spelled _ hspelling.isComponent, hxs, hneighbor]
    · cases h
  · rintro ⟨hroot, s, hs, rfl⟩
    exact parse_spelled hroot hs.isComponent (parseSeq?_eq_some_iff.2 hs)

/-- Different probes have different names. -/
theorem toName_inj {p q : ProbeName} : p.toName = q.toName ↔ p = q := by
  refine ⟨fun h => ?_, congrArg toName⟩
  have hcomponents := congrArg Name.components h
  rw [components_toName, components_toName] at hcomponents
  obtain ⟨hneighbor, hmarked⟩ := List.append_inj' hcomponents rfl
  have hseq : seqText p.seq = seqText q.seq := by simpa using hmarked
  have hsame := parseSeq?_seqText p.seq
  rw [hseq, parseSeq?_seqText] at hsame
  obtain ⟨n, seq⟩ := p
  obtain ⟨n', seq'⟩ := q
  obtain rfl : n = n' := Name.ext hneighbor
  obtain rfl : seq' = seq := Option.some.inj hsame
  rfl

/-- **A name is taken for a probe exactly if it spells one.** Every other name is refused as it
stands. So the name that a probe is given leads back to the probe, whatever the neighbor is called,
and different probes have different names. Of the names that spell one probe, the one that it is
given is the one whose last component begins with neither a plus sign nor a needless zero. -/
theorem probe_names_spelled (n : Name) (p q : ProbeName) :
    (parse n = .ok p ↔ p.neighbor ≠ .root ∧ ∃ s, IsSpelling p.seq s ∧ n = p.spelled s) ∧
    ((∃ r, parse n = .ok r) ∨ parse n = .error (.invalidName n.text)) ∧
    (parse p.toName = .ok p ↔ p.neighbor ≠ .root) ∧
    (p.toName = q.toName ↔ p = q) ∧
    (n = p.toName ∧ p.neighbor ≠ .root ↔
      parse n = .ok p ∧ ∃ s, n.last? = some s ∧ IsPlain s) := by
  refine ⟨parse_eq_ok_iff, ?_, ⟨fun h => (parse_eq_ok_iff.1 h).1, parse_toName⟩, toName_inj, ?_⟩
  -- There is one error only, and it names the name.
  · unfold parse
    split
    · exact .inr rfl
    · split
      · split
        · exact .inr rfl
        · exact .inl ⟨_, rfl⟩
      · exact .inr rfl
  · constructor
    · rintro ⟨rfl, hroot⟩
      exact ⟨parse_toName hroot, seqText p.seq, p.last?_spelled (isComponent_seqText p.seq),
        (isSpelling_seqText p.seq).isPlain_iff.2 rfl⟩
    · rintro ⟨hparse, s, hlast, hplain⟩
      obtain ⟨hroot, s', hs', rfl⟩ := parse_eq_ok_iff.1 hparse
      rw [p.last?_spelled hs'.isComponent] at hlast
      obtain rfl : s' = s := Option.some.inj hlast
      exact ⟨congrArg p.spelled (hs'.isPlain_iff.1 hplain), hroot⟩

/-- A plus sign in front of the sequence number goes unnoticed, so parsing does not undo the
building of names. -/
theorem lenient_parse : ¬ ∀ (n : Name) (p : ProbeName), p.neighbor ≠ .root →
    (parse n = .ok p ↔ n = p.toName) := by
  intro h
  have hsigned : parse (.ofString "/b/link-cost/rtt-probe/+1") = .ok ⟨.ofString "/b", 1⟩ := by
    decide +kernel
  have hname := (h _ _ (by decide +kernel)).1 hsigned
  exact absurd hname (by decide +kernel)

end ProbeName

end AdaptiveRouting
