import AdaptiveRouting.Probe.Exchange
import AdaptiveRouting.Proofs.Time.DurationRoundTrip
import Mathlib.Data.List.Infix

/-!
# Probe names taken apart

The name of a probe is taken apart into the probe that it was made for (`ProbeName.parse_toName`),
and a router takes it for one of its own exactly when the probe is for that router
(`Responder.isOurs_toName`).

For the second, the components of a neighbor must not hold those of the probe namespace side by
side (`ProbeName.Apart`): the probes of `a/link-cost/rtt-probe` lie in the namespace of the router
`a` as well. Then the two components that close a namespace are met in a probe name at one place
only, since neither is the other's equal, and the routers in front of them agree
(`eq_of_marked`).
-/

namespace AdaptiveRouting

/-! ## Components -/

/-- A component on its own is a name of one component. -/
theorem Name.components_ofString {s : String} (h : IsComponent s) :
    (ofString s).components = [s] := by
  simp [ofString, pathPieces_of_notMem h.1 h.2]

/-- To append a component is to put it at the end. -/
theorem Name.components_append {s : String} (n : Name) (h : IsComponent s) :
    (n.append s).components = n.components ++ [s] := by
  rw [components_append_ofString, components_ofString h]

/-- The probe space of a router lies below its name. -/
theorem components_probeSpace (router : Name) :
    (probeSpace router).components = router.components ++ probeComponents := by
  have hcost : IsComponent "link-cost" := by decide
  have hprobe : IsComponent "rtt-probe" := by decide
  simp [probeSpace, probeComponents, Name.components_append, hcost, hprobe]

/-! ## Sequence numbers -/

/-- A sequence number is written in decimal digits. -/
theorem toList_seqText (seq : UInt32) : (seqText seq).toList = Nat.toDigits 10 seq.toNat :=
  String.toList_ofList

/-- A sequence number is written in digits only. -/
theorem isDigit_of_mem_seqText {seq : UInt32} {c : Char} (h : c ∈ (seqText seq).toList) :
    c.isDigit = true := by
  rw [toList_seqText] at h
  exact Nat.isDigit_of_mem_toDigits (by decide) (by decide) h

/-- A sequence number can stand as a component. -/
theorem isComponent_seqText (seq : UInt32) : IsComponent (seqText seq) := by
  refine ⟨?_, fun hslash => absurd (isDigit_of_mem_seqText hslash) (by decide)⟩
  rw [toList_seqText]
  exact Nat.toDigits_ne_nil

/-- A sequence number is read back from its digits. -/
theorem parseSeq?_seqText (seq : UInt32) : parseSeq? (seqText seq) = some seq := by
  have hvalue : ofDigits (seqText seq).toList = seq.toNat := by
    rw [toList_seqText, ofDigits_toDigits]
  have hall : (seqText seq).toList.all Char.isDigit = true :=
    List.all_eq_true.2 fun _ => isDigit_of_mem_seqText
  unfold parseSeq?
  dsimp only
  split
  · next rest heq =>
    have hplus : '+' ∈ (seqText seq).toList := by rw [heq]; exact List.mem_cons_self ..
    exact absurd (isDigit_of_mem_seqText hplus) (by decide)
  · rw [hvalue, if_pos ⟨(isComponent_seqText seq).1, hall, seq.toNat_lt⟩, UInt32.ofNat_toNat]

namespace ProbeName

/-! ## Taking a probe name apart -/

/-- The name of a probe with a text in the place of its sequence number. -/
def spelled (p : ProbeName) (s : String) : Name := (probeSpace p.neighbor).append s

/-- The components of a probe's name in some spelling. -/
theorem components_spelled (p : ProbeName) {s : String} (h : IsComponent s) :
    (p.spelled s).components = p.neighbor.components ++ ["link-cost", "rtt-probe", s] := by
  rw [spelled, Name.components_append _ h, components_probeSpace, List.append_assoc]
  rfl

/-- The components of a probe's name. -/
theorem components_toName (p : ProbeName) :
    p.toName.components = p.neighbor.components ++ ["link-cost", "rtt-probe", seqText p.seq] :=
  p.components_spelled (isComponent_seqText p.seq)

/-- Three components at the end are split off. -/
theorem splitLast?_append (xs : List String) (a b c : String) :
    splitLast? (xs ++ [a, b, c]) = some (a, b, c) := by
  induction xs with
  | nil => rfl
  | cons x xs ih =>
    rw [List.cons_append, splitLast?, ih]
    intro _ _ h
    simpa using congrArg List.length h

/-- Dropping as many components as were appended leaves the others. -/
theorem components_dropLast {n : Name} {xs ys : List String} {k : Nat}
    (h : n.components = xs ++ ys) (hk : ys.length = k) : (n.dropLast k).components = xs := by
  simp [Name.dropLast, Name.length, h, hk]

/-- A name in which the number can be read is read as its probe. -/
theorem parse_spelled {p : ProbeName} {s : String} (hroot : p.neighbor ≠ .root)
    (hs : IsComponent s) (hseq : parseSeq? s = some p.seq) : parse (p.spelled s) = .ok p := by
  have hlong : 0 < p.neighbor.components.length :=
    List.length_pos_iff.2 fun hnil => hroot (Name.ext hnil)
  have hcomponents := p.components_spelled hs
  have hlength : (p.spelled s).length = p.neighbor.components.length + 3 := by
    simp [Name.length, hcomponents]
  have hneighbor : (p.spelled s).dropLast 3 = p.neighbor :=
    Name.ext (components_dropLast hcomponents rfl)
  unfold parse
  rw [hcomponents, splitLast?_append]
  dsimp only
  rw [if_pos ⟨by omega, rfl⟩, hseq]
  dsimp only
  rw [hneighbor]

/-- **The name of a probe says which probe it is.** -/
theorem parse_toName {p : ProbeName} (h : p.neighbor ≠ .root) : parse p.toName = .ok p :=
  parse_spelled h (isComponent_seqText p.seq) (parseSeq?_seqText p.seq)

/-! ## Whose probe it is -/

/-- The components of the probe namespace do not stand side by side in a name. -/
def Apart (n : Name) : Prop := ¬ probeComponents <:+: n.components

instance (n : Name) : Decidable (Apart n) := inferInstanceAs (Decidable (¬ _))

/-- Two different marks that close one list and stand side by side in another one only in front of
its last entry: if the first list is the beginning of the second, then the marks are the same. -/
theorem eq_of_marked {a b s : String} (hab : a ≠ b) {xs ys : List String}
    (hapart : ¬ [a, b] <:+: ys) (h : xs ++ [a, b] <+: ys ++ [a, b, s]) : xs = ys := by
  induction xs generalizing ys with
  | nil =>
    match ys with
    | [] => rfl
    | [y] => simp [Ne.symm hab] at h
    | y :: y' :: ys =>
      -- the marks would stand at the very beginning
      simp only [List.nil_append, List.cons_append, List.cons_prefix_cons] at h
      obtain ⟨rfl, rfl, -⟩ := h
      exact absurd (List.prefix_append [a, b] ys).isInfix hapart
  | cons x xs ih =>
    match ys with
    | [] =>
      -- the marks would stand one place later
      have hlength := h.length_le
      simp only [List.cons_append, List.nil_append, List.length_cons, List.length_append,
        List.length_nil] at hlength
      obtain rfl : xs = [] := List.length_eq_zero_iff.1 (by omega)
      simp [hab] at h
    | y :: ys =>
      simp only [List.cons_append, List.cons_prefix_cons] at h
      rw [h.1, ih (fun hwithin => hapart (hwithin.trans (List.suffix_cons y ys).isInfix)) h.2]

/-- A probe lies in the probe space of its own neighbor and of nobody else. -/
theorem probeSpace_isAncestorOf_toName {router : Name} {p : ProbeName} (h : Apart p.neighbor) :
    (probeSpace router).isAncestorOf p.toName = true ↔ p.neighbor = router := by
  rw [Name.isAncestorOf_iff, components_probeSpace, components_toName]
  constructor
  · intro hprefix
    exact (Name.ext (eq_of_marked (by decide) h hprefix)).symm
  · rintro rfl
    exact ⟨[seqText p.seq], by simp [probeComponents]⟩

example : (probeSpace (.ofString "a")).isAncestorOf
    (toName ⟨.ofString "a/link-cost/rtt-probe", 1⟩) = true := by decide +kernel

/-- The name of a probe is not that of its space. -/
theorem toName_ne_probeSpace (p : ProbeName) : p.toName ≠ probeSpace p.neighbor := by
  intro h
  have hlength := congrArg (fun n : Name => n.components.length) h
  simp [components_toName, components_probeSpace, probeComponents] at hlength

end ProbeName

namespace Responder

/-- **A router takes a probe for its own exactly when it is.** -/
theorem isOurs_toName {router : Name} {signer : Signer} {p : ProbeName}
    (h : ProbeName.Apart p.neighbor) :
    (ofRouter router signer).isOurs p.toName = decide (p.neighbor = router) := by
  rw [isOurs, ofRouter, Bool.eq_iff_iff, Bool.and_eq_true, decide_eq_true_iff, decide_eq_true_iff,
    ProbeName.probeSpace_isAncestorOf_toName h, and_iff_left_iff_imp]
  rintro rfl
  exact p.toName_ne_probeSpace

end Responder

end AdaptiveRouting
