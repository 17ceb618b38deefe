import AdaptiveRouting.Probe.Frame
import AdaptiveRouting.Proofs.Text.Utf8RoundTrip
import AdaptiveRouting.Proofs.Time.DurationRoundTrip
import Mathlib.Algebra.Group.Nat.Defs

/-!
# Frames on the wire

A frame is read back from its bytes whatever bytes follow them, and no beginning of its bytes is
taken for a frame (`frames_self_delimiting`). Both are properties of each field: its reader knows
from the bytes themselves where to stop, and complains when they end too early (`Delimits`). Fields
are read one after the other, so what reading has to give is stated for the bytes of all the fields
that are still to come (`Captures`), and a reader in front of them keeps it (`Delimits.captures`).

A text and a blob are preceded by their length. A name and a duration are read off a text: a name
is normalised when it is read, which changes nothing of a name that has been normalised before, and
a duration is read back from its text (`Duration.parse?_text`).
-/

namespace AdaptiveRouting

variable {τ σ : Type}

/-- Faults that say that bytes are missing at the end. -/
def DecodeFault.IsCutOff (fault : DecodeFault) : Prop := fault = .endOfInput ∨ fault = .endOfText

namespace Frame

/-! ## Readers that know where to stop -/

/-- A reader of a field takes some bytes for a value and leaves what follows them; if any of them
are missing at the end, it says so. -/
structure Delimits (read : FieldReader τ) (bytes : List UInt8) (x : τ) : Prop where
  /-- What follows is left. -/
  reads (rest : List UInt8) : read (bytes ++ rest) = .ok (x, rest)
  /-- Nothing can be missing. -/
  cutOff {part : List UInt8} : part <+: bytes → part ≠ bytes →
    ∃ fault : DecodeFault, fault.IsCutOff ∧ read part = .error fault

/-- What has to come of reading an input: a value if the input begins with some bytes, and a fault
if it is the beginning of them and no more. -/
structure Captures (bytes : List UInt8) (x : τ) (input : List UInt8)
    (result : Except DecodeFault τ) : Prop where
  /-- What follows makes no difference. -/
  reads {rest : List UInt8} : input = bytes ++ rest → result = .ok x
  /-- Nothing can be missing. -/
  cutOff : input <+: bytes → input ≠ bytes →
    ∃ fault : DecodeFault, fault.IsCutOff ∧ result = .error fault

/-- Part of two pieces is part of the first, or all of it and part of the second. -/
theorem prefix_append_cases {part as bs : List UInt8} (h : part <+: as ++ bs)
    (hne : part ≠ as ++ bs) :
    (part <+: as ∧ part ≠ as) ∨ ∃ more, part = as ++ more ∧ more <+: bs ∧ more ≠ bs := by
  obtain ⟨rest, hrest⟩ := h
  rcases List.append_eq_append_iff.1 hrest with ⟨cut, has, -⟩ | ⟨more, hpart, hbs⟩
  · by_cases hpart : part = as
    · subst hpart
      refine .inr ⟨[], (List.append_nil _).symm, List.nil_prefix, ?_⟩
      rintro rfl
      exact hne (List.append_nil _).symm
    · exact .inl ⟨⟨cut, has.symm⟩, hpart⟩
  · refine .inr ⟨more, hpart, ⟨rest, hbs.symm⟩, ?_⟩
    rintro rfl
    exact hne hpart

/-- One field is read, and then the others. -/
theorem Delimits.captures {read : FieldReader τ} {as bs : List UInt8} {x : τ} {y : σ}
    (h : Delimits read as x) {next : τ × List UInt8 → Except DecodeFault σ}
    (hnext : ∀ rest, Captures bs y rest (next (x, rest))) (input : List UInt8) :
    Captures (as ++ bs) y input (read input >>= next) where
  reads {rest} hinput := by
    rw [hinput, List.append_assoc, h.reads]
    exact (hnext _).reads rfl
  cutOff hpart hne := by
    rcases prefix_append_cases hpart hne with ⟨hfirst, hne⟩ | ⟨more, rfl, hmore, hne⟩
    · obtain ⟨fault, hcut, hread⟩ := h.cutOff hfirst hne
      exact ⟨fault, hcut, by rw [hread]; rfl⟩
    · rw [h.reads]
      exact (hnext _).cutOff hmore hne

/-- When all fields have been read, nothing is missing. -/
theorem captures_nil (x : τ) (input : List UInt8) : Captures [] x input (.ok x) where
  reads _ := rfl
  cutOff hpart hne := absurd (List.prefix_nil.1 hpart) hne

/-- What is read can be made part of something else. -/
theorem Captures.map {bytes input : List UInt8} {x : τ} {result : Except DecodeFault τ}
    (h : Captures bytes x input result) (f : τ → σ) :
    Captures bytes (f x) input (result >>= fun x => .ok (f x)) where
  reads {rest} hinput := by rw [h.reads hinput]; rfl
  cutOff hpart hne := by
    obtain ⟨fault, hcut, hread⟩ := h.cutOff hpart hne
    exact ⟨fault, hcut, by rw [hread]; rfl⟩

/-! ## Numbers -/

/-- A number takes as many bytes as its width. -/
theorem length_littleEndian (width n : Nat) : (littleEndian width n).length = width := by
  induction width generalizing n with
  | zero => rfl
  | succ width ih => rw [littleEndian, List.length_cons, ih]

/-- A number that fits its width is read back. -/
theorem readNumber_littleEndian {width n : Nat} (h : n < 256 ^ width) (rest : List UInt8) :
    readNumber width (littleEndian width n ++ rest) = .ok (n, rest) := by
  induction width generalizing n with
  | zero =>
    have hn : n = 0 := Nat.lt_one_iff.1 h
    rw [hn]
    rfl
  | succ width ih =>
    have hhigh : n / 256 < 256 ^ width :=
      Nat.div_lt_of_lt_mul (by rwa [Nat.pow_succ, Nat.mul_comm] at h)
    have hlow : (UInt8.ofNat (n % 256)).toNat = n % 256 := by simp
    rw [littleEndian, List.cons_append, readNumber, ih hhigh]
    dsimp only
    rw [hlow, Nat.mod_add_div]

/-- A number cannot be read from fewer bytes than its width. -/
theorem readNumber_of_short {width : Nat} {bytes : List UInt8} (h : bytes.length < width) :
    readNumber width bytes = .error .endOfInput := by
  induction width generalizing bytes with
  | zero => exact absurd h (Nat.not_lt_zero _)
  | succ width ih =>
    cases bytes with
    | nil => rfl
    | cons b rest => rw [readNumber, ih (Nat.lt_of_succ_lt_succ h)]

/-- A prefix that is not the whole is shorter. -/
theorem length_lt_of_prefix {part bytes : List UInt8} (h : part <+: bytes) (hne : part ≠ bytes) :
    part.length < bytes.length :=
  Nat.lt_of_le_of_ne h.length_le fun heq => hne (h.eq_of_length heq)

/-- A number delimits itself by its width. -/
theorem delimits_number {width n : Nat} (h : n < 256 ^ width) :
    Delimits (readNumber width) (littleEndian width n) n where
  reads := readNumber_littleEndian h
  cutOff hpart hne := by
    have hshort := length_lt_of_prefix hpart hne
    rw [length_littleEndian] at hshort
    exact ⟨_, .inl rfl, readNumber_of_short hshort⟩

/-! ## Fields -/

/-- A length with bytes of that length behind it: either the length is cut off, or it is read and
the bytes behind it are too few. -/
theorem readNumber_of_cutOff {body part : List UInt8} (h : body.length < 256 ^ 8)
    (hpart : part <+: littleEndian 8 body.length ++ body)
    (hne : part ≠ littleEndian 8 body.length ++ body) :
    readNumber 8 part = .error .endOfInput ∨
    ∃ rest, readNumber 8 part = .ok (body.length, rest) ∧ rest.length < body.length := by
  rcases prefix_append_cases hpart hne with ⟨hfirst, hne⟩ | ⟨more, rfl, hmore, hne⟩
  · have hshort := length_lt_of_prefix hfirst hne
    rw [length_littleEndian] at hshort
    exact .inl (readNumber_of_short hshort)
  · exact .inr ⟨more, readNumber_littleEndian h more, length_lt_of_prefix hmore hne⟩

/-- A text delimits itself by the length in front. -/
theorem delimits_text {s : String} (h : (Utf8.encode s.toList).length < 256 ^ 8) :
    Delimits readText (textBytes s) s where
  reads rest := by
    unfold readText textBytes
    dsimp only
    rw [List.append_assoc, readNumber_littleEndian h]
    dsimp only
    rw [if_neg (by simp), List.take_left, List.drop_left, Utf8.decode_encode]
    dsimp only
    rw [String.ofList_toList]
  cutOff {part} hpart hne := by
    unfold readText
    rcases readNumber_of_cutOff h hpart hne with hnumber | ⟨rest, hnumber, hshort⟩
    · exact ⟨_, .inl rfl, by rw [hnumber]⟩
    · refine ⟨_, .inr rfl, ?_⟩
      rw [hnumber]
      exact if_pos hshort

/-- A blob delimits itself by the length in front. -/
theorem delimits_blob {bytes : List UInt8} (h : bytes.length < 256 ^ 8) :
    Delimits readBlob (blobBytes bytes) bytes where
  reads rest := by
    unfold readBlob blobBytes
    rw [List.append_assoc, readNumber_littleEndian h]
    dsimp only
    rw [if_neg (by simp), List.take_left, List.drop_left]
  cutOff {part} hpart hne := by
    unfold readBlob
    rcases readNumber_of_cutOff h hpart hne with hnumber | ⟨rest, hnumber, hshort⟩
    · exact ⟨_, .inl rfl, by rw [hnumber]⟩
    · refine ⟨_, .inl rfl, ?_⟩
      rw [hnumber]
      exact if_pos hshort

/-- What is read off a text. -/
theorem Delimits.of_text {read : FieldReader τ} {s : String} {x : τ}
    (h : Delimits readText (textBytes s) s)
    (hreads : ∀ bytes rest, readText bytes = .ok (s, rest) → read bytes = .ok (x, rest))
    (hfails : ∀ bytes fault, readText bytes = .error fault → read bytes = .error fault) :
    Delimits read (textBytes s) x where
  reads rest := hreads _ _ (h.reads rest)
  cutOff {part} hpart hne := by
    obtain ⟨fault, hcut, hread⟩ := h.cutOff hpart hne
    exact ⟨fault, hcut, hfails _ _ hread⟩

/-- A name delimits itself as a text. -/
theorem delimits_name {name : Name} (h : (Utf8.encode name.text.toList).length < 256 ^ 8) :
    Delimits readName (textBytes name.text) name := by
  refine (delimits_text h).of_text (fun bytes rest hread => ?_) fun bytes fault hread => ?_
  · rw [readName, hread]
    dsimp only
    rw [Name.ofString_text]
  · rw [readName, hread]

/-- A duration delimits itself as a text. -/
theorem delimits_duration {d : Duration} (hd : d.seconds < wordBound)
    (h : (Utf8.encode d.text.toList).length < 256 ^ 8) :
    Delimits readDuration (textBytes d.text) d := by
  refine (delimits_text h).of_text (fun bytes rest hread => ?_) fun bytes fault hread => ?_
  · rw [readDuration, hread]
    dsimp only
    rw [Duration.parse?_text hd]
  · rw [readDuration, hread]

/-- A flag is one byte. -/
theorem delimits_flag (b : Bool) : Delimits readFlag (flagBytes b) b where
  reads rest := by cases b <;> rfl
  cutOff {part} hpart hne := by
    have hshort := length_lt_of_prefix hpart hne
    obtain rfl : part = [] := List.length_eq_zero_iff.1 (Nat.lt_one_iff.1 hshort)
    exact ⟨_, .inl rfl, rfl⟩

/-! ## Frames -/

/-- The times in a frame fit into 64 bits of seconds. -/
def TimesFit : Frame → Prop
  | .request r => r.lifetime.seconds < wordBound
  | .response r => r.freshness.seconds < wordBound
  | .nack _ => True

instance : DecidablePred TimesFit
  | .request r => inferInstanceAs (Decidable (r.lifetime.seconds < wordBound))
  | .response r => inferInstanceAs (Decidable (r.freshness.seconds < wordBound))
  | .nack _ => inferInstanceAs (Decidable True)

/-- Reading captures a request. -/
theorem captures_request {r : ProbeRequest} (hr : r.lifetime.seconds < wordBound)
    (hname : (Utf8.encode r.name.text.toList).length < 256 ^ 8)
    (htime : (Utf8.encode r.lifetime.text.toList).length < 256 ^ 8) (input : List UInt8) :
    Captures (textBytes r.name.text ++ (textBytes r.lifetime.text ++
      (flagBytes r.mustBeFresh ++ []))) r input (readRequest input) := by
  refine (delimits_name hname).captures (fun _ => ?_) input
  refine (delimits_duration hr htime).captures (fun _ => ?_) _
  exact (delimits_flag r.mustBeFresh).captures (captures_nil r) _

/-- Reading captures a response. -/
theorem captures_response {r : ProbeResponse} (hr : r.freshness.seconds < wordBound)
    (hname : (Utf8.encode r.name.text.toList).length < 256 ^ 8)
    (hcontent : (Utf8.encode r.content.toList).length < 256 ^ 8)
    (htime : (Utf8.encode r.freshness.text.toList).length < 256 ^ 8)
    (hsignature : r.signature.length < 256 ^ 8) (input : List UInt8) :
    Captures (textBytes r.name.text ++ (textBytes r.content ++
      (textBytes r.freshness.text ++ (blobBytes r.signature ++ [])))) r input
      (readResponse input) := by
  refine (delimits_name hname).captures (fun _ => ?_) input
  refine (delimits_text hcontent).captures (fun _ => ?_) _
  refine (delimits_duration hr htime).captures (fun _ => ?_) _
  exact (delimits_blob hsignature).captures (captures_nil r) _

/-- No field of a frame that fits is too long for the number that tells its length. -/
theorem captures_bytes {f : Frame} (hf : f.TimesFit) (h : f.bytes.length ≤ maxFrame)
    (input : List UInt8) : Captures f.bytes f input (read input) := by
  have hvariant : ∀ variant < 3, Delimits (readNumber 4) (littleEndian 4 variant) variant :=
    fun variant hlt => delimits_number (Nat.lt_trans hlt (by decide))
  unfold read
  cases f with
  | request r =>
    have hbytes : (Frame.request r).bytes = littleEndian 4 0 ++ (textBytes r.name.text ++
        (textBytes r.lifetime.text ++ (flagBytes r.mustBeFresh ++ []))) := by simp [bytes]
    rw [hbytes] at h ⊢
    -- each field is shorter than the whole frame, which is far below `256 ^ 8`
    simp only [textBytes, List.length_append, maxFrame] at h
    exact (hvariant 0 (by decide)).captures
      (fun rest => (captures_request hf (by omega) (by omega) rest).map Frame.request) input
  | response r =>
    have hbytes : (Frame.response r).bytes = littleEndian 4 1 ++ (textBytes r.name.text ++
        (textBytes r.content ++ (textBytes r.freshness.text ++
          (blobBytes r.signature ++ [])))) := by simp [bytes]
    rw [hbytes] at h ⊢
    simp only [textBytes, blobBytes, List.length_append, maxFrame] at h
    exact (hvariant 1 (by decide)).captures (fun rest => (captures_response hf (by omega)
      (by omega) (by omega) (by omega) rest).map Frame.response) input
  | nack name =>
    have hbytes : (Frame.nack name).bytes = littleEndian 4 2 ++ (textBytes name.text ++ []) := by
      simp [bytes]
    rw [hbytes] at h ⊢
    simp only [textBytes, List.length_append, maxFrame] at h
    exact (hvariant 2 (by decide)).captures (fun _ =>
      (delimits_name (by omega)).captures (captures_nil (Frame.nack name)) _) input

/-- A frame can be encoded exactly if its bytes are not too many, and then as these. -/
theorem encode_eq_ok_iff {f : Frame} {b : List UInt8} :
    f.encode = .ok b ↔ f.bytes.length ≤ maxFrame ∧ f.bytes = b := by
  unfold encode
  split
  · next h => simp [Nat.not_le.2 h]
  · next h => simp [Nat.not_lt.1 h]

end Frame

/-- **Frames are self-delimiting, and nothing is lost.** Where a frame can be written, its bytes are
read as that frame, whatever follows them; and if any of them are missing at the end, reading fails
to decode them, since bytes or the end of a text are missing. -/
theorem frames_self_delimiting {f : Frame} {b : List UInt8} (hf : f.TimesFit)
    (h : f.encode = .ok b) :
    (∀ rest : List UInt8, Frame.decode (b ++ rest) = .ok f) ∧
    ∀ part : List UInt8, part <+: b → part ≠ b → ∃ fault : DecodeFault, fault.IsCutOff ∧
      Frame.decode part = .error (.deserialization fault.message) := by
  obtain ⟨hfits, rfl⟩ := Frame.encode_eq_ok_iff.1 h
  refine ⟨fun rest => ?_, fun part hpart hne => ?_⟩
  · have hread : Frame.read (f.bytes ++ rest) = .ok f := (Frame.captures_bytes hf hfits _).reads rfl
    rw [Frame.decode, hread]
  · obtain ⟨fault, hcut, hread⟩ := (Frame.captures_bytes hf hfits part).cutOff hpart hne
    exact ⟨fault, hcut, by rw [Frame.decode, hread]⟩

/-- A response with the longest freshness there is, and with a content and a signature that are not
all plain characters. -/
def longestResponse : Frame :=
  .response ⟨.ofString "router/b/link-cost/rtt-probe/7", "höh — 𝄞",
    18446744073709551615999999999, [0, 255]⟩

/-- The longest response is read in front of other bytes, and not without its last byte. -/
theorem longestResponse_self_delimiting :
    longestResponse.TimesFit ∧ longestResponse.encode = .ok longestResponse.bytes ∧
    Frame.decode (longestResponse.bytes ++ [9, 9]) = .ok longestResponse ∧
    ∃ fault : DecodeFault, fault.IsCutOff ∧
      Frame.decode longestResponse.bytes.dropLast = .error (.deserialization fault.message) := by
  have hfit : longestResponse.TimesFit := by decide
  have hwritten : longestResponse.encode = .ok longestResponse.bytes :=
    Frame.encode_eq_ok_iff.2 ⟨by decide +kernel, rfl⟩
  obtain ⟨hreads, hcutOff⟩ := frames_self_delimiting hfit hwritten
  refine ⟨hfit, hwritten, hreads [9, 9], hcutOff _ (List.dropLast_prefix _) fun h => ?_⟩
  have hlength := congrArg List.length h
  rw [List.length_dropLast] at hlength
  have hpos : 0 < longestResponse.bytes.length := by decide +kernel
  omega

end AdaptiveRouting
