import AdaptiveRouting.Proofs.Decimal.Nearest

/-!
# The bits of floating-point numbers

`Magnitude.ofFloat` takes a floating-point number apart by dividing its bits as an integer,
arithmetic by cutting them into fields; both find the same (`unpack_toModel`). A number is
determined by what is found (`float_ext`), and a canonical significand is found again, with its
exponent, when it has been packed (`unpack_pack`).
-/

namespace AdaptiveRouting

open Float.Model Float.Model.UnpackedFloat
open Magnitude (hiddenBit signBit isNegative ofFloat leastExponent)

/-- The number with a sign, eleven bits of an exponent and 52 of a significand. -/
def assembled (s : Sign) (exponent mantissa : Nat) : UnpackedFloat :=
  if exponent = 2047 then if mantissa = 0 then .infinity s else .notANumber
  else if exponent = 0 then
    if h : 0 < mantissa then .finite s mantissa leastExponent h else .zero s
  else .finite s (mantissa + hiddenBit) (exponent + leastExponent - 1)
    (Nat.add_pos_right _ (by decide))

/-- Finite numbers of equal mantissas and exponents are equal. -/
theorem finite_congr {s : Sign} {m m' : Nat} {q q' : Int} (hm : m = m') (hq : q = q') (h : 0 < m)
    (h' : 0 < m') : UnpackedFloat.finite s m q h = .finite s m' q' h' := by
  subst hm hq
  rfl

/-- The leading bit, which is not stored. -/
theorem toNat_leading (b : BitVec 52) : (1#1 ++ b).toNat = b.toNat + hiddenBit := by
  rw [BitVec.toNat_append, ← Nat.shiftLeft_add_eq_or_of_lt b.isLt, Nat.add_comm]
  rfl

/-- What has been packed from its fields is unpacked into what these stand for. -/
theorem unpack_packComponents (s : Sign) (exponent : BitVec 11) (mantissa : BitVec 52) :
    UnpackedFloat.unpack Format.binary64 (packComponents Format.binary64 s exponent mantissa) =
      assembled s exponent.toNat mantissa.toNat := by
  have hones : exponent = -1#11 ↔ exponent.toNat = 2047 := by
    rw [← BitVec.toNat_inj]
    rfl
  have hzeros : exponent = 0#11 ↔ exponent.toNat = 0 := by
    rw [← BitVec.toNat_inj]
    rfl
  have hzero : mantissa = 0#52 ↔ mantissa.toNat = 0 := by
    rw [← BitVec.toNat_inj]
    rfl
  rw [UnpackedFloat.unpack, assembled]
  simp only [unpackMantissa_packComponents, unpackExponent_packComponents,
    unpackSign_packComponents, Sign.ofBitVec_toBitVec, hones, hzeros, hzero]
  -- The highest exponent stands for no finite number, the lowest for one without a leading bit.
  by_cases h2047 : exponent.toNat = 2047
  · rw [if_pos h2047, if_pos h2047]
  rw [if_neg h2047, if_neg h2047]
  by_cases h0 : exponent.toNat = 0
  · rw [if_pos h0, if_pos h0]
    by_cases hm : mantissa.toNat = 0
    · simp [hm]
    · simp only [hm, dite_false, Nat.pos_of_ne_zero hm, dite_true]
      refine finite_congr rfl ?_ _ _
      rw [h0]
      rfl
  · rw [if_neg h0, if_neg h0]
    refine finite_congr (toNat_leading mantissa) ?_ _ _
    change (_ : Int) - 1075 = _ + -1074 - 1
    omega

/-! ## Taking numbers apart -/

/-- The sign of a floating-point number. -/
def signOf (x : Float) : Sign := if isNegative x then .negative else .positive

/-- The sign bit of a number says whether it is negative. -/
theorem ofBitVec_sign (x : Float) :
    Sign.ofBitVec (@unpackSign Format.binary64 x.toBits.toBitVec) = signOf x := by
  have hlt : x.toBits.toNat < 2 ^ 64 := x.toBits.toNat_lt
  have hsign : (@unpackSign Format.binary64 x.toBits.toBitVec).toNat =
      x.toBits.toNat / 2 ^ 63 % 2 := by
    rw [unpackSign_def, BitVec.extractLsb'_toNat, Nat.shiftRight_eq_div_pow]
    rfl
  have hzero : @unpackSign Format.binary64 x.toBits.toBitVec = 0#1 ↔
      ¬ signBit ≤ x.toBits.toNat := by
    rw [← BitVec.toNat_inj, hsign, signBit]
    change _ = 0 ↔ _
    omega
  rw [Sign.ofBitVec, signOf, isNegative]
  by_cases h : signBit ≤ x.toBits.toNat
  · rw [if_neg (fun h0 => hzero.1 h0 h), if_pos (decide_eq_true h)]
  · rw [if_pos (hzero.2 h), if_neg (by simpa using h)]

/-- What a floating-point number is. -/
def unpacked (x : Float) : UnpackedFloat :=
  match ofFloat x with
  | .undefined => .notANumber
  | .infinite => .infinity (signOf x)
  | .finite m q => if h : 0 < m then .finite (signOf x) m q h else .zero (signOf x)

/-- The unpacked form of a number is the one that its bits stand for. -/
theorem unpack_toModel (x : Float) : x.toModel.unpack = unpacked x := by
  have hmantissa : (@unpackMantissa Format.binary64 x.toBits.toBitVec).toNat =
      x.toBits.toNat % hiddenBit := by
    rw [unpackMantissa_def, BitVec.extractLsb'_toNat]
    rfl
  have hexponent : (@unpackExponent Format.binary64 x.toBits.toBitVec).toNat =
      x.toBits.toNat / hiddenBit % 2048 := by
    rw [unpackExponent_def, BitVec.extractLsb'_toNat, Nat.shiftRight_eq_div_pow]
    rfl
  have hbits := unpack_packComponents (signOf x)
    (@unpackExponent Format.binary64 x.toBits.toBitVec)
    (@unpackMantissa Format.binary64 x.toBits.toBitVec)
  rw [← ofBitVec_sign, packComponents_unpackSign_unpackExponent_unpackMantissa, ofBitVec_sign,
    hmantissa, hexponent] at hbits
  refine hbits.trans ?_
  rw [assembled, unpacked, ofFloat]
  generalize x.toBits.toNat / hiddenBit % 2048 = exponent
  generalize x.toBits.toNat % hiddenBit = mantissa
  by_cases h2047 : exponent = 2047
  · rw [if_pos h2047, if_pos h2047]
    by_cases hm : mantissa = 0
    · rw [if_pos hm, if_pos hm]
    · rw [if_neg hm, if_neg hm]
  rw [if_neg h2047, if_neg h2047]
  by_cases h0 : exponent = 0
  · rw [if_pos h0, if_pos h0]
  · rw [if_neg h0, if_neg h0]
    exact (dif_pos (Nat.add_pos_right _ (by decide))).symm

/-- Numbers of the same unpacked form are the same. -/
theorem float_ext {x y : Float} (h : x.toModel.unpack = y.toModel.unpack) : x = y := by
  obtain ⟨⟨a, ha⟩⟩ := x
  obtain ⟨⟨b, hb⟩⟩ := y
  have hbits := (unpack_inj_of_valid ha hb (by decide)).1 h
  obtain rfl : a = b := UInt64.toBitVec_inj.1 hbits
  rfl

/-- The significand and the exponent that a number is taken apart into. -/
theorem canonical_of_ofFloat {x : Float} {m : Nat} {q : Int} (h : ofFloat x = .finite m q)
    (hm : 0 < m) : Canonical m q ∧ q ≤ 971 := by
  have hmantissa : x.toBits.toNat % hiddenBit < 2 ^ 52 := Nat.mod_lt _ (by decide)
  have hexponent : x.toBits.toNat / hiddenBit % 2048 < 2048 := Nat.mod_lt _ (by decide)
  rw [ofFloat] at h
  generalize x.toBits.toNat / hiddenBit % 2048 = exponent at *
  generalize x.toBits.toNat % hiddenBit = mantissa at *
  by_cases h2047 : exponent = 2047
  · rw [if_pos h2047] at h
    split at h <;> cases h
  rw [if_neg h2047] at h
  by_cases h0 : exponent = 0
  · rw [if_pos h0] at h
    cases h
    exact ⟨⟨hm, by omega, le_rfl, .inl rfl⟩, by decide⟩
  · rw [if_neg h0] at h
    cases h
    simp only [hiddenBit, leastExponent] at *
    exact ⟨⟨hm, by omega, by omega, .inr (by omega)⟩, by omega⟩

/-! ## Putting numbers together -/

/-- A number with a leading bit is packed with its exponent, one without with the exponent of the
subnormal numbers. -/
theorem pack_finite (s : Sign) {m : Nat} {q : Int} (hc : Canonical m q) (hq : q ≤ 971) :
    UnpackedFloat.pack Format.binary64 (.finite s m q hc.pos) =
      packComponents Format.binary64 s
        (if 2 ^ 52 ≤ m then BitVec.ofNat 11 (q + 1075).toNat else 0#11) (BitVec.ofNat 52 m) := by
  have hleast := hc.least
  have hbiased : (q + Format.binary64.exponentBias +
      Format.binary64.mantissaBitsWithoutImplicit).toNat = (q + 1075).toNat := by
    congr 1
    change q + 1023 + 52 = _
    omega
  have hfits : ¬ 2 ^ 11 ≤ (q + 1075).toNat + 1 := by omega
  rw [UnpackedFloat.pack]
  simp only [hbiased]
  rw [if_neg hfits]
  -- `pack` looks at the length of the mantissa, which is that of a full one exactly if it has the
  -- leading bit.
  by_cases hlead : 2 ^ 52 ≤ m
  · have hlog : m.log2 + 1 = Format.binary64.mantissaBits := by
      have h1 := (Nat.le_log2 hc.pos.ne').2 hlead
      have h2 := (Nat.log2_lt hc.pos.ne').2 hc.bound
      change m.log2 + 1 = 53
      omega
    rw [if_pos hlog, if_pos hlead]
  · have hlog : ¬ m.log2 + 1 = Format.binary64.mantissaBits := by
      have h2 := (Nat.log2_lt hc.pos.ne').2 (Nat.not_le.1 hlead)
      change ¬ m.log2 + 1 = 53
      omega
    rw [if_neg hlog, if_neg hlead]

/-- What is packed is found again. -/
theorem unpack_pack (s : Sign) {m : Nat} {q : Int} (hc : Canonical m q) (hq : q ≤ 971) :
    (Float.Model.pack (.finite s m q hc.pos)).unpack = .finite s m q hc.pos := by
  have hleast := hc.least
  have hbound := hc.bound
  have hpos := hc.pos
  have hexponent : (BitVec.ofNat 11 (q + 1075).toNat).toNat = (q + 1075).toNat := by
    rw [BitVec.toNat_ofNat, Nat.mod_eq_of_lt (by omega)]
  have hmantissa : (BitVec.ofNat 52 m).toNat = m % 2 ^ 52 := BitVec.toNat_ofNat _ _
  change UnpackedFloat.unpack Format.binary64 (UnpackedFloat.pack Format.binary64 _) = _
  rw [pack_finite s hc hq, unpack_packComponents, hmantissa, assembled]
  by_cases hlead : 2 ^ 52 ≤ m
  · rw [if_pos hlead, hexponent, if_neg (by omega), if_neg (by omega)]
    refine finite_congr ?_ ?_ _ _
    · simp only [hiddenBit]
      omega
    · simp only [leastExponent]
      omega
  · rw [if_neg hlead, if_neg (by decide), if_pos (show (0#11).toNat = 0 from rfl),
      dif_pos (by omega)]
    refine finite_congr (by omega) ?_ _ _
    have := hc.leading.resolve_right hlead
    simp only [leastExponent]
    omega

end AdaptiveRouting
