import DirectionField.Number.Binary
import Mathlib.Algebra.Group.Nat.Defs

/-!
# Floating-point numbers and their bit patterns

Core's model of a `Float` unpacks a bit pattern into sign, exponent and mantissa and packs them again.
Here both are arithmetic on the bit pattern as a natural number: the mantissa is its remainder by
`2 ^ 52`, the exponent field is what comes next, and the sign is the leading bit. Packing undoes
unpacking on every pattern that is not a NaN (`pack_unpack`), so that a number keeps the sign and the
magnitude it is made of.
-/

namespace DirectionField

open Float.Model (UnpackedFloat Format)
open Float.Model.UnpackedFloat (packComponents unpackSign unpackExponent unpackMantissa)

/-! ## The fields of a bit pattern -/

/-- The mantissa field is the remainder by `2 ^ 52`. -/
theorem toNat_unpackMantissa (b : BitVec 64) :
    (@unpackMantissa .binary64 b).toNat = b.toNat % 2 ^ 52 := by
  unfold unpackMantissa
  rw [BitVec.toNat_cast, BitVec.extractLsb_toNat, Nat.shiftRight_zero]
  rfl

/-- The exponent field is the eleven bits above the mantissa. -/
theorem toNat_unpackExponent (b : BitVec 64) :
    (@unpackExponent .binary64 b).toNat = b.toNat / 2 ^ 52 % 2 ^ 11 := by
  unfold unpackExponent
  rw [BitVec.toNat_cast, BitVec.extractLsb_toNat, Nat.shiftRight_eq_div_pow]
  rfl

/-- The sign is the leading bit. -/
theorem toNat_unpackSign (b : BitVec 64) :
    (@unpackSign .binary64 b).toNat = b.toNat / 2 ^ 63 := by
  unfold unpackSign
  have hb := b.isLt
  rw [BitVec.toNat_cast, BitVec.extractLsb_toNat, Nat.shiftRight_eq_div_pow]
  show b.toNat / 2 ^ 63 % 2 ^ 1 = _
  omega

/-- One bit pattern in front of another, as a number. -/
theorem toNat_append (m n : Nat) (x : BitVec m) (y : BitVec n) :
    (x ++ y).toNat = x.toNat * 2 ^ n + y.toNat := by
  rw [BitVec.toNat_append, ← Nat.shiftLeft_add_eq_or_of_lt y.isLt, Nat.shiftLeft_eq]

/-- The three fields as one number. -/
theorem toNat_packComponents (s : UnpackedFloat.Sign) (e : BitVec 11) (m : BitVec 52) :
    (packComponents .binary64 s e m).toNat =
      s.toBitVec.toNat * 2 ^ 63 + e.toNat * 2 ^ 52 + m.toNat := by
  unfold packComponents
  rw [toNat_append, toNat_append]
  show (_ * 2 ^ 11 + _) * 2 ^ 52 + _ = _
  omega

/-- A sign keeps its bit. -/
theorem toNat_toBitVec_ofBitVec (s : BitVec 1) :
    (UnpackedFloat.Sign.ofBitVec s).toBitVec.toNat = s.toNat := by
  have h := s.isLt
  unfold UnpackedFloat.Sign.ofBitVec
  by_cases hs : s = 0#1
  · rw [if_pos hs, hs]; rfl
  · rw [if_neg hs]
    have hne : s.toNat ≠ 0 := fun h0 => hs (BitVec.toNat_inj.1 h0)
    show 1 = s.toNat
    omega

/-! ## Packing what was unpacked -/

/-- The fields of a bit pattern, packed, are the bit pattern. -/
theorem packComponents_unpack (b : BitVec 64) (e : BitVec 11) (m : BitVec 52)
    (he : e.toNat = b.toNat / 2 ^ 52 % 2 ^ 11) (hm : m.toNat = b.toNat % 2 ^ 52) :
    packComponents .binary64 (UnpackedFloat.Sign.ofBitVec (@unpackSign .binary64 b)) e m = b := by
  apply BitVec.eq_of_toNat_eq
  rw [toNat_packComponents, toNat_toBitVec_ofBitVec, toNat_unpackSign, he, hm]
  omega

/-- A mantissa that does not reach the implicit bit is stored as it is, below an exponent field of
    zero. -/
theorem pack_subnormal (s : UnpackedFloat.Sign) {m : Nat} (hpos : 0 < m) (hm : m < 2 ^ 52) :
    UnpackedFloat.pack .binary64 (.finite s m (-1074) hpos) =
      packComponents .binary64 s 0#11 (BitVec.ofNat 52 m) := by
  have hlog : m.log2 < 52 := (Nat.log2_lt (by omega)).2 hm
  unfold UnpackedFloat.pack
  dsimp only
  rw [if_neg (by decide), if_neg (by show ¬ m.log2 + 1 = 53; omega)]

/-- A mantissa of 53 bits loses its leading one, and the exponent is stored with its bias. -/
theorem pack_normal (s : UnpackedFloat.Sign) {e m : Nat} (he : e < 2 ^ 11 - 1) (hlo : 2 ^ 52 ≤ m)
    (hhi : m < 2 ^ 53) :
    UnpackedFloat.pack .binary64 (.finite s m ((e : Int) - 1075) (by omega)) =
      packComponents .binary64 s (BitVec.ofNat 11 e) (BitVec.ofNat 52 m) := by
  have hlog : m.log2 = 52 := (Nat.log2_eq_iff (by omega)).2 ⟨hlo, hhi⟩
  have hbiased : ((e : Int) - 1075 + (1023 : Nat) + (52 : Nat)).toNat = e := by omega
  -- the biased exponent is the field itself, so neither overflow nor a subnormal number is met
  unfold UnpackedFloat.pack
  show (if 2 ^ 11 ≤ ((e : Int) - 1075 + (1023 : Nat) + (52 : Nat)).toNat + 1 then _
    else if m.log2 + 1 = 53 then
      packComponents _ s (BitVec.ofNat _ ((e : Int) - 1075 + (1023 : Nat) + (52 : Nat)).toNat) _
    else _) = _
  rw [hbiased, hlog, if_neg (by omega), if_pos rfl]

/-- Packing undoes unpacking, except of a NaN. -/
theorem pack_unpack (b : BitVec 64) (h : b.toNat % 2 ^ 63 ≤ infinityBits) :
    UnpackedFloat.pack .binary64 (UnpackedFloat.unpack .binary64 b) = b := by
  have hE := toNat_unpackExponent b
  have hM := toNat_unpackMantissa b
  unfold UnpackedFloat.unpack
  dsimp only
  unfold infinityBits at h
  by_cases he : @unpackExponent .binary64 b = -1#11
  · -- the exponent field is full, and a NaN is excluded
    have hE' : b.toNat / 2 ^ 52 % 2 ^ 11 = 2047 := by rw [← hE, he]; rfl
    have hm : @unpackMantissa .binary64 b = 0#52 := by
      apply BitVec.eq_of_toNat_eq
      rw [hM]
      show _ = 0
      omega
    rw [if_pos he, if_pos hm]
    exact packComponents_unpack b _ _ hE'.symm (by rw [← hM, hm]; rfl)
  · -- a finite number: the exponent field tells zero and subnormal numbers from normal ones
    rw [if_neg he]
    have hEne : b.toNat / 2 ^ 52 % 2 ^ 11 ≠ 2047 := by
      intro hc
      exact he (BitVec.eq_of_toNat_eq (by rw [hE, hc]; rfl))
    by_cases h0 : @unpackExponent .binary64 b = 0#11
    · have hE0 : b.toNat / 2 ^ 52 % 2 ^ 11 = 0 := by rw [← hE, h0]; rfl
      rw [if_pos h0]
      by_cases hm : @unpackMantissa .binary64 b = 0#52
      · rw [dif_pos hm]
        exact packComponents_unpack b _ _ hE0.symm (by rw [← hM, hm]; rfl)
      · rw [dif_neg hm]
        -- a subnormal number, whose exponent is that of the smallest normal one
        have hpos : 0 < (@unpackMantissa .binary64 b).toNat := by
          refine Nat.pos_of_ne_zero fun hc => hm (BitVec.eq_of_toNat_eq ?_)
          rw [hc]; rfl
        have hexp : ((@unpackExponent .binary64 b).toNat : Int) -
            ((Format.binary64.exponentBias : Nat) +
              (Format.binary64.mantissaBitsWithoutImplicit : Nat)) + 1 = -1074 := by
          rw [h0]; rfl
        rw [hexp]
        rw [pack_subnormal _ hpos (@unpackMantissa .binary64 b).isLt, BitVec.ofNat_toNat,
          BitVec.setWidth_eq]
        exact packComponents_unpack b _ _ hE0.symm hM
    · rw [if_neg h0]
      have hexp : ((@unpackExponent .binary64 b).toNat : Int) -
          ((Format.binary64.exponentBias : Nat) +
            (Format.binary64.mantissaBitsWithoutImplicit : Nat)) =
          (b.toNat / 2 ^ 52 % 2 ^ 11 : Nat) - 1075 := by
        rw [hE]; rfl
      -- a normal number, whose leading bit is added and then dropped again
      have hmant : (1#1 ++ @unpackMantissa .binary64 b).toNat =
          2 ^ 52 + b.toNat % 2 ^ 52 := by
        rw [toNat_append, hM]; rfl
      rw [hexp, pack_normal _ (by omega) (by omega) (by omega)]
      refine packComponents_unpack b _ _ ?_ ?_
      · rw [BitVec.toNat_ofNat, Nat.mod_mod]
      · rw [BitVec.toNat_ofNat, hmant]; omega

/-! ## Numbers -/

/-- A number keeps its bit pattern, unless it is a NaN. -/
theorem toBits_ofBits (b : UInt64) (h : b.toNat % 2 ^ 63 ≤ infinityBits) :
    (Float.ofBits b).toBits = b := by
  show UInt64.ofBitVec (UnpackedFloat.pack .binary64 (UnpackedFloat.unpack .binary64 b.toBitVec)) = b
  rw [pack_unpack b.toBitVec h]

/-- A bit pattern is a finite number if its magnitude is below that of infinity. -/
theorem isFinite_unpack_iff (b : BitVec 64) :
    (UnpackedFloat.unpack .binary64 b).isFinite = true ↔ b.toNat % 2 ^ 63 < infinityBits := by
  have hE := toNat_unpackExponent b
  unfold UnpackedFloat.unpack infinityBits
  dsimp only
  by_cases he : @unpackExponent .binary64 b = -1#11
  · have hE' : b.toNat / 2 ^ 52 % 2 ^ 11 = 2047 := by rw [← hE, he]; rfl
    -- a full exponent field is that of an infinity or a NaN
    rw [if_pos he]
    have hnot : ¬ b.toNat % 2 ^ 63 < 0x7ff0000000000000 := by omega
    by_cases hm : @unpackMantissa .binary64 b = 0#52
    · rw [if_pos hm]
      exact ⟨fun h => (nomatch h), fun h => absurd h hnot⟩
    · rw [if_neg hm]
      exact ⟨fun h => (nomatch h), fun h => absurd h hnot⟩
  · have hEne : b.toNat / 2 ^ 52 % 2 ^ 11 ≠ 2047 := by
      intro hc
      exact he (BitVec.eq_of_toNat_eq (by rw [hE, hc]; rfl))
    have hlt : b.toNat % 2 ^ 63 < 0x7ff0000000000000 := by omega
    rw [if_neg he]
    by_cases h0 : @unpackExponent .binary64 b = 0#11
    · rw [if_pos h0]
      by_cases hm : @unpackMantissa .binary64 b = 0#52
      · rw [dif_pos hm]
        exact ⟨fun _ => hlt, fun _ => rfl⟩
      · rw [dif_neg hm]
        exact ⟨fun _ => hlt, fun _ => rfl⟩
    · rw [if_neg h0]
      exact ⟨fun _ => hlt, fun _ => rfl⟩

/-- The finite numbers are those whose magnitude is below that of infinity. -/
theorem isFinite_iff (x : Float) : x.isFinite = true ↔ magnitudeBits x < infinityBits :=
  isFinite_unpack_iff x.toBits.toBitVec

/-- A finite number is neither a NaN nor an infinity. -/
theorem isNaN_isInf_of_isFinite {x : Float} (h : x.isFinite = true) :
    x.isNaN = false ∧ x.isInf = false := by
  have hu : (UnpackedFloat.unpack .binary64 x.toBits.toBitVec).isFinite = true := h
  show (UnpackedFloat.unpack .binary64 x.toBits.toBitVec).isNaN = false ∧
    (UnpackedFloat.unpack .binary64 x.toBits.toBitVec).isInf = false
  cases hx : UnpackedFloat.unpack .binary64 x.toBits.toBitVec with
  | notANumber => rw [hx] at hu; cases hu
  | infinity s => rw [hx] at hu; cases hu
  | zero s => exact ⟨rfl, rfl⟩
  | finite s m e hm => exact ⟨rfl, rfl⟩

section floatOfMagnitude

variable (negative : Bool) {bits : Nat}

/-- The bits of a number that is made of a sign and a magnitude. -/
theorem toNat_toBits_floatOfMagnitude (h : bits ≤ infinityBits) :
    (floatOfMagnitude negative bits).toBits.toNat = if negative then bits + 2 ^ 63 else bits := by
  unfold floatOfMagnitude
  -- the sign is the bit above the magnitude, so neither gets in the way of the other
  have hlt : bits < 2 ^ 63 := by unfold infinityBits at h; omega
  have hof : (UInt64.ofNat (if negative = true then bits + 2 ^ 63 else bits)).toNat =
      if negative = true then bits + 2 ^ 63 else bits := by
    rw [UInt64.toNat_ofNat']
    apply Nat.mod_eq_of_lt
    cases negative with
    | false => show bits < 2 ^ 64; omega
    | true => show bits + 2 ^ 63 < 2 ^ 64; omega
  have hmod : (if negative = true then bits + 2 ^ 63 else bits) % 2 ^ 63 = bits := by
    cases negative with
    | false => show bits % 2 ^ 63 = bits; omega
    | true => show (bits + 2 ^ 63) % 2 ^ 63 = bits; omega
  rw [toBits_ofBits _ (by rw [hof, hmod]; exact h), hof]

@[simp] theorem magnitudeBits_floatOfMagnitude (h : bits ≤ infinityBits) :
    magnitudeBits (floatOfMagnitude negative bits) = bits := by
  unfold magnitudeBits
  rw [toNat_toBits_floatOfMagnitude negative h]
  unfold infinityBits at h
  cases negative with
  | false => show bits % 2 ^ 63 = bits; omega
  | true => show (bits + 2 ^ 63) % 2 ^ 63 = bits; omega

@[simp] theorem signBit_floatOfMagnitude (h : bits ≤ infinityBits) :
    signBit (floatOfMagnitude negative bits) = negative := by
  unfold signBit
  rw [toNat_toBits_floatOfMagnitude negative h]
  unfold infinityBits at h
  cases negative with
  | false => show decide (bits / 2 ^ 63 = 1) = false; exact decide_eq_false (by omega)
  | true => show decide ((bits + 2 ^ 63) / 2 ^ 63 = 1) = true; exact decide_eq_true (by omega)

end floatOfMagnitude

end DirectionField
