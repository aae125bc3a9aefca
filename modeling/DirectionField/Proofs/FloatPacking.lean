import DirectionField.Proofs.FloatRounding

/-!
# Packing a rounded mantissa

Core's operations work on numbers that are taken apart. They find a mantissa, with two bits for what is
behind it (`Represents`), shift it to the unit of the result and round it there. What is packed then is
the number nearest to the exact result (`rank_pack_roundWithAccuracy`, `rank_pack_normalize`).
-/

namespace DirectionField

open Float.Model (UnpackedFloat Format totalExponent)
open Float.Model.UnpackedFloat (ExtendedMantissa Accuracy shiftToTargetExponent
  roundWithAccuracy decreaseExponent accuracyOfFraction)

/-! ## Signs -/

/-- The factor that a sign stands for. -/
def signFactor (s : UnpackedFloat.Sign) : ℤ := s.apply 1

/-- A sign is applied by its factor. -/
theorem apply_eq (s : UnpackedFloat.Sign) (n : ℤ) : s.apply n = signFactor s * n := by
  cases s with
  | negative => show -n = -1 * n; omega
  | positive => show n = 1 * n; omega

/-- The opposite sign has the opposite factor. -/
theorem signFactor_neg (s : UnpackedFloat.Sign) : signFactor (-s) = -signFactor s := by
  cases s <;> rfl

/-- The sign of a product has the product of the factors. -/
theorem signFactor_mul (s t : UnpackedFloat.Sign) :
    signFactor (s * t) = signFactor s * signFactor t := by
  cases s <;> cases t <;> rfl

/-- The sign of a quotient has it as well. -/
theorem signFactor_div (s t : UnpackedFloat.Sign) :
    signFactor (s / t) = signFactor s * signFactor t := by
  cases s <;> cases t <;> rfl

/-- A factor is its own inverse. -/
theorem signFactor_mul_self (s : UnpackedFloat.Sign) : signFactor s * signFactor s = 1 := by
  cases s <;> rfl

/-- Rounding does not see the sign. -/
theorem roundedRank_signFactor_mul (s : UnpackedFloat.Sign) {q : ℚ} (hq : 0 ≤ q) :
    roundedRank (signFactor s * q) = signFactor s * roundedBits q := by
  have hround := roundedRank_of_nonneg hq
  cases s with
  | negative =>
    have hfactor : signFactor .negative = -1 := rfl
    rw [hfactor, Int.cast_neg, Int.cast_one, neg_one_mul, neg_one_mul, roundedRank_neg, hround]
  | positive =>
    have hfactor : signFactor .positive = 1 := rfl
    rw [hfactor, Int.cast_one, one_mul, one_mul, hround]

/-! ## Packing -/

/-- A sign and a magnitude that are packed have the rank that they say. -/
theorem rank_ofModel_pack {u : UnpackedFloat} {s : UnpackedFloat.Sign} {bits : ℕ}
    (hbits : bits ≤ infinityBits)
    (h : (UnpackedFloat.pack .binary64 u).toNat = s.toBitVec.toNat * 2 ^ 63 + bits) :
    rank (Float.ofModel (Float.Model.pack u)) = signFactor s * bits := by
  have htoBits : (Float.ofModel (Float.Model.pack u)).toBits.toNat =
      s.toBitVec.toNat * 2 ^ 63 + bits := h
  unfold infinityBits at hbits
  unfold rank signBit magnitudeBits
  rw [htoBits]
  -- the sign is the bit above the magnitude
  cases s with
  | negative =>
    have hsign : (1 * 2 ^ 63 + bits) / 2 ^ 63 = 1 := by omega
    have hmagnitude : (1 * 2 ^ 63 + bits) % 2 ^ 63 = bits := by omega
    show (if decide ((1 * 2 ^ 63 + bits) / 2 ^ 63 = 1) = true then
      -(((1 * 2 ^ 63 + bits) % 2 ^ 63 : ℕ) : ℤ) else _) = -1 * (bits : ℤ)
    rw [hsign, hmagnitude, if_pos (by decide)]
    omega
  | positive =>
    have hsign : ¬ (0 * 2 ^ 63 + bits) / 2 ^ 63 = 1 := by omega
    have hmagnitude : (0 * 2 ^ 63 + bits) % 2 ^ 63 = bits := by omega
    show (if decide ((0 * 2 ^ 63 + bits) / 2 ^ 63 = 1) = true then _ else
      (((0 * 2 ^ 63 + bits) % 2 ^ 63 : ℕ) : ℤ)) = 1 * (bits : ℤ)
    rw [hmagnitude, if_neg (by rw [decide_eq_true_eq]; exact hsign)]
    omega

/-- Both zeros have the rank zero. -/
theorem rank_pack_zero (s : UnpackedFloat.Sign) :
    rank (Float.ofModel (Float.Model.pack (.zero s))) = 0 := by
  have hpack : (UnpackedFloat.pack .binary64 (.zero s)).toNat = s.toBitVec.toNat * 2 ^ 63 + 0 := by
    cases s <;> rfl
  rw [rank_ofModel_pack (Nat.zero_le _) hpack]
  exact mul_zero _

/-- The bit pattern of a whole number of units. -/
theorem rank_pack_finite (s : UnpackedFloat.Sign) {m : ℕ} {u : ℤ} (hpos : 0 < m) (hu : -1074 ≤ u)
    (hm : m < 2 ^ 53) (hfull : 2 ^ 52 ≤ m ∨ u = -1074) :
    rank (Float.ofModel (Float.Model.pack (.finite s m u hpos))) =
      signFactor s * (min ((u + 1074).toNat * 2 ^ 52 + m) infinityBits : ℕ) := by
  apply rank_ofModel_pack (Nat.min_le_right _ _)
  rcases lt_or_ge u 972 with hlt | hge
  · by_cases hsub : m < 2 ^ 52
    · -- the exponent field is empty
      obtain rfl : u = -1074 := by omega
      have hfield : (BitVec.ofNat 52 m).toNat = m := by rw [BitVec.toNat_ofNat]; omega
      have hmin : min (((-1074 : ℤ) + 1074).toNat * 2 ^ 52 + m) infinityBits = m := by
        unfold infinityBits
        omega
      rw [pack_subnormal s hpos hsub, toNat_packComponents, hfield, hmin]
      show _ + 0 * 2 ^ 52 + m = _
      omega
    · obtain ⟨e, rfl⟩ : ∃ e : ℕ, u = (e : ℤ) - 1075 := ⟨(u + 1075).toNat, by omega⟩
      have hexponent : (BitVec.ofNat 11 e).toNat = e := by rw [BitVec.toNat_ofNat]; omega
      have hfield : (BitVec.ofNat 52 m).toNat = m - 2 ^ 52 := by rw [BitVec.toNat_ofNat]; omega
      rw [pack_normal s (by omega) (by omega) hm, toNat_packComponents, hexponent, hfield]
      unfold infinityBits
      omega
  · -- the exponent field is full
    have hinfinity : UnpackedFloat.pack .binary64 (.finite s m u hpos) =
        UnpackedFloat.packedInfinity .binary64 s := by
      unfold UnpackedFloat.pack
      dsimp only
      rw [if_pos]
      show 2048 ≤ (u + (1023 : ℕ) + (52 : ℕ)).toNat + 1
      omega
    rw [hinfinity]
    unfold UnpackedFloat.packedInfinity
    rw [toNat_packComponents]
    show _ + 2047 * 2 ^ 52 + 0 = _
    unfold infinityBits
    omega

/-! ## Numbers in canonical form -/

/-- The number is taken apart in the way that its bit pattern is. -/
inductive Stands : UnpackedFloat → ℚ → Prop where
  | zero (s : UnpackedFloat.Sign) : Stands (.zero s) 0
  | finite (s : UnpackedFloat.Sign) {m : ℕ} {e : ℤ} (hpos : 0 < m) (hm : m < 2 ^ 53)
      (he : -1074 ≤ e) (hfull : 2 ^ 52 ≤ m ∨ e = -1074) :
      Stands (.finite s m e hpos) (signFactor s * (m * 2 ^ e))

/-- A finite number unpacks to what stands for its value. -/
theorem stands_unpack {x : Float} (h : x.isFinite = true) :
    Stands x.toModel.unpack (exactValue x) := by
  have hlt := (isFinite_iff x).1 h
  have hsign : exactValue x = signFactor (unpackedSign (signBit x)) *
      (Binary.ofBits false (magnitudeBits x)).magnitude := by
    unfold exactValue unpackedSign
    cases signBit x with
    | false => exact (one_mul _).symm
    | true => exact (neg_one_mul _).symm
  rcases unpack_cases x with ⟨hm, hu⟩ | ⟨hm, _, hpos, hu⟩ | ⟨hm, _⟩ | ⟨hm, _⟩
  · rw [hu, hsign, hm, Binary.magnitude_zero, mul_zero]
    exact .zero _
  · obtain ⟨hbound, hleast, hfull, _⟩ := Binary.ofBits_fields (magnitudeBits x)
    rw [hu, hsign]
    exact .finite _ hpos hbound hleast hfull
  · omega
  · omega

/-- The logarithm of a number of units, with or without more behind it. -/
theorem intLog_eq_of_units {m : ℕ} {e : ℤ} {q : ℚ} (hpos : 0 < m) (hlo : m * 2 ^ e ≤ q)
    (hhi : q < (m + 1) * 2 ^ e) : Int.log 2 q = m.log2 + e := by
  have he := two_zpow_pos e
  refine intLog_eq_of_zpow_le_of_lt (by norm_num) ?_ ?_
  · push_cast
    rw [zpow_add₀ (by norm_num), zpow_natCast]
    have hself : (2 : ℚ) ^ m.log2 ≤ m := by exact_mod_cast Nat.log2_self_le (by omega)
    exact (mul_le_mul_of_nonneg_right hself he.le).trans hlo
  · push_cast
    rw [add_right_comm, zpow_add₀ (by norm_num)]
    have hself : (m : ℚ) + 1 ≤ 2 ^ ((m.log2 : ℤ) + 1) := by
      exact_mod_cast (Nat.lt_log2_self : m < 2 ^ (m.log2 + 1))
    exact hhi.trans_le (mul_le_mul_of_nonneg_right hself he.le)

/-- The unit of a number in canonical form. -/
theorem unitExponent_of_full {m : ℕ} {e : ℤ} (hpos : 0 < m) (hm : m < 2 ^ 53) (he : -1074 ≤ e)
    (hfull : 2 ^ 52 ≤ m ∨ e = -1074) : unitExponent (m * 2 ^ e) = e := by
  have hlog := intLog_two_mul_zpow hpos e
  have hlt : m.log2 < 53 := (Nat.log2_lt (by omega)).2 hm
  unfold unitExponent
  rw [hlog]
  rcases hfull with hfull | rfl
  · have hle : 52 ≤ m.log2 := (Nat.le_log2 (by omega)).2 hfull
    omega
  · omega

namespace Stands

variable {u v : UnpackedFloat} {p q : ℚ}

/-- The opposite stands for the opposite value. -/
theorem neg (h : Stands u q) : Stands u.neg (-q) := by
  cases h with
  | zero s =>
    rw [neg_zero]
    exact .zero (-s)
  | finite s hpos hm he hfull =>
    have hneg := Stands.finite (-s) hpos hm he hfull
    rw [signFactor_neg, Int.cast_neg, neg_mul] at hneg
    exact hneg

/-- Packing a number in canonical form does not change it. -/
theorem rank_pack (h : Stands u q) :
    rank (Float.ofModel (Float.Model.pack u)) = roundedRank q := by
  cases h with
  | zero s =>
    rw [rank_pack_zero, roundedRank_zero]
  | @finite s m e hpos hm he hfull =>
    have hvalue : (0 : ℚ) < m * 2 ^ e :=
      mul_pos (by exact_mod_cast hpos) (two_zpow_pos e)
    have hunit := unitExponent_of_full hpos hm he hfull
    -- at its own last place, the value is an integer, and so it is not rounded
    have hnearest : IsNearest (m * 2 ^ e / 2 ^ unitExponent (m * 2 ^ e)) m := by
      rw [hunit, mul_div_cancel_right₀ _ (two_zpow_pos e).ne']
      exact .natCast m
    rw [rank_pack_finite s hpos he hm hfull, roundedRank_signFactor_mul s hvalue.le,
      roundedBits_eq hvalue hnearest, hunit]

end Stands

/-! ## Rounding a mantissa -/

/-- The mantissa is the whole part of `x`. The bits behind it say whether the rest is at least a
    half, and whether it is anything else than nothing or a half. -/
structure Represents (em : ExtendedMantissa) (x : ℚ) : Prop where
  mantissa_le : em.mantissa ≤ x
  lt_mantissa : x < em.mantissa + 1
  roundBit_iff : em.roundBit = true ↔ em.mantissa + 1 / 2 ≤ x
  stickyBit_iff : em.stickyBit = true ↔ x ≠ em.mantissa ∧ x ≠ em.mantissa + 1 / 2

namespace Represents

variable {em : ExtendedMantissa} {x : ℚ}

/-- A mantissa without a rest represents itself. -/
theorem exact (m : ℕ) : Represents (.ofMantissaAndAccuracy m .exact) m where
  mantissa_le := le_refl _
  lt_mantissa := lt_add_one _
  roundBit_iff := iff_of_false Bool.false_ne_true (by
    show ¬ (m : ℚ) + 1 / 2 ≤ m
    linarith)
  stickyBit_iff := iff_of_false Bool.false_ne_true fun h => h.1 rfl

/-- A mantissa with the rest of a division represents the quotient. -/
theorem fraction (m : ℕ) {num den : ℕ} (h : num < den) :
    Represents (.ofMantissaAndAccuracy m (accuracyOfFraction num den)) (m + num / den) := by
  have hd : (0 : ℚ) < den := by exact_mod_cast (by omega : 0 < den)
  have hlt : (m : ℚ) + num / den < m + 1 := by
    rw [add_lt_add_iff_left, div_lt_one hd]
    exact_mod_cast h
  have hle : (m : ℚ) ≤ m + num / den := le_add_of_nonneg_right (by positivity)
  have hhalf : (m : ℚ) + 1 / 2 ≤ m + num / den ↔ den ≤ 2 * num := by
    rw [add_le_add_iff_left, div_le_div_iff₀ (by norm_num) hd, one_mul, mul_comm (num : ℚ)]
    exact_mod_cast Iff.rfl
  have htie : (m : ℚ) + num / den ≠ m + 1 / 2 ↔ 2 * num ≠ den := by
    rw [Ne, add_right_inj, div_eq_div_iff hd.ne' (by norm_num), one_mul, mul_comm (num : ℚ)]
    exact_mod_cast Iff.rfl
  unfold accuracyOfFraction
  by_cases hzero : num = 0
  · rw [if_pos hzero, hzero, Nat.cast_zero, zero_div, add_zero]
    exact .exact m
  · have hpos : (0 : ℚ) < num / den := div_pos (by exact_mod_cast (by omega : 0 < num)) hd
    have hne : (m : ℚ) + num / den ≠ m := by linarith
    rw [if_neg hzero]
    -- the rest is below a half, at it or above it
    rcases lt_trichotomy (2 * num) den with h2 | h2 | h2
    · rw [compare_lt_iff_lt.2 h2]
      exact ⟨hle, hlt, iff_of_false Bool.false_ne_true (mt hhalf.1 (by omega)),
        iff_of_true rfl ⟨hne, htie.2 (by omega)⟩⟩
    · rw [compare_eq_iff_eq.2 h2]
      exact ⟨hle, hlt, iff_of_true rfl (hhalf.2 (by omega)),
        iff_of_false Bool.false_ne_true fun hb => htie.1 hb.2 h2⟩
    · rw [compare_gt_iff_gt.2 h2]
      exact ⟨hle, hlt, iff_of_true rfl (hhalf.2 (by omega)),
        iff_of_true rfl ⟨hne, htie.2 (by omega)⟩⟩

/-- A bit that is shifted out becomes the round bit, and what was behind it is behind it still. -/
theorem shiftRightOne (h : Represents em x) : Represents em.shiftRightOne (x / 2) := by
  obtain ⟨m, round, sticky⟩ := em
  obtain ⟨hle, hlt, hround, hsticky⟩ := h
  dsimp only at hle hlt hround hsticky
  have hdiv : (m : ℚ) = 2 * (m / 2 : ℕ) + (m % 2 : ℕ) := by
    exact_mod_cast (Nat.div_add_mod m 2).symm
  -- the two bits together say whether there is a rest at all
  have hrest : (round || sticky) = true ↔ x ≠ m := by
    rw [Bool.or_eq_true, hround, hsticky]
    constructor
    · rintro (h | h)
      · linarith
      · exact h.1
    · intro h
      by_cases htie : x = m + 1 / 2
      · exact .inl (by linarith)
      · exact .inr ⟨h, htie⟩
  -- the new round bit is the last bit of the mantissa
  rcases Nat.mod_two_eq_zero_or_one m with heven | hodd
  · rw [heven, Nat.cast_zero, add_zero] at hdiv
    refine ⟨?_, ?_, ?_, ?_⟩
    · show ((m / 2 : ℕ) : ℚ) ≤ x / 2
      linarith
    · show x / 2 < (m / 2 : ℕ) + 1
      linarith
    · show (m % 2 != 0) = true ↔ ((m / 2 : ℕ) : ℚ) + 1 / 2 ≤ x / 2
      rw [heven]
      exact iff_of_false (by decide) (by linarith)
    · show (round || sticky) = true ↔ x / 2 ≠ (m / 2 : ℕ) ∧ x / 2 ≠ (m / 2 : ℕ) + 1 / 2
      rw [hrest]
      exact ⟨fun h => ⟨fun h' => h (by linarith), by linarith⟩, fun h h' => h.1 (by linarith)⟩
  · rw [hodd, Nat.cast_one] at hdiv
    refine ⟨?_, ?_, ?_, ?_⟩
    · show ((m / 2 : ℕ) : ℚ) ≤ x / 2
      linarith
    · show x / 2 < (m / 2 : ℕ) + 1
      linarith
    · show (m % 2 != 0) = true ↔ ((m / 2 : ℕ) : ℚ) + 1 / 2 ≤ x / 2
      rw [hodd]
      exact iff_of_true (by decide) (by linarith)
    · show (round || sticky) = true ↔ x / 2 ≠ (m / 2 : ℕ) ∧ x / 2 ≠ (m / 2 : ℕ) + 1 / 2
      rw [hrest]
      exact ⟨fun h => ⟨by linarith, fun h' => h (by linarith)⟩, fun h h' => h.2 (by linarith)⟩

/-- Shifting divides what is represented by a power of two, as bits that are shifted out are kept
    track of. -/
theorem shiftRight (h : Represents em x) (n : ℕ) : Represents (em >>> n) (x / 2 ^ n) := by
  show Represents (n.repeat ExtendedMantissa.shiftRightOne em) _
  induction n with
  | zero =>
    rw [pow_zero, div_one]
    exact h
  | succ n ih =>
    rw [pow_succ, ← div_div]
    exact ih.shiftRightOne

/-- Rounding gives a nearest integer to what is represented, the even one of two. -/
theorem isNearest (h : Represents em x) : IsNearest x em.roundedMantissa := by
  obtain ⟨m, round, sticky⟩ := em
  obtain ⟨hle, hlt, hround, hsticky⟩ := h
  dsimp only at hle hlt hround hsticky
  cases round with
  | false =>
    have hhalf : x < m + 1 / 2 := not_le.1 fun h => Bool.false_ne_true (hround.2 h)
    have hm : IsNearest x m :=
      ⟨by linarith, by linarith, fun h => by rcases h with h | h <;> linarith⟩
    cases sticky with
    | false => exact hm
    | true => exact hm
  | true =>
    have hhalf := hround.1 rfl
    cases sticky with
    | false =>
      -- half way, so that the even neighbour is taken
      have htie : x = m + 1 / 2 := by
        by_contra h
        exact Bool.false_ne_true (hsticky.2 ⟨by linarith, h⟩)
      show IsNearest x (m + m % 2)
      rcases Nat.mod_two_eq_zero_or_one m with heven | hodd
      · rw [heven]
        exact ⟨by push_cast; linarith, by push_cast; linarith, fun _ => heven⟩
      · rw [hodd]
        exact ⟨by push_cast; linarith, by push_cast; linarith, fun _ => by omega⟩
    | true =>
      -- more than half way
      have htie := (hsticky.1 rfl).2
      have hgt : (m : ℚ) + 1 / 2 < x := lt_of_le_of_ne hhalf htie.symm
      show IsNearest x (m + 1)
      refine ⟨by push_cast; linarith, by push_cast; linarith, ?_⟩
      rintro (h | h)
      · push_cast at h
        linarith
      · push_cast at h
        linarith

end Represents

/-! ## Rounding to a unit -/

/-- The exponent of the last bit that is kept, but not below that of the subnormal numbers. -/
theorem targetExponent_eq (z : ℤ) : Format.binary64.targetExponent z = max (z - 53) (-1074) := rfl

section

variable {m : ℕ} {e : ℤ} {q : ℚ}

/-- The exponent that a mantissa is shifted to is that of the unit. -/
theorem targetExponent_totalExponent (hq : 0 < q) (hlo : m * 2 ^ e ≤ q)
    (hhi : q < (m + 1) * 2 ^ e) (hm : 0 < m ∨ e ≤ -1074) :
    Format.binary64.targetExponent (totalExponent m e) = unitExponent q := by
  rw [targetExponent_eq]
  unfold totalExponent unitExponent
  rcases Nat.eq_zero_or_pos m with rfl | hpos
  · -- nothing is left of the mantissa of a number below the least unit
    rw [Nat.cast_zero, zero_add, one_mul] at hhi
    have hlog : Int.log 2 q < e :=
      (Int.lt_zpow_iff_log_lt (by norm_num) hq).1 (by exact_mod_cast hhi)
    have hzero : Nat.log2 0 = 0 := rfl
    omega
  · rw [intLog_eq_of_units hpos hlo hhi]
    omega

/-- Shifting to the target exponent drops as many bits as are too many. -/
theorem shiftToTargetExponent_eq {acc : Accuracy} {u : ℤ}
    (h : Format.binary64.targetExponent (totalExponent m e) = u) :
    shiftToTargetExponent .binary64 m e acc =
      (ExtendedMantissa.ofMantissaAndAccuracy m acc >>> (u - e).toNat, e + (u - e).toNat) := by
  unfold shiftToTargetExponent
  rw [h]
  rfl

/-- How accurate a mantissa is does not change it. -/
theorem mantissa_ofMantissaAndAccuracy (m : ℕ) (acc : Accuracy) :
    (ExtendedMantissa.ofMantissaAndAccuracy m acc).mantissa = m := by
  cases acc with
  | exact => rfl
  | inexact o => cases o <;> rfl

/-- A rounded mantissa of 53 bits at most stays as it is. -/
theorem shiftToTargetExponent_of_lt {r : ℕ} {u : ℤ} (hu : -1074 ≤ u) (hr : r < 2 ^ 53) :
    shiftToTargetExponent .binary64 r u .exact = (⟨r, false, false⟩, u) := by
  have hlog : r.log2 < 53 := by
    rcases Nat.eq_zero_or_pos r with rfl | hpos
    · decide
    · exact (Nat.log2_lt (by omega)).2 hr
  have hshift : (Format.binary64.targetExponent (totalExponent r u) - u).toNat = 0 := by
    rw [targetExponent_eq]
    unfold totalExponent
    omega
  rw [shiftToTargetExponent_eq rfl, hshift, Nat.cast_zero, add_zero]
  rfl

/-- One that was carried to the next power of two loses its last bit. -/
theorem shiftToTargetExponent_of_carry {u : ℤ} (hu : -1074 ≤ u) :
    shiftToTargetExponent .binary64 (2 ^ 53) u .exact = (⟨2 ^ 52, false, false⟩, u + 1) := by
  have hlog : (2 ^ 53).log2 = 53 := Nat.log2_two_pow
  have hshift : (Format.binary64.targetExponent (totalExponent (2 ^ 53) u) - u).toNat = 1 := by
    rw [targetExponent_eq]
    unfold totalExponent
    rw [hlog]
    omega
  rw [shiftToTargetExponent_eq rfl, hshift]
  rfl

/-- A mantissa and what is known to be behind it are rounded to the nearest number. -/
theorem rank_pack_roundWithAccuracy (s : UnpackedFloat.Sign) {acc : Accuracy} (hq : 0 < q)
    (h : Represents (.ofMantissaAndAccuracy m acc) (q / 2 ^ e))
    (he : e ≤ unitExponent q) (hm : 0 < m ∨ e ≤ -1074) :
    rank (Float.ofModel (Float.Model.pack (roundWithAccuracy .binary64 s m e acc))) =
      roundedRank (signFactor s * q) := by
  have hpos := two_zpow_pos e
  have hlo := h.mantissa_le
  have hhi := h.lt_mantissa
  rw [mantissa_ofMantissaAndAccuracy] at hlo hhi
  rw [le_div_iff₀ hpos] at hlo
  rw [div_lt_iff₀ hpos] at hhi
  have htarget := targetExponent_totalExponent hq hlo hhi hm
  have hleast : -1074 ≤ unitExponent q := by unfold unitExponent; omega
  obtain ⟨k, hk⟩ : ∃ k : ℕ, unitExponent q = e + k := ⟨(unitExponent q - e).toNat, by omega⟩
  -- the first shift is to the unit of the result
  have hfirst : shiftToTargetExponent .binary64 m e acc =
      (ExtendedMantissa.ofMantissaAndAccuracy m acc >>> k, unitExponent q) := by
    have hshift : (unitExponent q - e).toNat = k := by omega
    rw [shiftToTargetExponent_eq htarget, hshift, hk]
  have hnearest := (h.shiftRight k).isNearest
  have hunits : q / 2 ^ e / 2 ^ k = q / 2 ^ unitExponent q := by
    rw [div_div, ← zpow_natCast, ← zpow_add₀ (by norm_num), hk]
  rw [hunits] at hnearest
  obtain ⟨hle, hfull⟩ := hnearest.unit_bounds hq
  rw [roundedRank_signFactor_mul s hq.le, roundedBits_eq hq hnearest]
  unfold roundWithAccuracy
  rw [hfirst]
  dsimp only
  generalize (ExtendedMantissa.ofMantissaAndAccuracy m acc >>> k).roundedMantissa = r at *
  -- the second shift only undoes a carry
  rcases hle.eq_or_lt with rfl | hlt
  · rw [shiftToTargetExponent_of_carry hleast]
    dsimp only
    rw [dif_neg (by decide),
      rank_pack_finite s (by decide) (by omega) (by decide) (.inl (le_refl _))]
    have hcarry : (unitExponent q + 1 + 1074).toNat * 2 ^ 52 + 2 ^ 52 =
        (unitExponent q + 1074).toNat * 2 ^ 52 + 2 ^ 53 := by omega
    rw [hcarry]
  · rw [shiftToTargetExponent_of_lt hleast hlt]
    dsimp only
    by_cases hzero : r = 0
    · have hunit : unitExponent q = -1074 := by omega
      rw [dif_pos hzero, rank_pack_zero, hzero, hunit]
      exact (mul_zero _).symm
    · rw [dif_neg hzero, rank_pack_finite s (Nat.pos_of_ne_zero hzero) hleast hlt hfull]

/-- A mantissa with nothing behind it. -/
theorem rank_pack_roundWithAccuracy_exact (s : UnpackedFloat.Sign) (hm : 0 < m)
    (he : e ≤ unitExponent (m * 2 ^ e)) :
    rank (Float.ofModel (Float.Model.pack (roundWithAccuracy .binary64 s m e .exact))) =
      roundedRank (signFactor s * (m * 2 ^ e)) := by
  have hpos := two_zpow_pos e
  have hrep : Represents (.ofMantissaAndAccuracy m .exact) (m * 2 ^ e / 2 ^ e) := by
    rw [mul_div_cancel_right₀ _ hpos.ne']
    exact .exact m
  exact rank_pack_roundWithAccuracy s (mul_pos (by exact_mod_cast hm) hpos) hrep he (.inl hm)

/-- The exponent of the last place of a mantissa and an exponent. -/
theorem unitExponent_mul_two_zpow (hm : 0 < m) (e : ℤ) :
    unitExponent (m * 2 ^ e) = max (-1074) (m.log2 + e - 52) := by
  unfold unitExponent
  rw [intLog_two_mul_zpow hm]

/-- Zeros are appended to a mantissa whose unit is too great. -/
theorem rank_pack_round (s : UnpackedFloat.Sign) (hm : 0 < m) (e : ℤ) :
    rank (Float.ofModel (Float.Model.pack (UnpackedFloat.round .binary64 s m e))) =
      roundedRank (signFactor s * (m * 2 ^ e)) := by
  have htarget : Format.binary64.targetExponent (totalExponent m e) = unitExponent (m * 2 ^ e) := by
    rw [targetExponent_eq, unitExponent_mul_two_zpow hm]
    unfold totalExponent
    omega
  unfold UnpackedFloat.round decreaseExponent
  dsimp only
  rw [htarget, Nat.shiftLeft_eq]
  generalize hk : (e - unitExponent (m * 2 ^ e)).toNat = k
  -- shifting to the left makes room for the last place and keeps the value
  have hvalue : ((m * 2 ^ k : ℕ) : ℚ) * 2 ^ (e - k) = m * 2 ^ e := by
    rw [zpow_sub₀ (by norm_num), zpow_natCast]
    push_cast
    field_simp
  have hunit : e - k ≤ unitExponent ((m * 2 ^ k : ℕ) * 2 ^ (e - k)) := by
    rw [hvalue]
    omega
  rw [rank_pack_roundWithAccuracy_exact s (Nat.mul_pos hm (Nat.two_pow_pos k)) hunit, hvalue]

end

/-- A whole number of units, of either sign. -/
theorem rank_pack_normalize (n e : ℤ) :
    rank (Float.ofModel (Float.Model.pack (UnpackedFloat.normalize .binary64 n e .positive))) =
      roundedRank (n * 2 ^ e) := by
  unfold UnpackedFloat.normalize
  -- the sign of the integer is the sign of the number
  rcases lt_trichotomy n 0 with h | rfl | h
  · obtain ⟨m, rfl⟩ : ∃ m : ℕ, n = -m := ⟨(-n).toNat, by omega⟩
    have htoNat : (-(-(m : ℤ))).toNat = m := by omega
    rw [compare_lt_iff_lt.2 h]
    dsimp only
    rw [htoNat, rank_pack_round _ (by omega)]
    have hfactor : signFactor .negative = -1 := rfl
    rw [hfactor]
    push_cast
    rw [neg_one_mul, neg_mul]
  · rw [compare_eq_iff_eq.2 rfl]
    dsimp only
    rw [rank_pack_zero, Int.cast_zero, zero_mul, roundedRank_zero]
  · obtain ⟨m, rfl⟩ : ∃ m : ℕ, n = m := ⟨n.toNat, by omega⟩
    rw [compare_gt_iff_gt.2 h]
    dsimp only
    rw [Int.toNat_natCast, rank_pack_round _ (by omega)]
    have hfactor : signFactor .positive = 1 := rfl
    rw [hfactor]
    push_cast
    rw [one_mul]

end DirectionField
