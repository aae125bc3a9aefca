import DirectionField.Proofs.FloatKinds
import DirectionField.Proofs.FloatPacking

/-!
# Rounded arithmetic

A sum, difference, product or quotient of finite numbers is the exact one, rounded to the nearest
number (`rank_add`, `rank_sub`, `rank_mul`, `rank_div`), and so is a natural number as a `Float`
(`rank_ofNat`). Operations therefore keep the order of numbers (`rank_add_mono` and others), and the
error of a result that is not negative is at most half a unit (`exactValue_error`).
-/

namespace DirectionField

open Float.Model (UnpackedFloat Format totalExponent)
open Float.Model.UnpackedFloat (roundWithAccuracy decreaseExponent divCore)

/-! ## Operations -/

/-- A mantissa in a lesser unit. -/
theorem apply_shiftLeft_mul (s : UnpackedFloat.Sign) (m : ℕ) {least e : ℤ} (h : least ≤ e) :
    ((s.apply ((m <<< (e - least).toNat : ℕ) : ℤ) : ℤ) : ℚ) * 2 ^ least =
      signFactor s * (m * 2 ^ e) := by
  obtain ⟨k, rfl⟩ : ∃ k : ℕ, e = least + k := ⟨(e - least).toNat, by omega⟩
  have hk : (least + k - least).toNat = k := by omega
  rw [hk, apply_eq, Nat.shiftLeft_eq, zpow_add₀ (by norm_num), zpow_natCast]
  push_cast
  ring

/-- The quotient of two mantissas has 53 bits at least, or its unit is the least one. -/
theorem divCore_spec {m m' : ℕ} (hpos : 0 < m) (hpos' : 0 < m') (e e' : ℤ) :
    ∃ mantissa exponent acc, divCore .binary64 m e m' e' = (mantissa, exponent, acc) ∧
      Represents (.ofMantissaAndAccuracy mantissa acc) (m * 2 ^ e / (m' * 2 ^ e') / 2 ^ exponent) ∧
      exponent ≤ unitExponent (m * 2 ^ e / (m' * 2 ^ e')) ∧ (0 < mantissa ∨ exponent ≤ -1074) := by
  have hm : (2 : ℚ) ^ m.log2 ≤ m := by exact_mod_cast Nat.log2_self_le hpos.ne'
  have hm' : (m' : ℚ) ≤ 2 ^ (m'.log2 + 1) := by exact_mod_cast (Nat.lt_log2_self (n := m')).le
  have hpe := two_zpow_pos e
  have hpe' := two_zpow_pos e'
  have hpower := two_zpow_pos (m.log2 + e - (m'.log2 + 1 + e'))
  have hq : (0 : ℚ) < m * 2 ^ e / (m' * 2 ^ e') := by positivity
  -- the logarithms of the mantissas leave the one of the quotient open by one
  have hlog : (m.log2 : ℤ) + e - (m'.log2 + 1 + e') ≤
      Int.log 2 ((m : ℚ) * 2 ^ e / (m' * 2 ^ e')) := by
    rw [← Int.zpow_le_iff_le_log (by norm_num) hq, le_div_iff₀ (by positivity)]
    push_cast
    calc (2 : ℚ) ^ ((m.log2 : ℤ) + e - (m'.log2 + 1 + e')) * (m' * 2 ^ e')
        ≤ 2 ^ ((m.log2 : ℤ) + e - (m'.log2 + 1 + e')) * (2 ^ (m'.log2 + 1) * 2 ^ e') := by gcongr
      _ = 2 ^ m.log2 * 2 ^ e := by
        rw [← zpow_natCast, ← zpow_natCast, ← zpow_add₀ (by norm_num), ← zpow_add₀ (by norm_num),
          ← zpow_add₀ (by norm_num)]
        congr 1
        push_cast
        ring
      _ ≤ m * 2 ^ e := by gcongr
  unfold divCore
  dsimp only
  rw [targetExponent_eq, Nat.shiftLeft_eq]
  unfold totalExponent
  generalize ht : min (e - e') (max (m.log2 + 1 + e - (m'.log2 + 1 + e') - 53) (-1074)) = t
  obtain ⟨k, hk⟩ : ∃ k : ℕ, e = e' + t + k := ⟨(e - e' - t).toNat, by omega⟩
  have hshift : (e - e' - t).toNat = k := by omega
  have hm0 : (m' : ℚ) ≠ 0 := by exact_mod_cast hpos'.ne'
  rw [hshift]
  refine ⟨_, _, _, rfl, ?_, ?_, ?_⟩
  · -- quotient and remainder of the mantissas are those of the exact value in units
    have hvalue : (m : ℚ) * 2 ^ e / (m' * 2 ^ e') / 2 ^ t =
        (m * 2 ^ k / m' : ℕ) + (m * 2 ^ k % m' : ℕ) / m' := by
      have hdiv : ((m * 2 ^ k : ℕ) : ℚ) = m' * (m * 2 ^ k / m' : ℕ) + (m * 2 ^ k % m' : ℕ) := by
        exact_mod_cast (Nat.div_add_mod (m * 2 ^ k) m').symm
      rw [hk, zpow_add₀ (by norm_num), zpow_add₀ (by norm_num), zpow_natCast]
      have hcancel : (m : ℚ) * (2 ^ e' * 2 ^ t * 2 ^ k) / (m' * 2 ^ e') / 2 ^ t =
          (m * 2 ^ k : ℕ) / m' := by
        have hpt := two_zpow_pos t
        push_cast
        field_simp
      rw [hcancel, hdiv]
      field_simp
    rw [hvalue]
    exact .fraction _ (Nat.mod_lt _ hpos')
  · unfold unitExponent
    omega
  · rcases le_or_gt t (-1074) with h | h
    · exact .inr h
    · have hbits : m'.log2 + 1 ≤ m.log2 + k := by omega
      refine .inl (Nat.div_pos ?_ hpos')
      calc m' ≤ 2 ^ (m'.log2 + 1) := Nat.lt_log2_self.le
        _ ≤ 2 ^ (m.log2 + k) := Nat.pow_le_pow_right (by decide) hbits
        _ = 2 ^ m.log2 * 2 ^ k := Nat.pow_add 2 _ _
        _ ≤ m * 2 ^ k := Nat.mul_le_mul_right _ (Nat.log2_self_le hpos.ne')

namespace Stands

variable {u v : UnpackedFloat} {p q : ℚ}

/-- Adding is adding exactly, and rounding once. -/
theorem rank_pack_add (hu : Stands u p) (hv : Stands v q) :
    rank (Float.ofModel (Float.Model.pack (UnpackedFloat.add .binary64 u v))) =
      roundedRank (p + q) := by
  have hv' := hv
  cases hu with
  | zero s =>
    cases hv with
    | zero t =>
      rw [add_zero, roundedRank_zero]
      cases s <;> cases t <;> exact rank_pack_zero _
    | finite =>
      rw [zero_add]
      exact hv'.rank_pack
  | @finite s m e hpos hm he hfull =>
    cases hv with
    | zero t =>
      rw [add_zero]
      exact (Stands.finite s hpos hm he hfull).rank_pack
    | @finite t m' e' hpos' hm' he' hfull' =>
      -- both mantissas are brought to the lesser unit, where the sum is exact
      unfold UnpackedFloat.add decreaseExponent
      dsimp only
      rw [rank_pack_normalize, Int.cast_add, add_mul, apply_shiftLeft_mul s m (min_le_left e e'),
        apply_shiftLeft_mul t m' (min_le_right e e')]

/-- A difference is a sum with the other sign. -/
theorem rank_pack_sub (hu : Stands u p) (hv : Stands v q) :
    rank (Float.ofModel (Float.Model.pack (UnpackedFloat.sub .binary64 u v))) =
      roundedRank (p - q) := by
  have hsub : UnpackedFloat.sub .binary64 u v = UnpackedFloat.add .binary64 u v.neg := by
    cases hu with
    | zero s =>
      cases hv with
      | zero t => rfl
      | finite t => rfl
    | finite s =>
      cases hv with
      | zero t => rfl
      | finite t =>
        unfold UnpackedFloat.sub UnpackedFloat.add UnpackedFloat.neg
        dsimp only
        rw [apply_eq (-t), signFactor_neg, neg_mul, ← apply_eq, sub_eq_add_neg]
  rw [hsub, hu.rank_pack_add hv.neg, sub_eq_add_neg]

/-- Multiplying is multiplying exactly, and rounding once. -/
theorem rank_pack_mul (hu : Stands u p) (hv : Stands v q) :
    rank (Float.ofModel (Float.Model.pack (UnpackedFloat.mul .binary64 u v))) =
      roundedRank (p * q) := by
  cases hu with
  | zero s =>
    rw [zero_mul, roundedRank_zero]
    cases hv with
    | zero t => exact rank_pack_zero _
    | finite t => exact rank_pack_zero _
  | @finite s m e hpos hm he hfull =>
    cases hv with
    | zero t =>
      rw [mul_zero, roundedRank_zero]
      exact rank_pack_zero _
    | @finite t m' e' hpos' hm' he' hfull' =>
      have hproduct := Nat.mul_pos hpos hpos'
      have hvalue : (m : ℚ) * 2 ^ e * (m' * 2 ^ e') = (m * m' : ℕ) * 2 ^ (e + e') := by
        rw [zpow_add₀ (by norm_num)]
        push_cast
        ring
      -- a product with a factor of 53 bits has as many, and any other is below the least unit
      have hunit : e + e' ≤ unitExponent ((m * m' : ℕ) * 2 ^ (e + e')) := by
        rw [unitExponent_mul_two_zpow hproduct]
        by_cases hbits : 2 ^ 52 ≤ m * m'
        · have hlog : 52 ≤ (m * m').log2 := (Nat.le_log2 hproduct.ne').2 hbits
          omega
        · have hlt := not_le.1 hbits
          have hm52 : m < 2 ^ 52 := lt_of_le_of_lt (Nat.le_mul_of_pos_right m hpos') hlt
          have hm52' : m' < 2 ^ 52 := lt_of_le_of_lt (Nat.le_mul_of_pos_left m' hpos) hlt
          omega
      have hsigned : (signFactor s : ℚ) * (m * 2 ^ e) * (signFactor t * (m' * 2 ^ e')) =
          signFactor (s * t) * ((m * m' : ℕ) * 2 ^ (e + e')) := by
        rw [mul_mul_mul_comm, hvalue, signFactor_mul, Int.cast_mul]
      rw [hsigned]
      exact rank_pack_roundWithAccuracy_exact (s * t) hproduct hunit

/-- Dividing is dividing exactly, and rounding once. -/
theorem rank_pack_div (hu : Stands u p) (hv : Stands v q) (hq : q ≠ 0) :
    rank (Float.ofModel (Float.Model.pack (UnpackedFloat.div .binary64 u v))) =
      roundedRank (p / q) := by
  cases hv with
  | zero t => exact absurd rfl hq
  | @finite t m' e' hpos' =>
    cases hu with
    | zero s =>
      rw [zero_div, roundedRank_zero]
      exact rank_pack_zero _
    | @finite s m e hpos =>
      obtain ⟨mantissa, exponent, acc, hcore, hrep, hunit, hbits⟩ :=
        divCore_spec hpos hpos' e e'
      have hvalue : (0 : ℚ) < m * 2 ^ e / (m' * 2 ^ e') := by
        have hpe := two_zpow_pos e
        have hpe' := two_zpow_pos e'
        positivity
      -- a sign is its own inverse
      have hinv : (signFactor t : ℚ)⁻¹ = signFactor t := by
        apply inv_eq_of_mul_eq_one_left
        exact_mod_cast signFactor_mul_self t
      have hsigned : (signFactor s : ℚ) * (m * 2 ^ e) / (signFactor t * (m' * 2 ^ e')) =
          signFactor (s / t) * (m * 2 ^ e / (m' * 2 ^ e')) := by
        rw [mul_div_mul_comm, signFactor_div, Int.cast_mul, div_eq_mul_inv (signFactor s : ℚ), hinv]
      unfold UnpackedFloat.div
      dsimp only
      rw [hcore, hsigned]
      exact rank_pack_roundWithAccuracy (s / t) hvalue hrep hunit hbits

end Stands

section

variable {x y : Float}

/-- A sum of finite numbers is the rounded sum of their values. -/
theorem rank_add (hx : x.isFinite = true) (hy : y.isFinite = true) :
    rank (x + y) = roundedRank (exactValue x + exactValue y) :=
  (stands_unpack hx).rank_pack_add (stands_unpack hy)

/-- A difference of finite numbers is the rounded difference of their values. -/
theorem rank_sub (hx : x.isFinite = true) (hy : y.isFinite = true) :
    rank (x - y) = roundedRank (exactValue x - exactValue y) :=
  (stands_unpack hx).rank_pack_sub (stands_unpack hy)

/-- A product of finite numbers is the rounded product of their values. -/
theorem rank_mul (hx : x.isFinite = true) (hy : y.isFinite = true) :
    rank (x * y) = roundedRank (exactValue x * exactValue y) :=
  (stands_unpack hx).rank_pack_mul (stands_unpack hy)

/-- A quotient of finite numbers is the rounded quotient of their values. -/
theorem rank_div (hx : x.isFinite = true) (hy : y.isFinite = true) (h : exactValue y ≠ 0) :
    rank (x / y) = roundedRank (exactValue x / exactValue y) :=
  (stands_unpack hx).rank_pack_div (stands_unpack hy) h

end

/-! ## Natural numbers -/

/-- The bit pattern of one. -/
theorem exactValue_one : exactValue (Float.ofBits 0x3FF0000000000000) = 1 := by
  have hrank : rank (Float.ofBits 0x3FF0000000000000) = (0x3FF0000000000000 : ℕ) := by decide
  have hfields : Binary.ofBits false 0x3FF0000000000000 = ⟨false, 2 ^ 52, -52⟩ := by decide
  rw [exactValue_of_rank hrank, hfields]
  unfold Binary.magnitude
  norm_num

/-- Natural numbers with 53 bits are magnitudes. -/
theorem exists_magnitude_eq_natCast {n : ℕ} (h : n < 2 ^ 53) :
    ∃ bits < infinityBits, (Binary.ofBits false bits).magnitude = n := by
  rcases Nat.eq_zero_or_pos n with rfl | hpos
  · exact ⟨0, by decide, by rw [Binary.magnitude_zero, Nat.cast_zero]⟩
  have hlog : n.log2 < 53 := (Nat.log2_lt (by omega)).2 h
  obtain ⟨k, hk⟩ : ∃ k : ℕ, 52 = n.log2 + k := ⟨52 - n.log2, by omega⟩
  have hlo : 2 ^ 52 ≤ n * 2 ^ k := by
    rw [hk, Nat.pow_add]
    exact Nat.mul_le_mul_right _ (Nat.log2_self_le hpos.ne')
  have hhi : n * 2 ^ k ≤ 2 ^ 53 := by
    have hpow : 2 ^ 53 = 2 ^ (n.log2 + 1) * 2 ^ k := by
      rw [← Nat.pow_add]
      congr 1
      omega
    rw [hpow]
    exact Nat.mul_le_mul_right _ Nat.lt_log2_self.le
  -- with zeros appended up to 53 bits it is a mantissa
  refine ⟨(-(k : ℤ) + 1074).toNat * 2 ^ 52 + n * 2 ^ k, ?_, ?_⟩
  · unfold infinityBits
    omega
  · rw [magnitude_of_units (by omega) hhi (.inl hlo), zpow_neg, zpow_natCast]
    push_cast
    field_simp

/-- They are kept. -/
theorem exists_roundedRank_natCast {n : ℕ} (h : n < 2 ^ 53) :
    ∃ bits < infinityBits, roundedRank n = bits ∧ (Binary.ofBits false bits).magnitude = n := by
  obtain ⟨bits, hbits, hvalue⟩ := exists_magnitude_eq_natCast h
  refine ⟨bits, hbits, ?_, hvalue⟩
  rw [roundedRank_of_nonneg (Nat.cast_nonneg n), ← hvalue, roundedBits_magnitude hbits]

/-- A decimal without a power of ten is multiplied by one. -/
theorem rank_pack_ofScientific {n : ℕ} (hpos : 0 < n) :
    rank (Float.ofModel (Float.Model.pack (UnpackedFloat.ofScientific .binary64 n 0))) =
      roundedRank n := by
  -- with an exponent of zero, the number is shifted to have bits to spare, and rounded
  have hunpacked : UnpackedFloat.ofScientific .binary64 n 0 =
      roundWithAccuracy .binary64 .positive (n <<< 53 * 1) (-53 + 0) .exact := by
    unfold UnpackedFloat.ofScientific
    rw [dif_neg hpos.ne', if_neg (by decide), if_neg ?_, if_pos (le_refl 0)]
    · rfl
    · show ¬ (0 : ℤ) < -(2048 + n.log2)
      omega
  have hvalue : ((n <<< 53 * 1 : ℕ) : ℚ) * 2 ^ (-53 + 0 : ℤ) = n := by
    rw [Nat.shiftLeft_eq, mul_one, add_zero, zpow_neg]
    push_cast
    exact mul_inv_cancel_right₀ (by norm_num) _
  have hproduct : 0 < n <<< 53 * 1 := by
    rw [Nat.shiftLeft_eq]
    omega
  -- so shifted it has more bits than the format
  have hlog : 53 ≤ (n <<< 53 * 1).log2 := by
    rw [Nat.le_log2 hproduct.ne', Nat.shiftLeft_eq]
    omega
  rw [hunpacked, rank_pack_roundWithAccuracy_exact _ hproduct, hvalue]
  · exact congrArg roundedRank (one_mul _)
  · rw [unitExponent_mul_two_zpow hproduct]
    omega

/-- A natural number becomes the nearest `Float`. -/
theorem rank_ofNat (n : ℕ) : rank (Float.ofNat n) = roundedRank n := by
  show rank (Float.ofScientific n false 0) = _
  unfold Float.ofScientific
  -- what has 53 bits is converted directly, and then times one
  by_cases h : n < 2 ^ 53 ∧ 0 ≤ 22
  · rw [dif_pos h]
    show rank (n.toUInt64.toFloat * Float.ofBits 0x3FF0000000000000) = _
    obtain ⟨bits, hbits, hround, hvalue⟩ := exists_roundedRank_natCast h.1
    have hrank : rank n.toUInt64.toFloat = bits := by
      have htoNat : n.toUInt64.toNat = n := by
        rw [Nat.toUInt64, UInt64.toNat_ofNat']
        omega
      show rank (Float.ofModel (Float.Model.pack
        (UnpackedFloat.normalize .binary64 (n.toUInt64.toNat : ℤ) 0 .positive))) = _
      rw [htoNat, rank_pack_normalize, zpow_zero, mul_one, Int.cast_natCast, hround]
    have hfinite : n.toUInt64.toFloat.isFinite = true := by
      rw [isFinite_iff_rank, hrank]
      omega
    rw [rank_mul hfinite (by decide), exactValue_one, mul_one, exactValue_of_rank hrank, hvalue]
  · rw [dif_neg h]
    exact rank_pack_ofScientific (by omega)

/-- Counting up does not go down. -/
theorem rank_ofNat_mono {i j : ℕ} (h : i ≤ j) : rank (Float.ofNat i) ≤ rank (Float.ofNat j) := by
  rw [rank_ofNat, rank_ofNat]
  exact roundedRank_mono (by exact_mod_cast h)

/-- Natural numbers with 53 bits are exact. -/
theorem exactValue_ofNat {n : ℕ} (h : n < 2 ^ 53) :
    (Float.ofNat n).isFinite = true ∧ exactValue (Float.ofNat n) = n := by
  obtain ⟨bits, hbits, hround, hvalue⟩ := exists_roundedRank_natCast h
  have hrank := (rank_ofNat n).trans hround
  rw [isFinite_iff_rank, hrank, exactValue_of_rank hrank]
  exact ⟨by omega, hvalue⟩

/-- Counting starts at zero. -/
theorem rank_ofNat_zero : rank (Float.ofNat 0) = 0 := by
  rw [rank_ofNat, Nat.cast_zero, roundedRank_zero]

/-- Only zero becomes a zero. -/
theorem exactValue_ofNat_pos {n : ℕ} (h : 0 < n) : 0 < exactValue (Float.ofNat n) := by
  have hone := (exactValue_ofNat (by decide : 1 < 2 ^ 53)).2
  have hmono : exactValue (Float.ofNat 1) ≤ exactValue (Float.ofNat n) :=
    (exactValue_le_iff _ _).2 (rank_ofNat_mono h)
  rw [hone] at hmono
  exact lt_of_lt_of_le (by norm_num) hmono

/-! ## Monotone operations -/

section

variable {x x' y y' : Float}

/-- A value is not negative if its rank is not. -/
theorem exactValue_nonneg_iff (x : Float) : 0 ≤ exactValue x ↔ 0 ≤ rank x := by
  have hzero : rank (Float.ofBits 0) = (0 : ℕ) := by decide
  have hvalue : exactValue (Float.ofBits 0) = 0 := by
    rw [exactValue_of_rank hzero, Binary.magnitude_zero]
  have hiff := exactValue_le_iff (Float.ofBits 0) x
  rw [hvalue, hzero] at hiff
  exact hiff

/-- Both zeros have the value zero. -/
theorem exactValue_of_rank_zero (h : rank x = 0) : exactValue x = 0 := by
  have hvalue : exactValue x = (Binary.ofBits false 0).magnitude := exactValue_of_rank h
  rw [hvalue, Binary.magnitude_zero]

/-- What lies between zero and a finite number is finite. -/
theorem isFinite_of_rank_le (h0 : 0 ≤ rank x) (h : rank x ≤ rank y) (hy : y.isFinite = true) :
    x.isFinite = true := by
  rw [isFinite_iff_rank] at hy ⊢
  omega

/-- Both zeros are finite. -/
theorem isFinite_of_rank_zero (h : rank x = 0) : x.isFinite = true := by
  rw [isFinite_iff_rank, h]
  decide

/-- A rounded number is not a NaN. -/
theorem magnitudeBits_le_of_rank {q : ℚ} (h : rank x = roundedRank q) :
    magnitudeBits x ≤ infinityBits := by
  rw [← natAbs_rank, h]
  exact natAbs_roundedRank_le q

/-- Adding the same keeps the order. -/
theorem rank_add_mono (hx : x.isFinite = true) (hx' : x'.isFinite = true) (hy : y.isFinite = true)
    (h : rank x ≤ rank x') : rank (x + y) ≤ rank (x' + y) := by
  rw [rank_add hx hy, rank_add hx' hy]
  exact roundedRank_mono (by linarith [(exactValue_le_iff x x').2 h])

/-- A difference grows with its first operand and shrinks with the second one. -/
theorem rank_sub_mono (hx : x.isFinite = true) (hx' : x'.isFinite = true) (hy : y.isFinite = true)
    (hy' : y'.isFinite = true) (h : rank x ≤ rank x') (h' : rank y' ≤ rank y) :
    rank (x - y) ≤ rank (x' - y') := by
  rw [rank_sub hx hy, rank_sub hx' hy']
  apply roundedRank_mono
  linarith [(exactValue_le_iff x x').2 h, (exactValue_le_iff y' y).2 h']

/-- Multiplying by what is not negative keeps the order. -/
theorem rank_mul_mono (hx : x.isFinite = true) (hx' : x'.isFinite = true) (hy : y.isFinite = true)
    (h0 : 0 ≤ rank y) (h : rank x ≤ rank x') : rank (x * y) ≤ rank (x' * y) := by
  rw [rank_mul hx hy, rank_mul hx' hy]
  exact roundedRank_mono (mul_le_mul_of_nonneg_right ((exactValue_le_iff x x').2 h)
    ((exactValue_nonneg_iff y).2 h0))

/-- Dividing by what is positive keeps the order. -/
theorem rank_div_mono (hx : x.isFinite = true) (hx' : x'.isFinite = true) (hy : y.isFinite = true)
    (h0 : 0 < exactValue y) (h : rank x ≤ rank x') : rank (x / y) ≤ rank (x' / y) := by
  rw [rank_div hx hy h0.ne', rank_div hx' hy h0.ne']
  exact roundedRank_mono (div_le_div_of_nonneg_right ((exactValue_le_iff x x').2 h) h0.le)

/-- A finite number is nothing to an infinite one. -/
theorem rank_div_of_not_isFinite (hx : x.isFinite = true) (hy : magnitudeBits y = infinityBits) :
    rank (x / y) = 0 := by
  have hinfinity : y.toModel.unpack = .infinity (unpackedSign (signBit y)) := by
    rcases unpack_cases y with ⟨hm, _⟩ | ⟨_, hm, _⟩ | ⟨_, hu⟩ | ⟨hm, _⟩
    · exact absurd (hm.symm.trans hy) (by decide)
    · omega
    · exact hu
    · omega
  show rank (Float.ofModel (Float.Model.pack
    (UnpackedFloat.div .binary64 x.toModel.unpack y.toModel.unpack))) = 0
  rw [hinfinity]
  -- whatever finite number is divided, by an infinity it becomes a zero
  cases hu : x.toModel.unpack with
  | zero s => exact rank_pack_zero _
  | finite s m e hm => exact rank_pack_zero _
  | infinity s => rw [isFinite_eq_unpack, hu] at hx; cases hx
  | notANumber => rw [isFinite_eq_unpack, hu] at hx; cases hx

end

/-! ## Magnitudes of products -/

section

variable {x x' y y' : Float}

/-- Without its sign, a value is that of the magnitude. -/
theorem abs_exactValue (x : Float) :
    |exactValue x| = (Binary.ofBits false (magnitudeBits x)).magnitude := by
  have h0 := Binary.magnitude_nonneg (magnitudeBits x)
  unfold exactValue
  split
  · rw [abs_neg, abs_of_nonneg h0]
  · rw [abs_of_nonneg h0]

/-- Of two magnitudes, the greater one has the greater value. -/
theorem abs_exactValue_le (h : magnitudeBits x ≤ magnitudeBits y) :
    |exactValue x| ≤ |exactValue y| := by
  rw [abs_exactValue, abs_exactValue]
  exact Binary.magnitude_strictMono.monotone h

/-- The magnitude of a product is that of the magnitudes. -/
theorem magnitudeBits_mul (hx : x.isFinite = true) (hy : y.isFinite = true) :
    magnitudeBits (x * y) = roundedBits (|exactValue x| * |exactValue y|) := by
  rw [← natAbs_rank, rank_mul hx hy, natAbs_roundedRank, abs_mul]

/-- The magnitude of a product grows with those of its factors. -/
theorem magnitudeBits_mul_mono (hx : x.isFinite = true) (hx' : x'.isFinite = true)
    (hy : y.isFinite = true) (hy' : y'.isFinite = true) (h : magnitudeBits x ≤ magnitudeBits x')
    (h' : magnitudeBits y ≤ magnitudeBits y') : magnitudeBits (x * y) ≤ magnitudeBits (x' * y') := by
  rw [magnitudeBits_mul hx hy, magnitudeBits_mul hx' hy']
  exact roundedBits_mono (mul_nonneg (abs_nonneg _) (abs_nonneg _))
    (mul_le_mul (abs_exactValue_le h) (abs_exactValue_le h') (abs_nonneg _) (abs_nonneg _))

/-- A factor of magnitude one changes at most the sign. -/
theorem magnitudeBits_mul_unit (hx : x.isFinite = true) (hy : y.isFinite = true)
    (h : |exactValue y| = 1) : magnitudeBits (x * y) = magnitudeBits x := by
  rw [magnitudeBits_mul hx hy, h, mul_one, abs_exactValue,
    roundedBits_magnitude ((isFinite_iff x).1 hx)]

/-- An infinity stays one if it is multiplied by a finite number other than zero. -/
theorem isInf_mul (hx : x.isInf = true) (hy : y.isFinite = true) (h0 : rank y ≠ 0) :
    (x * y).isInf = true := by
  obtain ⟨s, hs⟩ := unpack_of_isInf hx
  have hrank := natAbs_rank y
  have hlt := (isFinite_iff y).1 hy
  show (Float.ofModel (Float.Model.pack (UnpackedFloat.mul .binary64 _ _))).isInf = true
  rcases unpack_cases y with ⟨hm, _⟩ | ⟨_, _, hm, hu⟩ | ⟨hm, _⟩ | ⟨hm, _⟩
  · omega
  · rw [hs, hu]
    exact isInf_pack _
  · omega
  · omega

/-- Zero times an infinity is a NaN. -/
theorem isNaN_mul_of_zero (hx : rank x = 0) (hy : y.isInf = true) :
    (x * y).isNaN = true ∧ (y * x).isNaN = true := by
  obtain ⟨s, hs⟩ := unpack_of_isInf hy
  have hrank := natAbs_rank x
  have hinf : 0 < infinityBits := by decide
  -- a rank of zero is that of the two zeros only
  have hzero : ∃ t, x.toModel.unpack = .zero t := by
    rcases unpack_cases x with ⟨_, hu⟩ | ⟨hm, _⟩ | ⟨hm, _⟩ | ⟨hm, _⟩
    · exact ⟨_, hu⟩
    · omega
    · omega
    · omega
  obtain ⟨t, ht⟩ := hzero
  constructor
  · show (Float.ofModel (Float.Model.pack (UnpackedFloat.mul .binary64 _ _))).isNaN = true
    rw [hs, ht]
    exact isNaN_pack
  · show (Float.ofModel (Float.Model.pack (UnpackedFloat.mul .binary64 _ _))).isNaN = true
    rw [hs, ht]
    exact isNaN_pack

end

/-! ## The error of an operation -/

/-- What is rounded to a finite number is off by at most half a unit. -/
theorem exactValue_error {x : Float} {q : ℚ} (hx : x.isFinite = true) (h : rank x = roundedRank q)
    (hq : 0 ≤ q) : |exactValue x - q| ≤ q / 2 ^ 53 + leastError := by
  rw [roundedRank_of_nonneg hq] at h
  rw [isFinite_iff_rank, h] at hx
  rw [exactValue_of_rank h]
  exact roundedBits_error hq hx

/-- What is not above a finite number is rounded to a finite number. -/
theorem exactValue_error_of_le {x w : Float} {q : ℚ} (h : rank x = roundedRank q) (hq : 0 ≤ q)
    (hw : w.isFinite = true) (hle : q ≤ exactValue w) :
    x.isFinite = true ∧ 0 ≤ rank x ∧ |exactValue x - q| ≤ q / 2 ^ 53 + leastError := by
  have hlo := roundedRank_mono hq
  have hhi := roundedRank_mono hle
  rw [roundedRank_zero, ← h] at hlo
  rw [roundedRank_exactValue hw, ← h] at hhi
  have hx := isFinite_of_rank_le hlo hhi hw
  exact ⟨hx, hlo, exactValue_error hx h hq⟩

end DirectionField
