import DirectionField.Proofs.FloatBits
import DirectionField.Proofs.NearestFloat

/-!
# The order of floating-point numbers

Bit patterns of magnitudes are ordered as the magnitudes are (`Binary.magnitude_strictMono`). A number
that is not a NaN therefore has a place in the order of numbers, the `rank`, which counts the numbers
between it and zero, negatively below zero. Comparisons of numbers are comparisons of their ranks
(`le_iff_rank`, `beq_iff_rank`), and comparisons of their exact values (`exactValue_le_iff`).
-/

namespace DirectionField

open Float.Model (UnpackedFloat Format)
open Float.Model.UnpackedFloat (unpackSign unpackExponent unpackMantissa)

/-! ## Magnitudes -/

/-- The fields of a magnitude: the mantissa has 53 bits unless the exponent is the least one. -/
theorem Binary.ofBits_fields (bits : Nat) :
    (ofBits false bits).mantissa < 2 ^ 53 ∧ -1074 ≤ (ofBits false bits).exponent ∧
      (2 ^ 52 ≤ (ofBits false bits).mantissa ∨ (ofBits false bits).exponent = -1074) ∧
      (bits : ℤ) = ((ofBits false bits).exponent + 1074) * 2 ^ 52 + (ofBits false bits).mantissa := by
  unfold ofBits
  by_cases h : bits / 2 ^ 52 = 0
  · rw [if_pos h]
    dsimp only
    omega
  · rw [if_neg h]
    dsimp only
    omega

/-- Of two numbers of units with at most 53 bits, the one with the greater unit is the greater one
    if it has all its bits. -/
theorem mul_two_zpow_lt {m m' : Nat} {e e' : ℤ} (hm : m < 2 ^ 53) (hm' : 2 ^ 52 ≤ m') (he : e < e') :
    (m : ℚ) * 2 ^ e < m' * 2 ^ e' := by
  have hpos : (0 : ℚ) < 2 ^ e := zpow_pos (by norm_num) e
  have hstep : (2 : ℚ) * 2 ^ e ≤ 2 ^ e' := by
    rw [mul_comm, ← zpow_add_one₀ (by norm_num : (2 : ℚ) ≠ 0)]
    exact zpow_le_zpow_right₀ (by norm_num) (by omega)
  have hunits : (m : ℚ) < 2 * m' := by exact_mod_cast (by omega : m < 2 * m')
  calc (m : ℚ) * 2 ^ e < 2 * m' * 2 ^ e := mul_lt_mul_of_pos_right hunits hpos
    _ = m' * (2 * 2 ^ e) := by ring
    _ ≤ m' * 2 ^ e' := mul_le_mul_of_nonneg_left hstep (Nat.cast_nonneg m')

/-- Bit patterns are ordered as the magnitudes are. -/
theorem Binary.magnitude_strictMono : StrictMono fun bits => (ofBits false bits).magnitude := by
  intro bits bits' h
  obtain ⟨hm, he, hfull, hbits⟩ := ofBits_fields bits
  obtain ⟨hm', he', hfull', hbits'⟩ := ofBits_fields bits'
  dsimp only [magnitude]
  generalize (ofBits false bits).mantissa = m at *
  generalize (ofBits false bits).exponent = e at *
  generalize (ofBits false bits').mantissa = m' at *
  generalize (ofBits false bits').exponent = e' at *
  rcases lt_trichotomy e e' with hlt | rfl | hgt
  · exact mul_two_zpow_lt hm (by omega) hlt
  · have hpos : (0 : ℚ) < 2 ^ e := zpow_pos (by norm_num) e
    exact mul_lt_mul_of_pos_right (by exact_mod_cast (by omega : m < m')) hpos
  · omega

/-- The bit pattern zero is zero. -/
theorem Binary.magnitude_zero : (ofBits false 0).magnitude = 0 := zero_mul _

/-- No magnitude is negative. -/
theorem Binary.magnitude_nonneg (bits : Nat) : 0 ≤ (ofBits false bits).magnitude := by
  rw [← magnitude_zero]
  exact magnitude_strictMono.monotone (Nat.zero_le bits)

/-! ## Ranks -/

/-- The place of a number in the order of numbers; both zeros have the same one. -/
def rank (x : Float) : ℤ := if signBit x then -(magnitudeBits x) else magnitudeBits x

/-- The number that a finite `Float` is. -/
def exactValue (x : Float) : ℚ :=
  if signBit x then -(Binary.ofBits false (magnitudeBits x)).magnitude
  else (Binary.ofBits false (magnitudeBits x)).magnitude

/-- Without its sign, a rank is the magnitude. -/
theorem natAbs_rank (x : Float) : (rank x).natAbs = magnitudeBits x := by
  unfold rank
  split <;> omega

/-- The value of a number whose rank is known. -/
theorem exactValue_of_rank {x : Float} {bits : ℕ} (h : rank x = bits) :
    exactValue x = (Binary.ofBits false bits).magnitude := by
  unfold rank at h
  unfold exactValue
  cases hsign : signBit x with
  | false =>
    rw [hsign, if_neg Bool.false_ne_true] at h
    rw [if_neg Bool.false_ne_true, Int.natCast_inj.1 h]
  | true =>
    -- only zero has a magnitude that is not negative with this sign
    rw [hsign, if_pos rfl] at h
    obtain ⟨hzero, hzero'⟩ : magnitudeBits x = 0 ∧ bits = 0 := by omega
    rw [if_pos rfl, hzero, hzero', Binary.magnitude_zero, neg_zero]

/-- Numbers are ordered as their ranks are. -/
theorem exactValue_le_iff (x y : Float) : exactValue x ≤ exactValue y ↔ rank x ≤ rank y := by
  have hmono := Binary.magnitude_strictMono
  have hx := Binary.magnitude_nonneg (magnitudeBits x)
  have hy := Binary.magnitude_nonneg (magnitudeBits y)
  have hxy := hmono.le_iff_le (a := magnitudeBits x) (b := magnitudeBits y)
  have hyx := hmono.le_iff_le (a := magnitudeBits y) (b := magnitudeBits x)
  have hx0 := hmono.le_iff_le (a := magnitudeBits x) (b := 0)
  have hy0 := hmono.le_iff_le (a := magnitudeBits y) (b := 0)
  simp only [Binary.magnitude_zero] at hxy hyx hx0 hy0
  unfold exactValue rank
  cases signBit x <;> cases signBit y <;> simp only [Bool.false_eq_true, if_true, if_false]
  · rw [hxy]
    omega
  · -- only zero is not above a number with a negative sign
    constructor
    · intro h
      have h1 := hx0.1 (by linarith)
      have h2 := hy0.1 (by linarith)
      omega
    · intro h
      have h1 := hx0.2 (by omega)
      have h2 := hy0.2 (by omega)
      linarith
  · exact ⟨fun _ => by omega, fun _ => by linarith⟩
  · rw [neg_le_neg_iff, hyx]
    omega

/-- Values are in the order of the ranks. -/
theorem exactValue_lt_iff (x y : Float) : exactValue x < exactValue y ↔ rank x < rank y := by
  rw [← not_le, exactValue_le_iff, not_le]

/-- The finite numbers are those whose rank is between the infinities. -/
theorem isFinite_iff_rank (x : Float) : x.isFinite = true ↔ (rank x).natAbs < infinityBits := by
  rw [isFinite_iff, natAbs_rank]

/-- A finite number is no NaN. -/
theorem magnitudeBits_le_of_isFinite {x : Float} (h : x.isFinite = true) :
    magnitudeBits x ≤ infinityBits := Nat.le_of_lt ((isFinite_iff x).1 h)

/-! ## Numbers that are taken apart -/

/-- A sign as it is taken apart. -/
def unpackedSign (negative : Bool) : UnpackedFloat.Sign := if negative then .negative else .positive

/-- The sign is the leading bit. -/
theorem ofBitVec_unpackSign (x : Float) :
    UnpackedFloat.Sign.ofBitVec (@unpackSign .binary64 x.toBits.toBitVec) =
      unpackedSign (signBit x) := by
  have hsign := toNat_unpackSign x.toBits.toBitVec
  have hlt := (@unpackSign .binary64 x.toBits.toBitVec).isLt
  have hbit : signBit x = decide (x.toBits.toBitVec.toNat / 2 ^ 63 = 1) := rfl
  unfold UnpackedFloat.Sign.ofBitVec unpackedSign
  rw [hbit, ← hsign]
  by_cases h : @unpackSign .binary64 x.toBits.toBitVec = 0#1
  · rw [if_pos h, h]
    rfl
  · have hone : (@unpackSign .binary64 x.toBits.toBitVec).toNat = 1 := by
      have hne : (@unpackSign .binary64 x.toBits.toBitVec).toNat ≠ 0 :=
        fun h0 => h (BitVec.toNat_inj.1 h0)
      omega
    rw [if_neg h, hone]
    rfl

/-- Finite numbers with the same parts are the same. -/
theorem finite_congr {s : UnpackedFloat.Sign} {m m' : Nat} {e e' : ℤ} (hpos : 0 < m) (hm : m = m')
    (he : e = e') : ∃ hpos', UnpackedFloat.finite s m e hpos = .finite s m' e' hpos' := by
  subst hm he
  exact ⟨hpos, rfl⟩

/-- What a number is taken apart into, by its magnitude. -/
theorem unpack_cases (x : Float) :
    (magnitudeBits x = 0 ∧ x.toModel.unpack = .zero (unpackedSign (signBit x))) ∨
    (0 < magnitudeBits x ∧ magnitudeBits x < infinityBits ∧
      ∃ hm, x.toModel.unpack = .finite (unpackedSign (signBit x))
        (Binary.ofBits false (magnitudeBits x)).mantissa
        (Binary.ofBits false (magnitudeBits x)).exponent hm) ∨
    (magnitudeBits x = infinityBits ∧ x.toModel.unpack = .infinity (unpackedSign (signBit x))) ∨
    (infinityBits < magnitudeBits x ∧ x.toModel.unpack = .notANumber) := by
  have hE := toNat_unpackExponent x.toBits.toBitVec
  have hM := toNat_unpackMantissa x.toBits.toBitVec
  have hS := ofBitVec_unpackSign x
  have hmag : magnitudeBits x = x.toBits.toBitVec.toNat % 2 ^ 63 := rfl
  have hunpack : x.toModel.unpack = UnpackedFloat.unpack .binary64 x.toBits.toBitVec := rfl
  unfold UnpackedFloat.unpack at hunpack
  dsimp only at hunpack
  rw [hS] at hunpack
  unfold infinityBits
  by_cases he : @unpackExponent .binary64 x.toBits.toBitVec = -1#11
  · have hE' : x.toBits.toBitVec.toNat / 2 ^ 52 % 2 ^ 11 = 2047 := by rw [← hE, he]; rfl
    rw [if_pos he] at hunpack
    by_cases hm : @unpackMantissa .binary64 x.toBits.toBitVec = 0#52
    · have hM' : x.toBits.toBitVec.toNat % 2 ^ 52 = 0 := by rw [← hM, hm]; rfl
      rw [if_pos hm] at hunpack
      exact .inr (.inr (.inl ⟨by omega, hunpack⟩))
    · have hM' : x.toBits.toBitVec.toNat % 2 ^ 52 ≠ 0 := by
        rw [← hM]
        exact fun h => hm (BitVec.toNat_inj.1 h)
      rw [if_neg hm] at hunpack
      exact .inr (.inr (.inr ⟨by omega, hunpack⟩))
  · have hE' : x.toBits.toBitVec.toNat / 2 ^ 52 % 2 ^ 11 ≠ 2047 := by
      rw [← hE]
      exact fun h => he (BitVec.toNat_inj.1 h)
    rw [if_neg he] at hunpack
    by_cases h0 : @unpackExponent .binary64 x.toBits.toBitVec = 0#11
    · have hE0 : x.toBits.toBitVec.toNat / 2 ^ 52 % 2 ^ 11 = 0 := by rw [← hE, h0]; rfl
      rw [if_pos h0] at hunpack
      by_cases hm : @unpackMantissa .binary64 x.toBits.toBitVec = 0#52
      · have hM' : x.toBits.toBitVec.toNat % 2 ^ 52 = 0 := by rw [← hM, hm]; rfl
        rw [dif_pos hm] at hunpack
        exact .inl ⟨by omega, hunpack⟩
      · have hM' : x.toBits.toBitVec.toNat % 2 ^ 52 ≠ 0 := by
          rw [← hM]
          exact fun h => hm (BitVec.toNat_inj.1 h)
        rw [dif_neg hm] at hunpack
        -- the exponent field zero stands for the least exponent
        have hexp : ((@unpackExponent .binary64 x.toBits.toBitVec).toNat : ℤ) -
            ((Format.binary64.exponentBias : Nat) +
              (Format.binary64.mantissaBitsWithoutImplicit : Nat)) + 1 = -1074 := by
          rw [h0]; rfl
        have hsub : magnitudeBits x / 2 ^ 52 = 0 := by omega
        refine .inr (.inl ⟨by omega, by omega, ?_⟩)
        have hmant : (@unpackMantissa .binary64 x.toBits.toBitVec).toNat = magnitudeBits x := by
          omega
        rw [hunpack]
        unfold Binary.ofBits
        rw [if_pos hsub]
        exact finite_congr _ hmant hexp
    · have hE0 : x.toBits.toBitVec.toNat / 2 ^ 52 % 2 ^ 11 ≠ 0 := by
        rw [← hE]
        exact fun h => h0 (BitVec.toNat_inj.1 h)
      rw [if_neg h0] at hunpack
      -- any other exponent field comes with a leading bit that is not stored
      have hexp : ((@unpackExponent .binary64 x.toBits.toBitVec).toNat : ℤ) -
          ((Format.binary64.exponentBias : Nat) +
            (Format.binary64.mantissaBitsWithoutImplicit : Nat)) =
          (magnitudeBits x / 2 ^ 52 : Nat) - 1075 := by
        rw [hE]
        show _ - ((1023 : ℤ) + 52) = _
        omega
      have hmant : (1#1 ++ @unpackMantissa .binary64 x.toBits.toBitVec).toNat =
          magnitudeBits x % 2 ^ 52 + 2 ^ 52 := by
        rw [toNat_append, hM]
        show 1 * 2 ^ 52 + _ = _
        omega
      have hnormal : magnitudeBits x / 2 ^ 52 ≠ 0 := by omega
      refine .inr (.inl ⟨by omega, by omega, ?_⟩)
      rw [hunpack]
      unfold Binary.ofBits
      rw [if_neg hnormal]
      exact finite_congr _ hmant hexp

/-- A bit pattern beyond that of infinity is a NaN. -/
theorem unpack_of_lt {x : Float} (h : infinityBits < magnitudeBits x) :
    x.toModel.unpack = .notANumber := by
  rcases unpack_cases x with ⟨hm, _⟩ | ⟨_, hlt, _⟩ | ⟨hm, _⟩ | ⟨_, hu⟩
  · omega
  · omega
  · omega
  · exact hu

/-- The NaNs are the bit patterns beyond that of infinity. -/
theorem isNaN_iff (x : Float) : x.isNaN = true ↔ infinityBits < magnitudeBits x := by
  have hdef : x.isNaN = x.toModel.unpack.isNaN := rfl
  rcases unpack_cases x with ⟨hm, hu⟩ | ⟨_, hlt, _, hu⟩ | ⟨hm, hu⟩ | ⟨hlt, hu⟩
  · rw [hdef, hu]
    exact iff_of_false (fun h => nomatch h) (by omega)
  · rw [hdef, hu]
    exact iff_of_false (fun h => nomatch h) (by omega)
  · rw [hdef, hu]
    exact iff_of_false (fun h => nomatch h) (by omega)
  · rw [hdef, hu]
    exact iff_of_true rfl hlt

/-! ## Comparisons -/

/-- Exponents and then mantissas are compared as the bit patterns are. -/
theorem compare_fields (bits bits' : Nat) :
    (compare (Binary.ofBits false bits).exponent (Binary.ofBits false bits').exponent).then
        (compare (Binary.ofBits false bits).mantissa (Binary.ofBits false bits').mantissa) =
      compare (bits : ℤ) bits' := by
  obtain ⟨hm, he, hfull, hbits⟩ := Binary.ofBits_fields bits
  obtain ⟨hm', he', hfull', hbits'⟩ := Binary.ofBits_fields bits'
  generalize (Binary.ofBits false bits).mantissa = m at *
  generalize (Binary.ofBits false bits).exponent = e at *
  generalize (Binary.ofBits false bits').mantissa = m' at *
  generalize (Binary.ofBits false bits').exponent = e' at *
  -- a greater exponent makes a greater bit pattern, since mantissas stay below the next one
  rcases lt_trichotomy e e' with hlt | rfl | hgt
  · rw [compare_lt_iff_lt.2 hlt, compare_lt_iff_lt.2 (by omega : (bits : ℤ) < bits')]
    rfl
  · rw [compare_eq_iff_eq.2 rfl]
    rcases lt_trichotomy m m' with hlt | rfl | hgt
    · rw [compare_lt_iff_lt.2 hlt, compare_lt_iff_lt.2 (by omega : (bits : ℤ) < bits')]
      rfl
    · rw [compare_eq_iff_eq.2 rfl, compare_eq_iff_eq.2 (by omega : (bits : ℤ) = bits')]
      rfl
    · rw [compare_gt_iff_gt.2 hgt, compare_gt_iff_gt.2 (by omega : (bits : ℤ) > bits')]
      rfl
  · rw [compare_gt_iff_gt.2 hgt, compare_gt_iff_gt.2 (by omega : (bits : ℤ) > bits')]
    rfl

/-- Negating both sides turns a comparison round. -/
theorem swap_compare (a b : ℤ) : (compare a b).swap = compare (-a) (-b) := by
  rcases lt_trichotomy a b with hlt | rfl | hgt
  · rw [compare_lt_iff_lt.2 hlt, compare_gt_iff_gt.2 (by omega : -a > -b)]
    rfl
  · rw [compare_eq_iff_eq.2 rfl, compare_eq_iff_eq.2 rfl]
    rfl
  · rw [compare_gt_iff_gt.2 hgt, compare_lt_iff_lt.2 (by omega : -a < -b)]
    rfl

/-- Numbers that are not NaNs are compared as their ranks are. -/
theorem compare_unpack {x y : Float} (hx : magnitudeBits x ≤ infinityBits)
    (hy : magnitudeBits y ≤ infinityBits) :
    UnpackedFloat.compare x.toModel.unpack y.toModel.unpack = some (compare (rank x) (rank y)) := by
  have hlt {a b : ℤ} (h : a < b) : some Ordering.lt = some (compare a b) := by
    rw [compare_lt_iff_lt.2 h]
  have hgt {a b : ℤ} (h : b < a) : some Ordering.gt = some (compare a b) := by
    rw [compare_gt_iff_gt.2 h]
  have heq {a b : ℤ} (h : a = b) : some Ordering.eq = some (compare a b) := by
    rw [compare_eq_iff_eq.2 h]
  have hinf : 0 < infinityBits := by decide
  have hsame := congrArg some (compare_fields (magnitudeBits x) (magnitudeBits y))
  have hswap := congrArg (Option.map Ordering.swap) hsame
  simp only [Option.map_some, swap_compare] at hswap
  have hsign (x : Float) : (signBit x = false ∧ rank x = magnitudeBits x) ∨
      (signBit x = true ∧ rank x = -(magnitudeBits x : ℤ)) := by
    unfold rank
    cases signBit x with
    | false => exact .inl ⟨rfl, rfl⟩
    | true => exact .inr ⟨rfl, rfl⟩
  rcases unpack_cases x with ⟨hmx, hux⟩ | ⟨hposx, hltx, _, hux⟩ | ⟨hmx, hux⟩ | ⟨hnan, _⟩ <;>
    rcases unpack_cases y with ⟨hmy, huy⟩ | ⟨hposy, hlty, _, huy⟩ | ⟨hmy, huy⟩ | ⟨hnan', _⟩ <;>
    first | omega | skip
  all_goals
    rcases hsign x with ⟨hsx, hrx⟩ | ⟨hsx, hrx⟩ <;>
      rcases hsign y with ⟨hsy, hry⟩ | ⟨hsy, hry⟩ <;>
      rw [hux, huy, hsx, hsy, hrx, hry]
  -- only two finite numbers with the same sign need more than their kinds
  all_goals first
    | exact hlt (by omega)
    | exact hgt (by omega)
    | exact heq (by omega)
    | exact hsame
    | exact hswap

/-- The order of two numbers is what they compare to. -/
theorem le_iff_compare (x y : Float) :
    x ≤ y ↔ (UnpackedFloat.compare x.toModel.unpack y.toModel.unpack).any (·.isLE) = true := by
  show Float.le x y = true ↔ _
  exact decide_eq_true_iff

/-- Except for NaNs, numbers are in the order of their ranks. -/
theorem le_iff_rank {x y : Float} (hx : magnitudeBits x ≤ infinityBits)
    (hy : magnitudeBits y ≤ infinityBits) : x ≤ y ↔ rank x ≤ rank y := by
  rw [le_iff_compare, compare_unpack hx hy, Option.any_some]
  exact Int.isLE_compare

/-- And strictly so. -/
theorem lt_iff_rank {x y : Float} (hx : magnitudeBits x ≤ infinityBits)
    (hy : magnitudeBits y ≤ infinityBits) : x < y ↔ rank x < rank y := by
  have hlt : x < y ↔
      (UnpackedFloat.compare x.toModel.unpack y.toModel.unpack == some .lt) = true := by
    show Float.lt x y = true ↔ _
    exact decide_eq_true_iff
  rw [hlt, compare_unpack hx hy, beq_iff_eq, Option.some.injEq]
  exact compare_lt_iff_lt

/-- Except for NaNs, numbers are equal if their ranks are, so that the two zeros are. -/
theorem beq_iff_rank {x y : Float} (hx : magnitudeBits x ≤ infinityBits)
    (hy : magnitudeBits y ≤ infinityBits) : (x == y) = true ↔ rank x = rank y := by
  have hbeq : (x == y) =
      (UnpackedFloat.compare x.toModel.unpack y.toModel.unpack == some .eq) := rfl
  rw [hbeq, compare_unpack hx hy, beq_iff_eq, Option.some.injEq]
  exact compare_eq_iff_eq

/-- A NaN is not comparable with anything. -/
theorem magnitudeBits_le_of_le {x y : Float} (h : x ≤ y) :
    magnitudeBits x ≤ infinityBits ∧ magnitudeBits y ≤ infinityBits := by
  rw [le_iff_compare] at h
  refine ⟨not_lt.1 fun hnan => ?_, not_lt.1 fun hnan => ?_⟩
  · rw [unpack_of_lt hnan] at h
    cases h
  · rw [unpack_of_lt hnan] at h
    cases hx : x.toModel.unpack <;> (rw [hx] at h; cases h)

end DirectionField
