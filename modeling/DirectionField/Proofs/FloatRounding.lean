import DirectionField.Proofs.FloatOrder
import DirectionField.Proofs.NumberText

/-!
# Rounded numbers

`roundedBits q` is the bit pattern of the magnitude nearest to a fraction `q ≥ 0`: a whole number of
units, where the unit leaves 53 bits but is at least `2 ^ -1074` (`roundedBits_spec`). It does not
decrease as `q` increases (`roundedBits_mono`), keeps what is a magnitude already
(`roundedBits_magnitude`), and is off by at most half a unit (`roundedBits_error`). `roundedRank` is the
same for fractions of both signs.
-/

namespace DirectionField

/-! ## Nearest whole numbers -/

/-- `m` is nearest to `x`, and even if it is not the only one. -/
structure IsNearest (x : ℚ) (m : ℕ) : Prop where
  le_add_half : x ≤ m + 1 / 2
  sub_half_le : m - 1 / 2 ≤ x
  even : x = m + 1 / 2 ∨ x = m - 1 / 2 → m % 2 = 0

namespace IsNearest

variable {x y : ℚ} {m m' : ℕ}

/-- Rounding to the nearest integer keeps the order. -/
theorem mono (h : x ≤ y) (hm : IsNearest x m) (hm' : IsNearest y m') : m ≤ m' := by
  by_contra hlt
  have hle : (m' : ℚ) + 1 ≤ m := by exact_mod_cast (by omega : m' + 1 ≤ m)
  have hx := hm.sub_half_le
  have hy := hm'.le_add_half
  -- both are half way between the two, which cannot both be even
  have heq : m = m' + 1 := by exact_mod_cast (by linarith : (m : ℚ) = m' + 1)
  have heven := hm.even (.inr (by linarith))
  have heven' := hm'.even (.inl (by linarith))
  omega

/-- There is one nearest integer, of two the even one. -/
theorem unique (hm : IsNearest x m) (hm' : IsNearest x m') : m = m' :=
  Nat.le_antisymm (hm.mono (le_refl x) hm') (hm'.mono (le_refl x) hm)

/-- A whole number is nearest to itself. -/
theorem natCast (m : ℕ) : IsNearest m m :=
  ⟨by linarith, by linarith, fun h => by rcases h with h | h <;> linarith⟩

/-- Rounding does not go beyond an integer above. -/
theorem le_of_le (hm : IsNearest x m) {n : ℕ} (h : x ≤ n) : m ≤ n := hm.mono h (natCast n)

/-- Rounding does not go beyond an integer below. -/
theorem ge_of_ge (hm : IsNearest x m) {n : ℕ} (h : n ≤ x) : n ≤ m := (natCast n).mono h hm

end IsNearest

/-- Quotients of natural numbers are rounded to the nearest one. -/
theorem isNearest_roundDiv (num : ℕ) {den : ℕ} (hd : 0 < den) :
    IsNearest (num / den) (roundDiv num den) := by
  have hd' : (0 : ℚ) < den := by exact_mod_cast hd
  have hmod : (num : ℚ) = den * (num / den : ℕ) + (num % den : ℕ) := by
    exact_mod_cast (Nat.div_add_mod num den).symm
  have hlt := Nat.mod_lt num hd
  unfold roundDiv
  dsimp only
  generalize num / den = q at *
  generalize num % den = r at *
  have hx : (num : ℚ) / den = q + r / den := by rw [hmod]; field_simp
  have hhalf : (r : ℚ) / den ≤ 1 / 2 ↔ 2 * r ≤ den := by
    rw [div_le_div_iff₀ hd' (by norm_num), mul_comm, one_mul]
    exact_mod_cast Iff.rfl
  have hhalf' : (1 / 2 : ℚ) ≤ r / den ↔ den ≤ 2 * r := by
    rw [div_le_div_iff₀ (by norm_num) hd', mul_comm (r : ℚ), one_mul]
    exact_mod_cast Iff.rfl
  have hr : (0 : ℚ) ≤ r / den := by positivity
  have hr' : (r : ℚ) / den < 1 := by
    rw [div_lt_one hd']
    exact_mod_cast hlt
  rw [hx]
  -- down or up, and either is only taken half way if the result is even
  by_cases h : 2 * r < den ∨ (2 * r = den ∧ q % 2 = 0)
  · rw [if_pos h]
    have hle := hhalf.2 (by omega)
    refine ⟨by linarith, by linarith, ?_⟩
    rintro (htie | htie)
    · have hge := hhalf'.1 (by linarith)
      omega
    · linarith
  · rw [if_neg h]
    have hge := hhalf'.2 (by omega)
    have hsucc : ((q + 1 : ℕ) : ℚ) = q + 1 := Nat.cast_succ q
    refine ⟨by linarith, by linarith, ?_⟩
    rintro (htie | htie)
    · linarith
    · have hle := hhalf.1 (by linarith)
      omega

/-! ## Units -/

/-- The exponent of the unit of a rounded number: it leaves 53 bits, but is not below the least
    one. -/
def unitExponent (q : ℚ) : ℤ := max (-1074) (Int.log 2 q - 52)

section

variable {q : ℚ}

/-- Powers of two are positive. -/
theorem two_zpow_pos (e : ℤ) : (0 : ℚ) < 2 ^ e := zpow_pos (by norm_num) e

/-- The last place of a greater number is no lower. -/
theorem unitExponent_mono {q' : ℚ} (hq : 0 < q) (h : q ≤ q') : unitExponent q ≤ unitExponent q' := by
  have hlog := Int.log_mono_right (b := 2) hq h
  unfold unitExponent
  omega

/-- There are 53 bits at most, and no fewer unless the unit is the least one. -/
theorem unit_bounds (hq : 0 < q) :
    q / 2 ^ unitExponent q < 2 ^ 53 ∧
      (2 ^ 52 ≤ q / 2 ^ unitExponent q ∨ unitExponent q = -1074) := by
  have hlo : (2 : ℚ) ^ Int.log 2 q ≤ q := Int.zpow_log_le_self (by norm_num) hq
  have hhi : q < (2 : ℚ) ^ (Int.log 2 q + 1) := Int.lt_zpow_succ_log_self (by norm_num) q
  have hpos := two_zpow_pos (unitExponent q)
  constructor
  · rw [div_lt_iff₀ hpos, ← zpow_natCast, ← zpow_add₀ (by norm_num)]
    refine lt_of_lt_of_le hhi (zpow_le_zpow_right₀ (by norm_num) ?_)
    unfold unitExponent
    push_cast
    omega
  · -- normal numbers have all 53 bits, and subnormal ones the lowest last place there is
    rcases le_or_gt (-1074) (Int.log 2 q - 52) with h | h
    · left
      have hunit : unitExponent q = Int.log 2 q - 52 := by unfold unitExponent; omega
      rw [le_div_iff₀ hpos, hunit, ← zpow_natCast, ← zpow_add₀ (by norm_num)]
      have hexp : ((52 : ℕ) : ℤ) + (Int.log 2 q - 52) = Int.log 2 q := by push_cast; omega
      rw [hexp]
      exact hlo
    · right
      unfold unitExponent
      omega

/-- The unit is the least one, or at most the fraction's 52nd binary place. -/
theorem unit_le (hq : 0 < q) : (2 : ℚ) ^ unitExponent q ≤ q / 2 ^ 52 + 2 ^ (-1074 : ℤ) := by
  rcases (unit_bounds hq).2 with h | h
  · rw [le_div_iff₀ (two_zpow_pos _)] at h
    have hpos := two_zpow_pos (-1074)
    have hle : (2 : ℚ) ^ unitExponent q ≤ q / 2 ^ 52 := by
      rw [le_div_iff₀ (by norm_num), mul_comm]
      exact h
    linarith
  · rw [h]
    have hdiv : 0 ≤ q / 2 ^ 52 := by positivity
    linarith

end

/-! ## Rounded bit patterns -/

/-- The bit pattern of the magnitude nearest to a fraction that is not negative. -/
def roundedBits (q : ℚ) : ℕ := nearestBits q.num.natAbs q.den

/-- The nearest bit pattern of a fraction, by its last place and the nearest integer there. -/
theorem nearestBits_spec {num den : ℕ} (hn : 0 < num) (hd : 0 < den) :
    ∃ m, IsNearest (num / den / 2 ^ unitExponent (num / den)) m ∧
      nearestBits num den =
        min ((unitExponent (num / den) + 1074).toNat * 2 ^ 52 + m) infinityBits := by
  have hunit : max (-1074) (floorLog2 num den - 52) = unitExponent (num / den) := by
    rw [floorLog2_eq_log hn hd]
    rfl
  unfold nearestBits
  rw [if_neg (by omega)]
  dsimp only
  rw [hunit]
  generalize unitExponent (num / den) = unit
  refine ⟨_, ?_, rfl⟩
  -- the last place divides or multiplies, by the sign of its exponent
  by_cases h : 0 ≤ unit
  · obtain ⟨k, rfl⟩ := Int.eq_ofNat_of_zero_le h
    have hnearest := isNearest_roundDiv num (Nat.mul_pos hd (Nat.two_pow_pos k))
    rw [if_pos h, Int.toNat_natCast, zpow_natCast, div_div]
    push_cast at hnearest
    exact hnearest
  · obtain ⟨k, hk⟩ := Int.eq_ofNat_of_zero_le (by omega : 0 ≤ -unit)
    obtain rfl : unit = -(k : ℤ) := by omega
    have hnearest := isNearest_roundDiv (num * 2 ^ k) hd
    rw [if_neg h, neg_neg, Int.toNat_natCast, zpow_neg, zpow_natCast, div_inv_eq_mul,
      div_mul_eq_mul_div]
    push_cast at hnearest
    exact hnearest

section

variable {q q' : ℚ} {m : ℕ}

/-- A rational that is not negative is the quotient of its numerator and its denominator. -/
theorem cast_natAbs_num (hq : 0 ≤ q) : (q.num.natAbs : ℚ) / q.den = q := by
  have hnum : ((q.num.natAbs : ℤ) : ℚ) = q.num := by
    rw [Int.natAbs_of_nonneg (Rat.num_nonneg.2 hq)]
  rw [← Int.cast_natCast, hnum, Rat.num_div_den]

/-- Zero is rounded to zero. -/
theorem roundedBits_zero : roundedBits 0 = 0 := nearestBits_zero 1

/-- Rounding goes no further than to infinity. -/
theorem roundedBits_le (q : ℚ) : roundedBits q ≤ infinityBits := nearestBits_le _ _

/-- A positive value is rounded to the nearest integer at its last place. -/
theorem roundedBits_spec (hq : 0 < q) : ∃ m, IsNearest (q / 2 ^ unitExponent q) m ∧
    roundedBits q = min ((unitExponent q + 1074).toNat * 2 ^ 52 + m) infinityBits := by
  have hnum : 0 < q.num.natAbs := Int.natAbs_pos.2 (Rat.num_pos.2 hq).ne'
  have hspec := nearestBits_spec hnum q.den_pos
  rw [cast_natAbs_num hq.le] at hspec
  exact hspec

/-- Any nearest number of units will do, because there is only one. -/
theorem roundedBits_eq (hq : 0 < q) (hm : IsNearest (q / 2 ^ unitExponent q) m) :
    roundedBits q = min ((unitExponent q + 1074).toNat * 2 ^ 52 + m) infinityBits := by
  obtain ⟨m', hm', hbits⟩ := roundedBits_spec hq
  rw [hbits, hm'.unique hm]

/-- A rounded number has 53 bits at most or is the next power of two, and has no fewer bits unless
    its unit is the least one. -/
theorem IsNearest.unit_bounds (hq : 0 < q) (hm : IsNearest (q / 2 ^ unitExponent q) m) :
    m ≤ 2 ^ 53 ∧ (2 ^ 52 ≤ m ∨ unitExponent q = -1074) := by
  obtain ⟨hhi, hlo⟩ := DirectionField.unit_bounds hq
  refine ⟨hm.le_of_le (by exact_mod_cast hhi.le), hlo.imp_left fun h => hm.ge_of_ge ?_⟩
  exact_mod_cast h

/-- Rounding keeps the order of values that are not negative. -/
theorem roundedBits_mono (hq : 0 ≤ q) (h : q ≤ q') : roundedBits q ≤ roundedBits q' := by
  rcases hq.eq_or_lt with rfl | hq
  · rw [roundedBits_zero]
    exact Nat.zero_le _
  have hq' : 0 < q' := lt_of_lt_of_le hq h
  obtain ⟨m, hm, hbits⟩ := roundedBits_spec hq
  obtain ⟨m', hm', hbits'⟩ := roundedBits_spec hq'
  obtain ⟨hle, _⟩ := hm.unit_bounds hq
  obtain ⟨_, hge⟩ := hm'.unit_bounds hq'
  -- with the same unit the numbers of units are compared, else the units
  have hleast : -1074 ≤ unitExponent q := by unfold unitExponent; omega
  rw [hbits, hbits']
  rcases (unitExponent_mono hq h).eq_or_lt with heq | hlt
  · have hmm : m ≤ m' := by
      rw [← heq] at hm'
      exact hm.mono (div_le_div_of_nonneg_right h (two_zpow_pos _).le) hm'
    omega
  · -- a greater unit makes up for a carry
    omega

/-- What is a magnitude already is kept. -/
theorem roundedBits_magnitude {bits : ℕ} (h : bits < infinityBits) :
    roundedBits (Binary.ofBits false bits).magnitude = bits :=
  nearestBits_eq_of_exact (Rat.den_pos _) h (cast_natAbs_num (Binary.magnitude_nonneg bits))

/-! ## The error of rounding -/

/-- The magnitude with a given number of units, which may be one carried into the next binary
    place. -/
theorem magnitude_of_units {u : ℤ} (hu : -1074 ≤ u) (hm : m ≤ 2 ^ 53)
    (hfull : 2 ^ 52 ≤ m ∨ u = -1074) :
    (Binary.ofBits false ((u + 1074).toNat * 2 ^ 52 + m)).magnitude = m * 2 ^ u := by
  obtain ⟨k, rfl⟩ : ∃ k : ℕ, u = k - 1074 := ⟨(u + 1074).toNat, by omega⟩
  have hk : ((k : ℤ) - 1074 + 1074).toNat = k := by omega
  rw [hk]
  unfold Binary.magnitude Binary.ofBits
  rcases hm.eq_or_lt with rfl | hlt
  · -- the carry has gone into the exponent
    have hnormal : ¬ (k * 2 ^ 52 + 2 ^ 53) / 2 ^ 52 = 0 := by omega
    have hmod : (k * 2 ^ 52 + 2 ^ 53) % 2 ^ 52 + 2 ^ 52 = 2 ^ 52 := by omega
    have hdiv : (((k * 2 ^ 52 + 2 ^ 53) / 2 ^ 52 : ℕ) : ℤ) - 1075 = k - 1074 + 1 := by omega
    rw [if_neg hnormal]
    dsimp only
    rw [hmod, hdiv, zpow_add_one₀ (by norm_num)]
    push_cast
    ring
  · by_cases hsub : m < 2 ^ 52
    · -- a subnormal number
      obtain rfl : k = 0 := by omega
      have hzero : (0 * 2 ^ 52 + m) / 2 ^ 52 = 0 := by omega
      rw [if_pos hzero]
      norm_num
    · have hnormal : ¬ (k * 2 ^ 52 + m) / 2 ^ 52 = 0 := by omega
      have hmod : (k * 2 ^ 52 + m) % 2 ^ 52 + 2 ^ 52 = m := by omega
      have hdiv : (((k * 2 ^ 52 + m) / 2 ^ 52 : ℕ) : ℤ) - 1075 = k - 1074 := by omega
      rw [if_neg hnormal]
      dsimp only
      rw [hmod, hdiv]

/-- Half of the least unit. -/
def leastError : ℚ := 2 ^ (-1075 : ℤ)

/-- Half of the smallest positive number is positive. -/
theorem leastError_pos : 0 < leastError := two_zpow_pos _

/-- A rounded number is off by at most half a unit. -/
theorem roundedBits_error (hq : 0 ≤ q) (h : roundedBits q < infinityBits) :
    |(Binary.ofBits false (roundedBits q)).magnitude - q| ≤ q / 2 ^ 53 + leastError := by
  rcases hq.eq_or_lt with rfl | hq
  · rw [roundedBits_zero, Binary.magnitude_zero, sub_self, abs_zero, zero_div, zero_add]
    exact leastError_pos.le
  obtain ⟨m, hm, hbits⟩ := roundedBits_spec hq
  obtain ⟨hle, hfull⟩ := hm.unit_bounds hq
  have hleast : -1074 ≤ unitExponent q := by unfold unitExponent; omega
  have hpos := two_zpow_pos (unitExponent q)
  have hunit := unit_le hq
  have hhalf : (2 : ℚ) ^ (-1074 : ℤ) = 2 * leastError := by
    unfold leastError
    rw [← zpow_one_add₀ (by norm_num)]
    rfl
  -- the error in units is at most a half
  have hup := mul_le_mul_of_nonneg_right hm.le_add_half hpos.le
  have hdown := mul_le_mul_of_nonneg_right hm.sub_half_le hpos.le
  rw [div_mul_cancel₀ _ hpos.ne'] at hup hdown
  have hbits' : roundedBits q = (unitExponent q + 1074).toNat * 2 ^ 52 + m := by omega
  rw [hbits', magnitude_of_units hleast hle hfull, abs_le]
  constructor
  · linarith
  · linarith

end

/-! ## Signs -/

/-- The rank of the number nearest to a fraction. -/
def roundedRank (q : ℚ) : ℤ := if 0 ≤ q then roundedBits q else -roundedBits (-q)

/-- Without a sign, the rank is the magnitude. -/
theorem roundedRank_of_nonneg {q : ℚ} (h : 0 ≤ q) : roundedRank q = roundedBits q := if_pos h

/-- Zero is rounded to zero. -/
theorem roundedRank_zero : roundedRank 0 = 0 := by
  rw [roundedRank_of_nonneg (le_refl 0), roundedBits_zero]
  rfl

/-- Opposite values are rounded to opposite numbers. -/
theorem roundedRank_neg (q : ℚ) : roundedRank (-q) = -roundedRank q := by
  unfold roundedRank
  rcases lt_trichotomy q 0 with h | rfl | h
  · rw [if_pos (by linarith), if_neg (by linarith), neg_neg]
  · rw [neg_zero, if_pos (le_refl _), roundedBits_zero]
    rfl
  · rw [if_neg (by linarith), if_pos h.le, neg_neg]

/-- Rounding keeps the order. -/
theorem roundedRank_mono {q q' : ℚ} (h : q ≤ q') : roundedRank q ≤ roundedRank q' := by
  unfold roundedRank
  by_cases hq : 0 ≤ q
  · rw [if_pos hq, if_pos (hq.trans h)]
    exact_mod_cast roundedBits_mono hq h
  · rw [if_neg hq]
    by_cases hq' : 0 ≤ q'
    · rw [if_pos hq']
      omega
    · rw [if_neg hq']
      have hmono := roundedBits_mono (by linarith : 0 ≤ -q') (neg_le_neg h)
      omega

/-- Rounding goes no further than to an infinity. -/
theorem natAbs_roundedRank_le (q : ℚ) : (roundedRank q).natAbs ≤ infinityBits := by
  have h := roundedBits_le q
  have h' := roundedBits_le (-q)
  unfold roundedRank
  split <;> omega

/-- Apart from signs, ranks are rounded as magnitudes are. -/
theorem natAbs_roundedRank (q : ℚ) : (roundedRank q).natAbs = roundedBits |q| := by
  unfold roundedRank
  split
  · next h => rw [abs_of_nonneg h, Int.natAbs_natCast]
  · next h => rw [abs_of_neg (not_le.1 h), Int.natAbs_neg, Int.natAbs_natCast]

/-- A finite number is kept. -/
theorem roundedRank_exactValue {x : Float} (h : x.isFinite = true) :
    roundedRank (exactValue x) = rank x := by
  have hkept : roundedRank (Binary.ofBits false (magnitudeBits x)).magnitude = magnitudeBits x := by
    rw [roundedRank_of_nonneg (Binary.magnitude_nonneg _),
      roundedBits_magnitude ((isFinite_iff x).1 h)]
  unfold exactValue rank
  split
  · rw [roundedRank_neg, hkept]
  · exact hkept

end DirectionField
