import DirectionField.Number.Binary
import Mathlib.Data.Int.Log
import Mathlib.Data.Rat.Floor
import Mathlib.Tactic.FieldSimp
import Mathlib.Tactic.NormNum
import Mathlib.Tactic.Positivity

/-!
# Rounding to the nearest number

`nearestBits` works with the numerator and the denominator of a fraction, but what it finds depends on
their ratio alone (`nearestBits_congr`), and of a fraction that is a finite number it finds just that
number (`nearestBits_eq_of_exact`).
-/

namespace DirectionField

/-! ## Powers -/

/-- The logarithm of a number between two neighbouring powers. -/
theorem intLog_eq_of_zpow_le_of_lt {b : ℕ} (hb : 1 < b) {r : ℚ} {z : ℤ} (hlo : (b : ℚ) ^ z ≤ r)
    (hhi : r < (b : ℚ) ^ (z + 1)) : Int.log b r = z := by
  have hb' : (0 : ℚ) < b := by exact_mod_cast (by omega : 0 < b)
  have hr : 0 < r := lt_of_lt_of_le (zpow_pos hb' z) hlo
  have h1 := (Int.zpow_le_iff_le_log hb hr).1 hlo
  have h2 := (Int.lt_zpow_iff_log_lt hb hr).1 hhi
  omega

/-- The logarithm of a natural number between two neighbouring powers, scaled by another power. -/
theorem intLog_mul_zpow {b : ℕ} (hb : 1 < b) {c j : ℕ} (hlo : b ^ j ≤ c) (hhi : c < b ^ (j + 1))
    (e : ℤ) : Int.log b ((c : ℚ) * (b : ℚ) ^ e) = j + e := by
  have hb' : (0 : ℚ) < b := by exact_mod_cast (by omega : 0 < b)
  have he : (0 : ℚ) < (b : ℚ) ^ e := zpow_pos hb' e
  have hlo' : (b : ℚ) ^ j ≤ c := by exact_mod_cast hlo
  have hhi' : (c : ℚ) < (b : ℚ) ^ (j + 1) := by exact_mod_cast hhi
  refine intLog_eq_of_zpow_le_of_lt hb ?_ ?_
  · rw [zpow_add₀ hb'.ne', zpow_natCast]
    exact mul_le_mul_of_nonneg_right hlo' he.le
  · rw [add_right_comm, zpow_add₀ hb'.ne']
    exact mul_lt_mul_of_pos_right (by exact_mod_cast hhi') he

/-- A comparison of a fraction with a power of two, without a fraction and a negative power. -/
theorem div_lt_two_zpow_iff (num : Nat) {den : Nat} (hd : 0 < den) (z : ℤ) :
    (num : ℚ) / den < 2 ^ z ↔
      if 0 ≤ z then num < den * 2 ^ z.toNat else num * 2 ^ (-z).toNat < den := by
  have hd' : (0 : ℚ) < den := by exact_mod_cast hd
  by_cases hz : 0 ≤ z
  · obtain ⟨k, rfl⟩ := Int.eq_ofNat_of_zero_le hz
    rw [if_pos hz, Int.toNat_natCast, zpow_natCast, div_lt_iff₀ hd', mul_comm]
    exact_mod_cast Iff.rfl
  · obtain ⟨k, hk⟩ := Int.eq_ofNat_of_zero_le (by omega : 0 ≤ -z)
    obtain rfl : z = -(k : ℤ) := by omega
    rw [if_neg hz, neg_neg, Int.toNat_natCast, zpow_neg, zpow_natCast, div_lt_iff₀ hd',
      inv_mul_eq_div, lt_div_iff₀ (by positivity)]
    exact_mod_cast Iff.rfl

/-- The exponent that is searched is the binary logarithm of the fraction. -/
theorem floorLog2_eq_log {num den : Nat} (hn : 0 < num) (hd : 0 < den) :
    floorLog2 num den = Int.log 2 ((num : ℚ) / den) := by
  have hn' : (0 : ℚ) < num := by exact_mod_cast hn
  have hd' : (0 : ℚ) < den := by exact_mod_cast hd
  have hnlo : (2 : ℚ) ^ num.log2 ≤ num := by exact_mod_cast Nat.log2_self_le (by omega)
  have hnhi : (num : ℚ) < 2 ^ (num.log2 + 1) := by exact_mod_cast Nat.lt_log2_self
  have hdlo : (2 : ℚ) ^ den.log2 ≤ den := by exact_mod_cast Nat.log2_self_le (by omega)
  have hdhi : (den : ℚ) < 2 ^ (den.log2 + 1) := by exact_mod_cast Nat.lt_log2_self
  have hguess : (2 : ℚ) ^ ((num.log2 : ℤ) - den.log2) = 2 ^ num.log2 / 2 ^ den.log2 := by
    rw [zpow_sub₀ (by norm_num), zpow_natCast, zpow_natCast]
  -- the logarithms of both parts leave the one of the fraction open by one
  have hlo : (2 : ℚ) ^ ((num.log2 : ℤ) - den.log2 - 1) ≤ (num : ℚ) / den := by
    rw [zpow_sub_one₀ (by norm_num), hguess, le_div_iff₀ hd']
    calc (2 : ℚ) ^ num.log2 / 2 ^ den.log2 * 2⁻¹ * den
        ≤ 2 ^ num.log2 / 2 ^ den.log2 * 2⁻¹ * 2 ^ (den.log2 + 1) := by gcongr
      _ = 2 ^ num.log2 := by rw [pow_succ]; field_simp
      _ ≤ num := hnlo
  have hhi : (num : ℚ) / den < 2 ^ ((num.log2 : ℤ) - den.log2 + 1) := by
    rw [zpow_add_one₀ (by norm_num), hguess, div_lt_iff₀ hd']
    calc (num : ℚ) < 2 ^ (num.log2 + 1) := hnhi
      _ = 2 ^ num.log2 / 2 ^ den.log2 * 2 * 2 ^ den.log2 := by rw [pow_succ]; field_simp
      _ ≤ 2 ^ num.log2 / 2 ^ den.log2 * 2 * den := by gcongr
  have hbelow := div_lt_two_zpow_iff num hd ((num.log2 : ℤ) - den.log2)
  unfold floorLog2
  dsimp only
  -- the comparison decides which of the two it is
  by_cases h : (num : ℚ) / den < 2 ^ ((num.log2 : ℤ) - den.log2)
  · rw [if_pos (hbelow.1 h)]
    exact (intLog_eq_of_zpow_le_of_lt (by norm_num) hlo (by rwa [sub_add_cancel])).symm
  · rw [if_neg (mt hbelow.2 h)]
    exact (intLog_eq_of_zpow_le_of_lt (by norm_num) (not_lt.1 h) hhi).symm

/-! ## Quotients -/

/-- Rounded division looks at the fraction only. -/
theorem roundDiv_mul_right (num den : Nat) {k : Nat} (hk : 0 < k) :
    roundDiv (num * k) (den * k) = roundDiv num den := by
  unfold roundDiv
  dsimp only
  rw [Nat.mul_div_mul_right num den hk, Nat.mul_mod_mul_right]
  have hlt : 2 * (num % den * k) < den * k ↔ 2 * (num % den) < den := by
    rw [← Nat.mul_assoc]
    exact Nat.mul_lt_mul_right hk
  have heq : 2 * (num % den * k) = den * k ↔ 2 * (num % den) = den := by
    rw [← Nat.mul_assoc]
    exact Nat.mul_left_inj (by omega)
  simp only [hlt, heq]

/-- A quotient that is a natural number is not rounded. -/
theorem roundDiv_mul_left (m : Nat) {den : Nat} (hd : 0 < den) : roundDiv (m * den) den = m := by
  unfold roundDiv
  dsimp only
  rw [Nat.mul_mod_left, Nat.mul_div_cancel m hd, if_pos (.inl (by omega))]

/-! ## The nearest number -/

/-- Zero is the bit pattern zero. -/
theorem nearestBits_zero (den : Nat) : nearestBits 0 den = 0 := by
  unfold nearestBits
  rw [if_pos rfl]

/-- A fraction may be expanded. -/
theorem nearestBits_mul_right (num : Nat) {den k : Nat} (hd : 0 < den) (hk : 0 < k) :
    nearestBits (num * k) (den * k) = nearestBits num den := by
  by_cases hn : num = 0
  · rw [hn, Nat.zero_mul, nearestBits_zero, nearestBits_zero]
  · have hn' : 0 < num := Nat.pos_of_ne_zero hn
    have hk' : (k : ℚ) ≠ 0 := by exact_mod_cast (by omega : k ≠ 0)
    have hlog : floorLog2 (num * k) (den * k) = floorLog2 num den := by
      rw [floorLog2_eq_log (Nat.mul_pos hn' hk) (Nat.mul_pos hd hk), floorLog2_eq_log hn' hd,
        Nat.cast_mul, Nat.cast_mul, mul_div_mul_right _ _ hk']
    unfold nearestBits
    rw [if_neg hn, if_neg (by positivity), hlog]
    dsimp only
    have hup (p : Nat) : den * k * p = den * p * k := Nat.mul_right_comm den k p
    have hdown (p : Nat) : num * k * p = num * p * k := Nat.mul_right_comm num k p
    rw [hup, hdown, roundDiv_mul_right _ _ hk, roundDiv_mul_right _ _ hk]

/-- The nearest number depends on the ratio alone. -/
theorem nearestBits_congr {num den num' den' : Nat} (hd : 0 < den) (hd' : 0 < den')
    (h : num * den' = num' * den) : nearestBits num den = nearestBits num' den' := by
  rw [← nearestBits_mul_right num hd hd', h, Nat.mul_comm den den', nearestBits_mul_right num' hd' hd]

/-- The magnitude of a binary number as a fraction. -/
def Binary.magnitude (b : Binary) : ℚ := b.mantissa * 2 ^ b.exponent

/-- A fraction of `m` units is `m` units when it is rounded to units. -/
theorem roundDiv_units {num den m : Nat} {unit : ℤ} (hd : 0 < den)
    (h : (num : ℚ) / den = m * 2 ^ unit) :
    (if 0 ≤ unit then roundDiv num (den * 2 ^ unit.toNat)
      else roundDiv (num * 2 ^ (-unit).toNat) den) = m := by
  have hd' : (den : ℚ) ≠ 0 := by exact_mod_cast (by omega : den ≠ 0)
  rw [div_eq_iff hd'] at h
  -- the unit is brought to the side where it is a natural number, and nothing is rounded
  by_cases hu : 0 ≤ unit
  · obtain ⟨k, rfl⟩ := Int.eq_ofNat_of_zero_le hu
    rw [zpow_natCast] at h
    have hnum : num = m * (den * 2 ^ k) := by
      rw [Nat.mul_comm den, ← Nat.mul_assoc]
      exact_mod_cast h
    rw [if_pos hu, Int.toNat_natCast, hnum, roundDiv_mul_left m (by positivity)]
  · obtain ⟨k, hk⟩ := Int.eq_ofNat_of_zero_le (by omega : 0 ≤ -unit)
    obtain rfl : unit = -(k : ℤ) := by omega
    have hnum : num * 2 ^ k = m * den := by
      rw [zpow_neg, zpow_natCast] at h
      have h' : (num : ℚ) * 2 ^ k = m * den := by rw [h]; field_simp
      exact_mod_cast h'
    rw [if_neg hu, neg_neg, Int.toNat_natCast, hnum, roundDiv_mul_left m hd]

/-- The binary logarithm of a number of units. -/
theorem intLog_two_mul_zpow {m : Nat} (hm : 0 < m) (e : ℤ) :
    Int.log 2 ((m : ℚ) * 2 ^ e) = m.log2 + e :=
  intLog_mul_zpow (by decide) (Nat.log2_self_le (by omega)) Nat.lt_log2_self e

/-- Of a fraction that is a finite number, the nearest number is that one. -/
theorem nearestBits_eq_of_exact {num den bits : Nat} (hd : 0 < den) (hbits : bits < infinityBits)
    (h : (num : ℚ) / den = (Binary.ofBits false bits).magnitude) : nearestBits num den = bits := by
  unfold infinityBits at hbits
  unfold Binary.magnitude Binary.ofBits at h
  have hd' : (den : ℚ) ≠ 0 := by exact_mod_cast (by omega : den ≠ 0)
  by_cases hzero : bits = 0
  · have hnum : num = 0 := by
      rw [hzero, if_pos (by decide), Nat.cast_zero, zero_mul, div_eq_iff hd', zero_mul] at h
      exact_mod_cast h
    rw [hnum, hzero, nearestBits_zero]
  · -- the logarithm of the fraction is only known if it is not zero
    have hpos (m : Nat) (e : ℤ) (hm : 0 < m) (hq : (num : ℚ) / den = m * 2 ^ e) : 0 < num := by
      refine Nat.pos_of_ne_zero fun hnum => ?_
      have he : (2 : ℚ) ^ e ≠ 0 := zpow_ne_zero e (by norm_num)
      rw [hnum, Nat.cast_zero, zero_div, eq_comm, mul_eq_zero, or_iff_left he] at hq
      have : m = 0 := by exact_mod_cast hq
      omega
    unfold nearestBits infinityBits
    by_cases hsub : bits / 2 ^ 52 = 0
    · -- a subnormal number has the least unit
      rw [if_pos hsub] at h
      have hnum := hpos bits (-1074) (by omega) h
      have hlog : floorLog2 num den = bits.log2 + -1074 := by
        rw [floorLog2_eq_log hnum hd, h, intLog_two_mul_zpow (Nat.pos_of_ne_zero hzero)]
      have hlt : bits.log2 < 52 := (Nat.log2_lt hzero).2 (by omega)
      have hunit : max (-1074) (floorLog2 num den - 52) = -1074 := by omega
      rw [if_neg (by omega)]
      dsimp only
      rw [hunit, roundDiv_units hd h]
      show min (0 * 2 ^ 52 + bits) _ = bits
      omega
    · -- any other number has a mantissa of 53 bits
      rw [if_neg hsub] at h
      dsimp only at h
      have hm : 0 < bits % 2 ^ 52 + 2 ^ 52 := by omega
      have hnum := hpos _ _ hm h
      have hlog2 : (bits % 2 ^ 52 + 2 ^ 52).log2 = 52 :=
        (Nat.log2_eq_iff (by omega)).2 ⟨by omega, by omega⟩
      have hlog : floorLog2 num den = 52 + ((bits / 2 ^ 52 : ℕ) - 1075) := by
        rw [floorLog2_eq_log hnum hd, h, intLog_two_mul_zpow hm, hlog2]
        rfl
      have hunit : max (-1074) (floorLog2 num den - 52) = (bits / 2 ^ 52 : ℕ) - 1075 := by omega
      rw [if_neg (by omega)]
      dsimp only
      rw [hunit, roundDiv_units hd h]
      omega

end DirectionField
