import DirectionField.Number.Decimal
import DirectionField.Proofs.NearestFloat
import Mathlib.Tactic.Ring

/-!
# Decimals that stand for a number

The `Float` nearest to a decimal depends on its value alone (`Decimal.toBits_congr`), and the `Float`
nearest to a decimal that is a finite number exactly is that number (`Decimal.toBits_eq_of_exact`). So
the decimal that is found for a number stands for it, be it found by trial or, where none of the
trials succeeds, left as the exact one (`Decimal.toBits_shortest`).
-/

namespace DirectionField.Decimal

/-- The number that a decimal stands for. -/
def value (d : Decimal) : ℚ := d.coefficient * 10 ^ d.exponent

/-! ## Digits -/

/-- Every number has a digit. -/
theorem digitCount_pos (n : Nat) : 0 < digitCount n := Nat.length_toDigits_pos

/-- A number is below the power of ten with as many zeros as it has digits. -/
theorem lt_pow_digitCount (n : Nat) : n < 10 ^ digitCount n :=
  (Nat.length_toDigits_le_iff (by decide) (digitCount_pos n)).1 (Nat.le_refl _)

/-- And it is not below the power before that one. -/
theorem pow_digitCount_le {n : Nat} (hn : 0 < n) : 10 ^ (digitCount n - 1) ≤ n := by
  by_cases h : digitCount n = 1
  · rw [h]
    exact hn
  · have hpos := digitCount_pos n
    refine Nat.le_of_not_lt fun hlt => ?_
    have hle := (Nat.length_toDigits_le_iff (by decide) (by omega)).2 hlt
    have hcount : (Nat.toDigits 10 n).length = digitCount n := rfl
    omega

/-- The number of digits in front of the point tells the order of magnitude. -/
theorem intLog_value {d : Decimal} (hd : 0 < d.coefficient) :
    Int.log 10 d.value = digitCount d.coefficient + d.exponent - 1 := by
  have hpos := digitCount_pos d.coefficient
  have hlt := lt_pow_digitCount d.coefficient
  have hcount : digitCount d.coefficient - 1 + 1 = digitCount d.coefficient := by omega
  rw [← hcount] at hlt
  have hlog := intLog_mul_zpow (by decide) (pow_digitCount_le hd) hlt d.exponent
  have hvalue : d.value = (d.coefficient : ℚ) * ((10 : ℕ) : ℚ) ^ d.exponent := rfl
  rw [hvalue, hlog]
  omega

/-! ## The nearest number -/

/-- A decimal is zero if its coefficient is, whatever the exponent. -/
theorem value_eq_zero_iff (d : Decimal) : d.value = 0 ↔ d.coefficient = 0 := by
  have he : (10 : ℚ) ^ d.exponent ≠ 0 := zpow_ne_zero _ (by norm_num)
  unfold value
  rw [mul_eq_zero, or_iff_left he, Nat.cast_eq_zero]

/-- Zero is zero in binary. -/
theorem toBits_of_value_eq_zero {d : Decimal} (h : d.value = 0) : d.toBits = 0 := by
  unfold toBits
  rw [if_pos (.inl ((value_eq_zero_iff d).1 h))]

/-- The nearest number, found from the order of magnitude and from any fraction that is the
    value. -/
theorem toBits_eq {d : Decimal} (hd : 0 < d.coefficient) :
    ∃ num den : Nat, 0 < den ∧ (num : ℚ) / den = d.value ∧
      d.toBits = if Int.log 10 d.value < -324 then 0
        else if 309 ≤ Int.log 10 d.value then infinityBits else nearestBits num den := by
  have hlog := intLog_value hd
  -- the number of digits in front of the point is the order of magnitude, off by one
  have hcut (a b : Nat) : (if d.coefficient = 0 ∨ (digitCount d.coefficient : ℤ) + d.exponent ≤ -324
      then a else b) = if Int.log 10 d.value < -324 then a else b := by
    refine if_congr ?_ rfl rfl
    omega
  have hbig (a b : Nat) : (if 310 ≤ (digitCount d.coefficient : ℤ) + d.exponent then a else b) =
      if 309 ≤ Int.log 10 d.value then a else b := by
    refine if_congr ?_ rfl rfl
    omega
  unfold toBits
  dsimp only
  by_cases he : 0 ≤ d.exponent
  · obtain ⟨k, hk⟩ := Int.eq_ofNat_of_zero_le he
    refine ⟨d.coefficient * 10 ^ k, 1, Nat.one_pos, ?_, ?_⟩
    · unfold value
      rw [hk, zpow_natCast]
      push_cast
      rw [div_one]
    · rw [hcut, hbig, if_pos he, hk, Int.toNat_natCast]
  · obtain ⟨k, hk⟩ := Int.eq_ofNat_of_zero_le (by omega : 0 ≤ -d.exponent)
    have hexp : d.exponent = -(k : ℤ) := by omega
    refine ⟨d.coefficient, 10 ^ k, by positivity, ?_, ?_⟩
    · unfold value
      rw [hexp, zpow_neg, zpow_natCast]
      push_cast
      rw [div_eq_mul_inv]
    · rw [hcut, hbig, if_neg he, hk, Int.toNat_natCast]

/-- The nearest number depends on the value alone. -/
theorem toBits_congr {d d' : Decimal} (h : d.value = d'.value) : d.toBits = d'.toBits := by
  by_cases hzero : d.value = 0
  · rw [toBits_of_value_eq_zero hzero, toBits_of_value_eq_zero (h ▸ hzero)]
  · have hd : 0 < d.coefficient :=
      Nat.pos_of_ne_zero fun hc => hzero ((value_eq_zero_iff d).2 hc)
    have hd' : 0 < d'.coefficient :=
      Nat.pos_of_ne_zero fun hc => hzero (h.trans ((value_eq_zero_iff d').2 hc))
    obtain ⟨num, den, hden, hq, hbits⟩ := toBits_eq hd
    obtain ⟨num', den', hden', hq', hbits'⟩ := toBits_eq hd'
    -- the two fractions need not be in lowest terms
    have hcross : num * den' = num' * den := by
      have hq'' : (num : ℚ) / den = num' / den' := by rw [hq, hq', h]
      rw [div_eq_div_iff (by positivity) (by positivity)] at hq''
      exact_mod_cast hq''
    rw [hbits, hbits', h, nearestBits_congr hden hden' hcross]

/-! ## Finite numbers -/

/-- A power of ten below a power of two, from their inverses. -/
theorem ten_zpow_neg_le {k n : Nat} (h : 2 ^ k ≤ 10 ^ n) :
    (10 : ℚ) ^ (-(n : ℤ)) ≤ 2 ^ (-(k : ℤ)) := by
  have h' : (2 : ℚ) ^ k ≤ 10 ^ n := by exact_mod_cast h
  rw [zpow_neg, zpow_neg, zpow_natCast, zpow_natCast]
  exact inv_anti₀ (by positivity) h'

/-- A power of two below a power of ten, over the rationals. -/
theorem two_zpow_le {k n : Nat} (h : 2 ^ k ≤ 10 ^ n) : (2 : ℚ) ^ (k : ℤ) ≤ 10 ^ (n : ℤ) := by
  rw [zpow_natCast, zpow_natCast]
  exact_mod_cast h

/-- A positive finite number has a mantissa of at most 53 bits and an exponent within the range of
    the format. -/
theorem ofBits_bounds {bits : Nat} (hpos : 0 < bits) (hbits : bits < infinityBits) :
    0 < (Binary.ofBits false bits).mantissa ∧ (Binary.ofBits false bits).mantissa < 2 ^ 53 ∧
      -1074 ≤ (Binary.ofBits false bits).exponent ∧ (Binary.ofBits false bits).exponent ≤ 971 := by
  unfold infinityBits at hbits
  unfold Binary.ofBits
  by_cases h : bits / 2 ^ 52 = 0
  · rw [if_pos h]
    dsimp only
    omega
  · rw [if_neg h]
    dsimp only
    omega

/-- A bit pattern other than zero is a positive number. -/
theorem magnitude_pos {bits : Nat} (hpos : 0 < bits) (hbits : bits < infinityBits) :
    0 < (Binary.ofBits false bits).magnitude := by
  have hm : (0 : ℚ) < (Binary.ofBits false bits).mantissa := by
    exact_mod_cast (ofBits_bounds hpos hbits).1
  exact mul_pos hm (zpow_pos (by norm_num) _)

/-- No finite number but zero is beyond the powers of ten between which numbers are looked for. -/
theorem intLog_magnitude {bits : Nat} (hpos : 0 < bits) (hbits : bits < infinityBits) :
    -324 ≤ Int.log 10 (Binary.ofBits false bits).magnitude ∧
      Int.log 10 (Binary.ofBits false bits).magnitude < 309 := by
  obtain ⟨hm, hm', he, he'⟩ := ofBits_bounds hpos hbits
  have hmag := magnitude_pos hpos hbits
  have hlog2 : Int.log 2 (Binary.ofBits false bits).magnitude =
      (Binary.ofBits false bits).mantissa.log2 + (Binary.ofBits false bits).exponent :=
    intLog_two_mul_zpow hm _
  have hlt : (Binary.ofBits false bits).mantissa.log2 < 53 := (Nat.log2_lt (by omega)).2 hm'
  constructor
  · -- the least number is `2 ^ -1074`
    have hlo : ((2 : ℕ) : ℚ) ^ (-(1074 : ℕ) : ℤ) ≤ (Binary.ofBits false bits).magnitude :=
      (Int.zpow_le_iff_le_log (by norm_num) hmag).2 (by omega)
    have hten := ten_zpow_neg_le (k := 1074) (n := 324) (by decide +kernel)
    exact (Int.zpow_le_iff_le_log (by norm_num) hmag).1 (hten.trans hlo)
  · -- every finite number is below `2 ^ 1024`
    have hhi : (Binary.ofBits false bits).magnitude < ((2 : ℕ) : ℚ) ^ ((1024 : ℕ) : ℤ) :=
      (Int.lt_zpow_iff_log_lt (by norm_num) hmag).2 (by omega)
    have hten := two_zpow_le (k := 1024) (n := 309) (by decide +kernel)
    exact (Int.lt_zpow_iff_log_lt (by norm_num) hmag).1 (hhi.trans_le hten)

/-- Of a decimal that is a finite number, the nearest number is that one. -/
theorem toBits_eq_of_exact {d : Decimal} {bits : Nat} (hbits : bits < infinityBits)
    (h : d.value = (Binary.ofBits false bits).magnitude) : d.toBits = bits := by
  by_cases hzero : bits = 0
  · rw [hzero]
    refine toBits_of_value_eq_zero ?_
    rw [h, hzero]
    exact zero_mul _
  · have hlog := intLog_magnitude (Nat.pos_of_ne_zero hzero) hbits
    have hd : 0 < d.coefficient := by
      refine Nat.pos_of_ne_zero fun hc => ?_
      have hmag := magnitude_pos (Nat.pos_of_ne_zero hzero) hbits
      rw [← h, (value_eq_zero_iff d).2 hc] at hmag
      exact lt_irrefl _ hmag
    obtain ⟨num, den, hden, hq, hnum⟩ := toBits_eq hd
    rw [hnum, h, if_neg (by omega), if_neg (by omega)]
    exact nearestBits_eq_of_exact hden hbits (hq.trans h)

/-! ## The decimal of a number -/

/-- Zeros may be moved from the coefficient into the exponent. -/
theorem value_shift (c k : Nat) (e : ℤ) : value ⟨c * 10 ^ k, e⟩ = value ⟨c, e + k⟩ := by
  unfold value
  dsimp only
  rw [zpow_add₀ (by norm_num), zpow_natCast]
  push_cast
  ring

/-- Dropping zeros from the coefficient keeps the value. -/
theorem value_trimZeros (n : Nat) (d : Decimal) : (trimZeros n d).value = d.value := by
  induction n generalizing d with
  | zero => rfl
  | succ n ih =>
    unfold trimZeros
    by_cases h : d.coefficient % 10 = 0
    · rw [if_pos h, ih]
      have hc : d.coefficient = d.coefficient / 10 * 10 ^ 1 := by omega
      have hd : d = ⟨d.coefficient / 10 * 10 ^ 1, d.exponent⟩ := by rw [← hc]
      conv_rhs => rw [hd, value_shift]
      rfl
    · rw [if_neg h]

/-- Trimming keeps the value. -/
theorem value_trim (d : Decimal) : d.trim.value = d.value := by
  unfold trim
  by_cases h : d.coefficient = 0
  · rw [if_pos h]
  · rw [if_neg h, value_trimZeros]

/-- A binary number is a decimal exactly. -/
theorem value_ofBinary (b : Binary) : (ofBinary b).value = b.magnitude := by
  unfold ofBinary value Binary.magnitude
  by_cases he : 0 ≤ b.exponent
  · obtain ⟨k, hk⟩ := Int.eq_ofNat_of_zero_le he
    rw [if_pos he, hk, Int.toNat_natCast, zpow_natCast]
    push_cast
    rw [mul_one]
  · obtain ⟨k, hk⟩ := Int.eq_ofNat_of_zero_le (by omega : 0 ≤ -b.exponent)
    have hexp : b.exponent = -(k : ℤ) := by omega
    have hten : (10 : ℚ) ^ k = 2 ^ k * 5 ^ k := by rw [← mul_pow]; norm_num
    rw [if_neg he]
    dsimp only
    rw [hk, hexp, Int.toNat_natCast, zpow_neg, zpow_neg, zpow_natCast, zpow_natCast, hten]
    push_cast
    field_simp

/-- The decimal that is found for a finite number stands for it. -/
theorem toBits_shortest {bits : Nat} (hbits : bits < infinityBits) :
    (shortest bits).toBits = bits := by
  unfold shortest
  dsimp only
  generalize hfound : (List.range' 1 17).findSome? _ = found
  cases found with
  | none =>
    -- no trial succeeded, and the exact decimal needs none
    refine toBits_eq_of_exact hbits ?_
    rw [Option.getD_none, value_trim, value_ofBinary]
  | some d =>
    -- a trial is kept only if it has been read back
    obtain ⟨n, _, hn⟩ := List.exists_of_findSome?_eq_some hfound
    have hd := List.find?_some hn
    rw [Option.getD_some]
    exact eq_of_beq hd

end DirectionField.Decimal
