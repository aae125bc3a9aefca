import DirectionField.Proofs.Except
import DirectionField.Proofs.FloatArithmetic
import DirectionField.Walk
import Mathlib.Data.Rat.Floor

/-!
# The number of steps

The steps that cover a distance are counted by the ceiling of the distance divided by their width
(`stepCount_of_proper`). The limit has no part in it: it only decides whether the number is refused
(`stepCount_of_ok`). A refusal shows the number and the limit, so it is a fault where the limit cannot
be written, and so is a quotient without a ceiling (`stepCount_eq_fault_iff`). A longer distance takes
no fewer steps, rounding included (`stepCount_mono`), and so does a bound that is further away
(`Direction.stepCount_mono`).
-/

namespace DirectionField

/-! ## Ceilings -/

/-- A number has no binary value if it is not finite. -/
theorem Binary.ofFloat?_eq_none_iff (x : Float) : ofFloat? x = none ↔ x.isFinite = false := by
  unfold ofFloat?
  cases x.isFinite <;> simp

/-- What a number is taken apart into stands for it. -/
theorem Binary.exactValue_of_ofFloat? {x : Float} {b : Binary} (h : ofFloat? x = some b) :
    exactValue x = b.signed * (2 : ℚ) ^ b.exponent := by
  have hfields (negative : Bool) (bits : Nat) : ofBits negative bits =
      ⟨negative, (ofBits false bits).mantissa, (ofBits false bits).exponent⟩ := by
    unfold ofBits
    split <;> rfl
  unfold ofFloat? at h
  split at h
  · cases h
    unfold exactValue magnitude signed
    rw [hfields (signBit x)]
    cases signBit x <;> simp
  · cases h

/-- The ceiling of a number is that of its exact value. -/
theorem Binary.ceil_of_ofFloat? {x : Float} {b : Binary} (h : ofFloat? x = some b) :
    b.ceil = ⌈exactValue x⌉ := by
  rw [exactValue_of_ofFloat? h]
  unfold ceil
  split
  · next hexp =>
    -- a whole number of units that are whole numbers
    obtain ⟨k, hk⟩ := Int.eq_ofNat_of_zero_le hexp
    rw [hk, Int.toNat_natCast, zpow_natCast]
    exact_mod_cast (Int.ceil_intCast (b.signed * 2 ^ k)).symm
  · next hexp =>
    -- a fraction whose denominator is a power of two
    obtain ⟨k, hk⟩ := Int.eq_ofNat_of_zero_le (by omega : 0 ≤ -b.exponent)
    have hexponent : b.exponent = -(k : ℤ) := by omega
    have hceil := Rat.ceil_intCast_div_natCast b.signed (2 ^ k)
    rw [hk, Int.toNat_natCast, hexponent, zpow_neg, zpow_natCast, ← div_eq_mul_inv]
    push_cast at hceil
    exact hceil.symm

/-- Every finite number is below `2 ^ 1024`. -/
theorem exactValue_lt_two_pow {x : Float} (h : x.isFinite = true) : exactValue x < 2 ^ 1024 := by
  have hle : exactValue x ≤ (Binary.ofBits false (magnitudeBits x)).magnitude := by
    have hnonneg := Binary.magnitude_nonneg (magnitudeBits x)
    unfold exactValue
    split
    · linarith only [hnonneg]
    · exact le_refl _
  have hlt := Binary.magnitude_strictMono ((isFinite_iff x).1 h)
  -- the pattern behind the last finite number is taken apart like one of them
  have hbits : Binary.ofBits false infinityBits = ⟨false, 2 ^ 52, 972⟩ := by decide +kernel
  have hinfinity : (Binary.ofBits false infinityBits).magnitude = 2 ^ 1024 := by
    rw [hbits, Binary.magnitude, Nat.cast_pow, Nat.cast_ofNat, ← zpow_natCast (2 : ℚ) 52,
      ← zpow_natCast (2 : ℚ) 1024, ← zpow_add₀ two_ne_zero]
    exact congrArg ((2 : ℚ) ^ ·) (by decide)
  exact hinfinity ▸ hle.trans_lt hlt

/-- The ceiling of a finite number is short enough to be written. -/
theorem isTooLong_ceil {x : Float} (h : x.isFinite = true) :
    NumberText.isTooLong ⌈exactValue x⌉.toNat = false := by
  have hle : ⌈exactValue x⌉ ≤ 2 ^ 1024 := by
    rw [Int.ceil_le, Int.cast_pow, Int.cast_ofNat]
    exact (exactValue_lt_two_pow h).le
  have hshort : NumberText.isTooLong ((2 ^ 1024 : ℕ) : ℤ) = false := by decide +kernel
  refine NumberText.isTooLong_of_natAbs_le ?_ hshort
  rw [Int.natAbs_natCast, Int.natAbs_natCast, Int.toNat_le, Nat.cast_pow, Nat.cast_ofNat]
  exact hle

/-! ## Counting -/

/-- A width is accepted if it is finite and positive. -/
theorem checkStep_eq_ok_iff (step step' : Float) :
    checkStep step = .ok step' ↔ (step.isFinite = true ∧ step > 0.0) ∧ step = step' := by
  unfold checkStep
  split
  · next h =>
    rw [Bool.and_eq_true, decide_eq_true_eq] at h
    exact ⟨fun hs => ⟨h, Except.ok.inj hs⟩, fun hs => congrArg Except.ok hs.2⟩
  · next h =>
    rw [Bool.and_eq_true, decide_eq_true_eq] at h
    exact ⟨fun hs => (nomatch hs), fun hs => absurd hs.1 h⟩

/-- Counting the steps of a proper width over a distance comes to a fault. -/
inductive CountFault (distance step : Float) (limit : Int) : Fault → Prop where
  /-- The steps are so many that their number is not finite. -/
  | overflow (hdistance : distance.isFinite = true)
      (hquotient : (distance / step).isFinite = false) : CountFault distance step limit .infiniteCount
  /-- The steps are more than the limit admits, and the limit is too long to be written. -/
  | unwritable (hdistance : distance.isFinite = true) (hquotient : (distance / step).isFinite = true)
      (hlimit : limit < ⌈exactValue (distance / step)⌉.toNat)
      (hlong : NumberText.isTooLong limit = true) :
      CountFault distance step limit (.integerTooLong NumberText.digitLimit)

/-- A refusal for too many steps has no words if the limit is too long to be written. -/
theorem tooManySteps_eq_fault_iff {count : Nat} (hcount : NumberText.isTooLong count = false)
    {step : Float} {limit : Int} {fault : Fault} :
    tooManySteps count step limit = .fault fault ↔
      fault = .integerTooLong NumberText.digitLimit ∧ NumberText.isTooLong limit = true := by
  unfold tooManySteps
  rw [NumberText.integer_of_short hcount]
  -- the count is written first, and it can be
  cases hlimit : NumberText.isTooLong limit with
  | true =>
    rw [NumberText.integer_eq_error_iff.2 ⟨hlimit, rfl⟩]
    constructor
    · intro h
      cases h
      exact ⟨rfl, rfl⟩
    · rintro ⟨rfl, _⟩
      rfl
  | false =>
    rw [NumberText.integer_of_short hlimit]
    constructor
    · intro h
      cases h
    · rintro ⟨_, h⟩
      cases h

section

variable {distance distance' step : Float} {limit limit' : Int} {n n' : Nat}

/-- With a proper width, the number of steps is the ceiling of the quotient, unless the distance or
    the quotient is not finite or the limit does not admit it. -/
theorem stepCount_of_proper (hstep : step.isFinite = true ∧ step > 0.0) (limit : Int) :
    stepCount distance step limit =
      if distance.isFinite = true then
        if (distance / step).isFinite = true then
          if limit < ⌈exactValue (distance / step)⌉.toNat then
            .error (tooManySteps ⌈exactValue (distance / step)⌉.toNat step limit)
          else .ok ⌈exactValue (distance / step)⌉.toNat
        else .error (.fault .infiniteCount)
      else .error (.problem (.distanceNotFinite distance)) := by
  unfold stepCount orProblem
  rw [(checkStep_eq_ok_iff step step).2 ⟨hstep, rfl⟩]
  show (if distance.isFinite = true then _ else _) = _
  congr 1
  -- a quotient has a value to be rounded up if it is finite
  cases h : Binary.ofFloat? (distance / step) with
  | none =>
    have hquotient := (Binary.ofFloat?_eq_none_iff _).1 h
    rw [if_neg (Bool.eq_false_iff.1 hquotient)]
  | some quotient =>
    have hquotient : (distance / step).isFinite = true := by
      by_contra hnot
      rw [(Binary.ofFloat?_eq_none_iff _).2 (Bool.eq_false_iff.2 hnot)] at h
      cases h
    rw [if_pos hquotient]
    dsimp only
    rw [Binary.ceil_of_ofFloat? h]

/-- The steps are counted if their width is proper, neither the distance nor the quotient is
    infinite, and the limit admits the ceiling of the quotient. -/
theorem stepCount_eq_ok_iff : stepCount distance step limit = .ok n ↔
    (step.isFinite = true ∧ step > 0.0) ∧ distance.isFinite = true ∧
      (distance / step).isFinite = true ∧ n = ⌈exactValue (distance / step)⌉.toNat ∧ n ≤ limit := by
  constructor
  · intro h
    have hstep : step.isFinite = true ∧ step > 0.0 := by
      obtain ⟨step', hcheck, _⟩ := (Except.bind_eq_ok_iff ..).1 h
      rw [orProblem, Except.mapError_eq_ok_iff, checkStep_eq_ok_iff] at hcheck
      exact hcheck.1
    rw [stepCount_of_proper hstep] at h
    split at h
    · next hdistance =>
      split at h
      · next hquotient =>
        split at h
        · cases h
        · next hle =>
          cases h
          exact ⟨hstep, hdistance, hquotient, rfl, Int.not_lt.1 hle⟩
      · cases h
    · cases h
  · rintro ⟨hstep, hdistance, hquotient, rfl, hle⟩
    rw [stepCount_of_proper hstep, if_pos hdistance, if_pos hquotient, if_neg (Int.not_lt.2 hle)]

/-- A number of steps that is found is within the limit. -/
theorem stepCount_le (h : stepCount distance step limit = .ok n) : n ≤ limit := by
  obtain ⟨_, _, _, _, hle⟩ := stepCount_eq_ok_iff.1 h
  exact hle

/-- Counting the steps of a proper width comes to a fault for one of two reasons. All else that can
    be wrong with their number is a problem. -/
theorem stepCount_eq_fault_iff {fault : Fault} (hstep : step.isFinite = true ∧ step > 0.0) :
    stepCount distance step limit = .error (.fault fault) ↔ CountFault distance step limit fault := by
  rw [stepCount_of_proper hstep]
  constructor
  · intro h
    split at h
    · next hdistance =>
      split at h
      · next hquotient =>
        split at h
        · next hover =>
          -- the count itself can always be written, so that it is the limit that cannot
          have hcount := isTooLong_ceil hquotient
          obtain ⟨rfl, hlong⟩ := (tooManySteps_eq_fault_iff hcount).1 (Except.error.inj h)
          exact .unwritable hdistance hquotient hover hlong
        · cases h
      · next hquotient =>
        cases h
        exact .overflow hdistance (Bool.eq_false_iff.2 hquotient)
    · cases h
  · intro h
    cases h with
    | overflow hdistance hquotient =>
      rw [if_pos hdistance, if_neg (Bool.eq_false_iff.1 hquotient)]
    | unwritable hdistance hquotient hover hlong =>
      rw [if_pos hdistance, if_pos hquotient, if_pos hover]
      exact congrArg _ ((tooManySteps_eq_fault_iff (isTooLong_ceil hquotient)).2 ⟨rfl, hlong⟩)

/-- Another limit refuses the number of steps or leaves it as it is. -/
theorem stepCount_of_ok (h : stepCount distance step limit = .ok n) (limit' : Int) :
    stepCount distance step limit' =
      if limit' < n then .error (tooManySteps n step limit') else .ok n := by
  obtain ⟨hstep, hdistance, hquotient, rfl, _⟩ := stepCount_eq_ok_iff.1 h
  rw [stepCount_of_proper hstep, if_pos hdistance, if_pos hquotient]

/-- A longer distance takes no fewer steps. -/
theorem stepCount_mono (h : stepCount distance step limit = .ok n)
    (h' : stepCount distance' step limit' = .ok n') (hle : rank distance ≤ rank distance') :
    n ≤ n' := by
  obtain ⟨⟨hstep, hpos⟩, hdistance, hquotient, rfl, _⟩ := stepCount_eq_ok_iff.1 h
  obtain ⟨_, hdistance', hquotient', rfl, _⟩ := stepCount_eq_ok_iff.1 h'
  have hzero : exactValue (0.0 : Float) = 0 := exactValue_of_rank_zero (by decide +kernel)
  have hwidth : 0 < exactValue step := by
    have hlt : rank 0.0 < rank step :=
      (lt_iff_rank (by decide +kernel) (magnitudeBits_le_of_isFinite hstep)).1 hpos
    rw [← exactValue_lt_iff, hzero] at hlt
    exact hlt
  -- division by the width and rounding up both keep the order
  have hdiv := rank_div_mono hdistance hdistance' hstep hwidth hle
  exact Int.toNat_le_toNat (Int.ceil_mono ((exactValue_le_iff _ _).2 hdiv))

end

namespace Direction

/-- The second bound is no nearer than the first one, for a walk in this direction. -/
def NoNearer (dir : Direction) (bound bound' : Float) : Prop :=
  match dir with
  | .forward => bound ≤ bound'
  | .backward => bound' ≤ bound

variable {dir : Direction} {x₀ bound bound' step : Float}

/-- A distance is finite only if both its ends are. -/
theorem isFinite_of_distance (h : (dir.distance x₀ bound).isFinite = true) :
    x₀.isFinite = true ∧ bound.isFinite = true := by
  cases dir with
  | forward => exact (isFinite_of_sub h).symm
  | backward => exact isFinite_of_sub h

/-- The distance to a bound that is no nearer is no shorter. -/
theorem rank_distance_mono (h : (dir.distance x₀ bound).isFinite = true)
    (h' : (dir.distance x₀ bound').isFinite = true) (hbound : dir.NoNearer bound bound') :
    rank (dir.distance x₀ bound) ≤ rank (dir.distance x₀ bound') := by
  obtain ⟨hx, hb⟩ := isFinite_of_distance h
  obtain ⟨_, hb'⟩ := isFinite_of_distance h'
  have hmag := magnitudeBits_le_of_isFinite hb
  have hmag' := magnitudeBits_le_of_isFinite hb'
  cases dir with
  | forward =>
    have hrank := (le_iff_rank hmag hmag').1 hbound
    exact rank_sub_mono hb hb' hx hx hrank (le_refl _)
  | backward =>
    have hrank := (le_iff_rank hmag' hmag).1 hbound
    exact rank_sub_mono hx hx hb hb' (le_refl _) hrank

/-- To a bound that is no nearer, a walk takes no fewer steps. -/
theorem stepCount_mono {limit limit' : Int} {n n' : Nat}
    (h : stepCount (dir.distance x₀ bound) step limit = .ok n)
    (h' : stepCount (dir.distance x₀ bound') step limit' = .ok n')
    (hbound : dir.NoNearer bound bound') : n ≤ n' := by
  have hfinite := (stepCount_eq_ok_iff.1 h).2.1
  have hfinite' := (stepCount_eq_ok_iff.1 h').2.1
  exact DirectionField.stepCount_mono h h' (rank_distance_mono hfinite hfinite' hbound)

end Direction

end DirectionField
