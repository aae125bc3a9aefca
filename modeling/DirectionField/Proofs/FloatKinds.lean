import DirectionField.Number.Binary

/-!
# The kinds of floating-point numbers

A number is a NaN, an infinity, a zero, or another finite number. Comparisons and operations are those
of what the numbers unpack to, so that what does not depend on rounding is settled by cases on the
kinds: what lies between finite numbers is finite, and what is computed from a number that is not
finite is not finite either.
-/

namespace DirectionField

open Float.Model (UnpackedFloat)

/-- The order of two numbers is that of what they unpack to. -/
theorem le_iff_unpack (x y : Float) :
    x ≤ y ↔ UnpackedFloat.le x.toModel.unpack y.toModel.unpack = true := by
  show Float.le x y = true ↔ _
  exact decide_eq_true_iff

/-- Whether a number is finite is told by what it unpacks to. -/
theorem isFinite_eq_unpack (x : Float) : x.isFinite = x.toModel.unpack.isFinite := rfl

/-- What is not finite is a NaN or an infinity. -/
theorem unpack_cases_of_not_isFinite {x : Float} (h : x.isFinite = false) :
    x.toModel.unpack = .notANumber ∨ ∃ s, x.toModel.unpack = .infinity s := by
  rw [isFinite_eq_unpack] at h
  cases hx : x.toModel.unpack with
  | notANumber => exact .inl rfl
  | infinity s => exact .inr ⟨s, rfl⟩
  | zero s => rw [hx] at h; cases h
  | finite s m e hm => rw [hx] at h; cases h

/-- The test of a number as finite fails for a NaN and for an infinity only. -/
theorem isNaN_or_isInf_of_not_isFinite {x : Float} (h : x.isFinite = false) :
    x.isNaN = true ∨ x.isInf = true := by
  unfold Float.isNaN Float.isInf Float.Model.isNaN Float.Model.isInf
  rcases unpack_cases_of_not_isFinite h with hx | ⟨s, hx⟩
  · rw [hx]; exact .inl rfl
  · rw [hx]; exact .inr rfl

/-! ## Order -/

/-- A number between two finite numbers is finite. -/
theorem isFinite_of_le_of_le {a x b : Float} (ha : a.isFinite = true) (hb : b.isFinite = true)
    (hax : a ≤ x) (hxb : x ≤ b) : x.isFinite = true := by
  rw [isFinite_eq_unpack] at ha hb ⊢
  rw [le_iff_unpack] at hax hxb
  cases hx : x.toModel.unpack with
  | zero s => rfl
  | finite s m e hm => rfl
  | notANumber =>
    -- a NaN is not above anything
    rw [hx] at hxb
    cases hxb
  | infinity s =>
    rw [hx] at hax hxb
    -- plus infinity would have to be below the upper bound, minus infinity above the lower one
    cases s with
    | positive =>
      cases hu : b.toModel.unpack with
      | notANumber => rw [hu] at hb; cases hb
      | infinity t => rw [hu] at hb; cases hb
      | zero t => rw [hu] at hxb; cases hxb
      | finite t m e hm => rw [hu] at hxb; cases hxb
    | negative =>
      cases hu : a.toModel.unpack with
      | notANumber => rw [hu] at ha; cases ha
      | infinity t => rw [hu] at ha; cases ha
      | zero t => rw [hu] at hax; cases hax
      -- the order of finite numbers looks at their signs first
      | finite t m e hm => cases t <;> (rw [hu] at hax; cases hax)

/-! ## Operations -/

/-- Neither a NaN nor an infinity becomes finite by packing. -/
theorem not_isFinite_pack {u : UnpackedFloat} (h : u.isFinite = false) :
    (Float.ofModel (Float.Model.pack u)).isFinite = false := by
  -- the packed patterns are closed terms, so they are looked at one by one
  cases u with
  | notANumber => decide
  | infinity s => cases s <;> decide
  | zero s => cases h
  | finite s m e hm => cases h

/-- A quotient is not finite if its dividend is not, also over an infinity. -/
theorem not_isFinite_div {a : Float} (h : a.isFinite = false) (b : Float) :
    (a / b).isFinite = false := by
  apply not_isFinite_pack
  rcases unpack_cases_of_not_isFinite h with ha | ⟨s, ha⟩
  · rw [ha]; rfl
  · rw [ha]
    -- an infinity over an infinity is a NaN, and an infinity over anything else is one again
    cases b.toModel.unpack <;> rfl

/-- A product is not finite if its second factor is not, also by zero. -/
theorem not_isFinite_mul (a : Float) {b : Float} (h : b.isFinite = false) :
    (a * b).isFinite = false := by
  apply not_isFinite_pack
  rcases unpack_cases_of_not_isFinite h with hb | ⟨s, hb⟩
  · rw [hb]
    -- an infinity times zero is a NaN
    cases a.toModel.unpack <;> rfl
  · rw [hb]
    cases a.toModel.unpack <;> rfl

/-- A product is not finite if its first factor is not, also by zero. -/
theorem not_isFinite_mul_left {a : Float} (h : a.isFinite = false) (b : Float) :
    (a * b).isFinite = false := by
  apply not_isFinite_pack
  rcases unpack_cases_of_not_isFinite h with ha | ⟨s, ha⟩
  · rw [ha]; rfl
  · rw [ha]
    cases b.toModel.unpack <;> rfl

/-- A sum is not finite if its first term is not: opposite infinities give a NaN. -/
theorem not_isFinite_add {a : Float} (h : a.isFinite = false) (b : Float) :
    (a + b).isFinite = false := by
  apply not_isFinite_pack
  rcases unpack_cases_of_not_isFinite h with ha | ⟨s, ha⟩
  · rw [ha]; rfl
  · rw [ha]
    cases b.toModel.unpack with
    -- of four pairs of infinities, the two of unlike signs give a NaN
    | infinity t => cases s <;> cases t <;> rfl
    | notANumber => rfl
    | zero t => rfl
    | finite t m e hm => rfl

/-- A difference is not finite if what is taken from is not. -/
theorem not_isFinite_sub {a : Float} (h : a.isFinite = false) (b : Float) :
    (a - b).isFinite = false := by
  apply not_isFinite_pack
  rcases unpack_cases_of_not_isFinite h with ha | ⟨s, ha⟩
  · rw [ha]; rfl
  · rw [ha]
    cases b.toModel.unpack with
    -- here the two of like signs give a NaN
    | infinity t => cases s <;> cases t <;> rfl
    | notANumber => rfl
    | zero t => rfl
    | finite t m e hm => rfl

/-- A difference is not finite if what is taken away is not. -/
theorem not_isFinite_sub_right (a : Float) {b : Float} (h : b.isFinite = false) :
    (a - b).isFinite = false := by
  apply not_isFinite_pack
  rcases unpack_cases_of_not_isFinite h with hb | ⟨s, hb⟩
  · rw [hb]
    cases a.toModel.unpack <;> rfl
  · rw [hb]
    cases a.toModel.unpack with
    | infinity t => cases s <;> cases t <;> rfl
    | notANumber => rfl
    | zero t => rfl
    | finite t m e hm => rfl

/-- A finite quotient has a finite dividend. Its divisor may be infinite. -/
theorem isFinite_of_div {a b : Float} (h : (a / b).isFinite = true) : a.isFinite = true := by
  rw [← Bool.not_eq_false]
  intro ha
  rw [not_isFinite_div ha b] at h
  cases h

/-- A finite sum has a finite first term. -/
theorem isFinite_of_add {a b : Float} (h : (a + b).isFinite = true) : a.isFinite = true := by
  rw [← Bool.not_eq_false]
  intro ha
  rw [not_isFinite_add ha b] at h
  cases h

/-- A finite product has finite factors. -/
theorem isFinite_of_mul {a b : Float} (h : (a * b).isFinite = true) :
    a.isFinite = true ∧ b.isFinite = true := by
  constructor
  · rw [← Bool.not_eq_false]
    intro ha
    rw [not_isFinite_mul_left ha b] at h
    cases h
  · rw [← Bool.not_eq_false]
    intro hb
    rw [not_isFinite_mul a hb] at h
    cases h

/-- A finite difference has finite operands. -/
theorem isFinite_of_sub {a b : Float} (h : (a - b).isFinite = true) :
    a.isFinite = true ∧ b.isFinite = true := by
  constructor
  · rw [← Bool.not_eq_false]
    intro ha
    rw [not_isFinite_sub ha b] at h
    cases h
  · rw [← Bool.not_eq_false]
    intro hb
    rw [not_isFinite_sub_right a hb] at h
    cases h

/-- A finite number equals none that is not. -/
theorem beq_of_not_isFinite {x y : Float} (hx : x.isFinite = false) (hy : y.isFinite = true) :
    (x == y) = false := by
  rw [isFinite_eq_unpack] at hy
  show UnpackedFloat.beq x.toModel.unpack y.toModel.unpack = false
  rcases unpack_cases_of_not_isFinite hx with hx | ⟨s, hx⟩
  · rw [hx]; rfl
  · rw [hx]
    -- a NaN equals nothing and was settled above, so an infinity is compared with a finite number
    cases hu : y.toModel.unpack with
    | notANumber => rfl
    | infinity t => rw [hu] at hy; cases hy
    | zero t => cases s <;> rfl
    | finite t m e hm => cases s <;> rfl

/-! ## NaNs -/

theorem isNaN_eq_unpack (x : Float) : x.isNaN = x.toModel.unpack.isNaN := rfl

/-- All NaNs unpack to one, whatever their bits are. -/
theorem unpack_of_isNaN {x : Float} (h : x.isNaN = true) : x.toModel.unpack = .notANumber := by
  rw [isNaN_eq_unpack] at h
  cases hx : x.toModel.unpack with
  | notANumber => rfl
  | infinity s => rw [hx] at h; cases h
  | zero s => rw [hx] at h; cases h
  | finite s m e hm => rw [hx] at h; cases h

theorem isNaN_pack : (Float.ofModel (Float.Model.pack .notANumber)).isNaN = true := by decide

/-- What is computed from a NaN is a NaN. -/
theorem isNaN_mul_left {a : Float} (h : a.isNaN = true) (b : Float) : (a * b).isNaN = true := by
  show (Float.ofModel (Float.Model.pack (UnpackedFloat.mul .binary64 _ _))).isNaN = true
  rw [unpack_of_isNaN h]
  exact isNaN_pack

/-- A product with a NaN is a NaN, also the product with zero. -/
theorem isNaN_mul_right (a : Float) {b : Float} (h : b.isNaN = true) : (a * b).isNaN = true := by
  show (Float.ofModel (Float.Model.pack (UnpackedFloat.mul .binary64 _ _))).isNaN = true
  rw [unpack_of_isNaN h]
  cases a.toModel.unpack <;> exact isNaN_pack

/-- A sum with a NaN is a NaN. -/
theorem isNaN_add_right (a : Float) {b : Float} (h : b.isNaN = true) : (a + b).isNaN = true := by
  show (Float.ofModel (Float.Model.pack (UnpackedFloat.add .binary64 _ _))).isNaN = true
  rw [unpack_of_isNaN h]
  cases a.toModel.unpack <;> exact isNaN_pack

/-- A difference from which a NaN is taken is a NaN. -/
theorem isNaN_sub_right (a : Float) {b : Float} (h : b.isNaN = true) : (a - b).isNaN = true := by
  show (Float.ofModel (Float.Model.pack (UnpackedFloat.sub .binary64 _ _))).isNaN = true
  rw [unpack_of_isNaN h]
  cases a.toModel.unpack <;> exact isNaN_pack

/-! ## Infinities -/

theorem isInf_eq_unpack (x : Float) : x.isInf = x.toModel.unpack.isInf := rfl

/-- An infinity unpacks to its sign. -/
theorem unpack_of_isInf {x : Float} (h : x.isInf = true) : ∃ s, x.toModel.unpack = .infinity s := by
  rw [isInf_eq_unpack] at h
  cases hx : x.toModel.unpack with
  | infinity s => exact ⟨s, rfl⟩
  | notANumber => rw [hx] at h; cases h
  | zero s => rw [hx] at h; cases h
  | finite s m e hm => rw [hx] at h; cases h

/-- An infinity is neither finite nor a NaN. -/
theorem isFinite_isNaN_of_isInf {x : Float} (h : x.isInf = true) :
    x.isFinite = false ∧ x.isNaN = false := by
  obtain ⟨s, hs⟩ := unpack_of_isInf h
  rw [isFinite_eq_unpack, isNaN_eq_unpack, hs]
  exact ⟨rfl, rfl⟩

theorem isInf_pack (s : UnpackedFloat.Sign) :
    (Float.ofModel (Float.Model.pack (.infinity s))).isInf = true := by
  cases s <;> decide

end DirectionField
