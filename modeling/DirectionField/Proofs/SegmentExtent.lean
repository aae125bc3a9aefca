import DirectionField.Proofs.LatticeSpan
import DirectionField.Proofs.SegmentPlaces

/-!
# The extent of segments

A NaN for a slope leaves no coordinate of its segment (`Segment.isNaN_ofSlope`). Any other slope is seen on
a unit square under an angle whose cosine and sine are at most one, so that its segment stays within a
reach of its place that the lattice alone determines (`Segment.isFinite_ofSlope`). A lattice thus shows
every slope if the aspect of its domain is a number other than zero and there is room for that reach.
Flat and vertical segments show that it has to be so (`Domain.drawsSlopes_iff`).
-/

namespace DirectionField

/-! ## Angles -/

/-- What holds of the arctangent, the sine and the cosine: NaNs stay NaNs, every other slope has a
    finite angle, sines and cosines are between minus one and one, and they are exact for flat and
    vertical lines. -/
structure Elementary.IsTrigonometric (lib : Elementary) : Prop where
  isNaN_atan : ∀ z : Float, z.isNaN = true → (lib.atan z).isNaN = true
  isNaN_cos : ∀ z : Float, z.isNaN = true → (lib.cos z).isNaN = true
  isNaN_sin : ∀ z : Float, z.isNaN = true → (lib.sin z).isNaN = true
  isFinite_atan : ∀ z : Float, z.isNaN = false → (lib.atan z).isFinite = true
  cos_between : ∀ z : Float, z.isFinite = true → -1.0 ≤ lib.cos z ∧ lib.cos z ≤ 1.0
  sin_between : ∀ z : Float, z.isFinite = true → -1.0 ≤ lib.sin z ∧ lib.sin z ≤ 1.0
  cos_flat : ∀ z : Float, (z == 0.0) = true → lib.cos (lib.atan z) = 1.0
  sin_vertical : ∀ z : Float, z.isInf = true →
    lib.sin (lib.atan z) = 1.0 ∨ lib.sin (lib.atan z) = -1.0

/-- An aspect at which no slope is out of sight: with any other, the product with zero or with an
    infinity is a NaN. -/
def IsAspect (aspect : Float) : Prop := aspect.isFinite = true ∧ (aspect == 0.0) = false

/-- Two zeros, and no other number, equal zero. -/
theorem beq_zero_iff {x : Float} (h : magnitudeBits x ≤ infinityBits) :
    (x == 0.0) = true ↔ rank x = 0 := beq_iff_rank h (by decide)

/-- An aspect is neither of the two zeros. -/
theorem IsAspect.rank_ne_zero {aspect : Float} (h : IsAspect aspect) : rank aspect ≠ 0 := by
  intro hzero
  have hbeq := (beq_zero_iff (magnitudeBits_le_of_isFinite h.1)).2 hzero
  rw [h.2] at hbeq
  cases hbeq

/-- A slope is seen as a number if the aspect is one. -/
theorem isNaN_mul_aspect {slope aspect : Float} (h : IsAspect aspect) (hslope : slope.isNaN = false) :
    (slope * aspect).isNaN = false := by
  cases hfinite : slope.isFinite with
  | true =>
    rw [← Bool.not_eq_true, isNaN_iff, not_lt]
    exact magnitudeBits_le_of_rank (rank_mul hfinite h.1)
  | false =>
    -- an infinite slope stays infinite under an aspect other than zero
    have hinf : slope.isInf = true := by
      have hkinds := isNaN_or_isInf_of_not_isFinite hfinite
      rw [hslope] at hkinds
      exact hkinds.resolve_left Bool.false_ne_true
    exact (isFinite_isNaN_of_isInf (isInf_mul hinf h.1 h.rank_ne_zero)).2

/-- A flat and a vertical line are seen as such, or the aspect is no number to see them with. -/
theorem isAspect_of_not_isNaN {aspect : Float} (hflat : (0.0 * aspect).isNaN = false)
    (hvertical : (1.0 / 0.0 * aspect).isNaN = false) : IsAspect aspect := by
  have hzero : rank 0.0 = 0 := by decide
  have hinf : (1.0 / 0.0 : Float).isInf = true := by decide +kernel
  refine ⟨?_, ?_⟩
  · -- zero times anything that is not finite is a NaN
    rw [← Bool.not_eq_false]
    intro hnot
    have hnan : (0.0 * aspect).isNaN = true := by
      rcases isNaN_or_isInf_of_not_isFinite hnot with h | h
      · exact isNaN_mul_right _ h
      · exact (isNaN_mul_of_zero hzero h).1
    rw [hflat] at hnan
    cases hnan
  · -- and so is an infinity times zero
    rw [← Bool.not_eq_true]
    intro hbeq
    have hrank : rank aspect = 0 := by
      by_cases hbits : magnitudeBits aspect ≤ infinityBits
      · exact (beq_zero_iff hbits).1 hbeq
      · have hnan := isNaN_mul_right (1.0 / 0.0) ((isNaN_iff aspect).2 (not_le.1 hbits))
        rw [hvertical] at hnan
        cases hnan
    have hnan := (isNaN_mul_of_zero hrank hinf).2
    rw [hvertical] at hnan
    cases hnan

/-- The float one has the value one. -/
theorem abs_exactValue_one : |exactValue 1.0| = 1 := by
  have hone : (1.0 : Float) = Float.ofBits 0x3FF0000000000000 := by decide +kernel
  rw [hone, exactValue_one, abs_one]

/-- A number from minus one to one is finite, and its magnitude is at most that of one. -/
theorem magnitudeBits_le_one {c : Float} (h : -1.0 ≤ c ∧ c ≤ 1.0) :
    c.isFinite = true ∧ magnitudeBits c ≤ magnitudeBits 1.0 := by
  have hbits := (magnitudeBits_le_of_le h.1).2
  have hlo := (le_iff_rank (by decide) hbits).1 h.1
  have hhi := (le_iff_rank hbits (by decide)).1 h.2
  have hone : rank 1.0 = magnitudeBits 1.0 := by decide
  have hminus : rank (-1.0) = -(magnitudeBits 1.0 : ℤ) := by decide
  have hfinite : magnitudeBits 1.0 < infinityBits := by decide
  -- the rank is the magnitude with its sign, so both bounds are bounds of the magnitude
  have habs := natAbs_rank c
  rw [isFinite_iff]
  omega

namespace Segment

/-! ## Room -/

/-- How far a segment reaches at most, along an axis with the given extent, to each side of its
    place. -/
def reach (fill : Float) (rows : Nat) (extent : Float) : Float :=
  fill / Float.ofNat rows / 2.0 * extent

/-- To both sides of `x`, there are finite numbers at this distance. -/
def HasRoom (x distance : Float) : Prop :=
  (x - distance).isFinite = true ∧ (x + distance).isFinite = true

/-- What is rounded to a number between two finite ones is finite. -/
theorem isFinite_of_roundedRank {x : Float} {p q r : ℚ} (h : rank x = roundedRank q)
    (hpq : p ≤ q) (hqr : q ≤ r) (hp : (roundedRank p).natAbs < infinityBits)
    (hr : (roundedRank r).natAbs < infinityBits) : x.isFinite = true := by
  have hlo := roundedRank_mono hpq
  have hhi := roundedRank_mono hqr
  rw [isFinite_iff_rank]
  omega

/-- What is not greater than a finite number is finite. -/
theorem isFinite_of_magnitudeBits_le {x y : Float} (h : magnitudeBits x ≤ magnitudeBits y)
    (hy : y.isFinite = true) : x.isFinite = true := by
  rw [DirectionField.isFinite_iff] at hy ⊢
  exact lt_of_le_of_lt h hy

/-- Where there is room for a distance there is room for any that is not greater. -/
theorem HasRoom.of_le {x distance distance' : Float} (h : HasRoom x distance)
    (hle : magnitudeBits distance' ≤ magnitudeBits distance) : HasRoom x distance' := by
  obtain ⟨hx, hdistance⟩ := isFinite_of_sub h.1
  have hdistance' := isFinite_of_magnitudeBits_le hle hdistance
  -- the ends are the same two whatever the sign of the distance
  have hends : (roundedRank (exactValue x - |exactValue distance|)).natAbs < infinityBits ∧
      (roundedRank (exactValue x + |exactValue distance|)).natAbs < infinityBits := by
    have hsub := (isFinite_iff_rank _).1 h.1
    have hadd := (isFinite_iff_rank _).1 h.2
    rw [rank_sub hx hdistance] at hsub
    rw [rank_add hx hdistance] at hadd
    rcases abs_choice (exactValue distance) with habs | habs <;> rw [habs]
    · exact ⟨hsub, hadd⟩
    · rw [sub_neg_eq_add, ← sub_eq_add_neg]
      exact ⟨hadd, hsub⟩
  have hbetween := abs_le.1 (abs_exactValue_le hle)
  exact ⟨isFinite_of_roundedRank (rank_sub hx hdistance') (by linarith) (by linarith) hends.1 hends.2,
    isFinite_of_roundedRank (rank_add hx hdistance') (by linarith) (by linarith) hends.1 hends.2⟩

/-- Room at both ends leaves room between them. -/
theorem HasRoom.of_between {a x b distance : Float} (ha : HasRoom a distance)
    (hb : HasRoom b distance) (hax : a ≤ x) (hxb : x ≤ b) : HasRoom x distance := by
  have hfa := (isFinite_of_sub ha.1).1
  obtain ⟨hfb, hdistance⟩ := isFinite_of_sub hb.1
  have hfx := isFinite_of_le_of_le hfa hfb hax hxb
  rw [le_iff_rank (magnitudeBits_le_of_isFinite hfa) (magnitudeBits_le_of_isFinite hfx),
    ← exactValue_le_iff] at hax
  rw [le_iff_rank (magnitudeBits_le_of_isFinite hfx) (magnitudeBits_le_of_isFinite hfb),
    ← exactValue_le_iff] at hxb
  -- both ends move with the place, and rounding is monotone
  have hsub (y : Float) (hy : y.isFinite = true) (h : (y - distance).isFinite = true) :
      (roundedRank (exactValue y - exactValue distance)).natAbs < infinityBits := by
    rw [← rank_sub hy hdistance, ← isFinite_iff_rank]
    exact h
  have hadd (y : Float) (hy : y.isFinite = true) (h : (y + distance).isFinite = true) :
      (roundedRank (exactValue y + exactValue distance)).natAbs < infinityBits := by
    rw [← rank_add hy hdistance, ← isFinite_iff_rank]
    exact h
  exact ⟨isFinite_of_roundedRank (rank_sub hfx hdistance) (by linarith) (by linarith)
      (hsub a hfa ha.1) (hsub b hfb hb.1),
    isFinite_of_roundedRank (rank_add hfx hdistance) (by linarith) (by linarith)
      (hadd a hfa ha.2) (hadd b hfb hb.2)⟩

/-- A factor of at most one keeps within the reach. -/
theorem HasRoom.of_factor {x half c extent : Float} (h : HasRoom x (half * extent))
    (hc : -1.0 ≤ c ∧ c ≤ 1.0) : HasRoom x (half * c * extent) := by
  obtain ⟨hhalf, hextent⟩ := isFinite_of_mul (isFinite_of_sub h.1).2
  obtain ⟨hfinite, hle⟩ := magnitudeBits_le_one hc
  -- rounding cannot lead beyond the product with one, which is exact
  have hunit := magnitudeBits_mul_unit hhalf (by decide) abs_exactValue_one
  have hproduct := magnitudeBits_mul_mono hhalf hhalf hfinite (by decide) (le_refl _) hle
  rw [hunit] at hproduct
  have hproductFinite := isFinite_of_magnitudeBits_le hproduct hhalf
  exact h.of_le (magnitudeBits_mul_mono hproductFinite hhalf hextent hextent hproduct (le_refl _))

/-- A factor of magnitude one makes full use of the reach. -/
theorem HasRoom.of_unit {x half c extent : Float} (h : HasRoom x (half * c * extent))
    (hc : c = 1.0 ∨ c = -1.0) : HasRoom x (half * extent) := by
  obtain ⟨hproduct, hextent⟩ := isFinite_of_mul (isFinite_of_sub h.1).2
  obtain ⟨hhalf, hfinite⟩ := isFinite_of_mul hproduct
  have habs : |exactValue c| = 1 := by
    -- up to its sign the factor is one, which multiplies exactly
    have hbits : magnitudeBits c = magnitudeBits 1.0 := by
      rcases hc with rfl | rfl
      · rfl
      · decide
    rw [abs_exactValue, hbits, ← abs_exactValue, abs_exactValue_one]
  have hunit := magnitudeBits_mul_unit hhalf hfinite habs
  exact h.of_le (magnitudeBits_mul_mono hhalf hproduct hextent hextent hunit.ge (le_refl _))

/-! ## Segments -/

section

variable {lib : Elementary} (hlib : lib.IsTrigonometric) {fill : Float} {rows : Nat}
  {width height x y slope : Float}

include hlib

/-- No coordinate is left of a segment that is seen under no angle. -/
theorem isNaN_ofSlope (h : (slope * (width / height)).isNaN = true) :
    let s := ofSlope lib fill rows width height x y slope
    s.start.x.isNaN = true ∧ s.start.y.isNaN = true ∧ s.stop.x.isNaN = true ∧
      s.stop.y.isNaN = true := by
  have hangle := hlib.isNaN_atan _ h
  have hdx := isNaN_mul_left (isNaN_mul_right (fill / Float.ofNat rows / 2.0)
    (hlib.isNaN_cos _ hangle)) width
  have hdy := isNaN_mul_left (isNaN_mul_right (fill / Float.ofNat rows / 2.0)
    (hlib.isNaN_sin _ hangle)) height
  exact ⟨isNaN_sub_right _ hdx, isNaN_sub_right _ hdy, isNaN_add_right _ hdx, isNaN_add_right _ hdy⟩

/-- So a segment with finite coordinates is seen under an angle. -/
theorem isNaN_of_isFinite_ofSlope
    (h : (ofSlope lib fill rows width height x y slope).isFinite = true) :
    (slope * (width / height)).isNaN = false := by
  rw [← Bool.not_eq_true]
  intro hnan
  have hfinite := ((isFinite_iff_coordinates _).1 h).1
  have hnot := (isNaN_isInf_of_isFinite hfinite).1
  rw [(isNaN_ofSlope hlib hnan).1] at hnot
  cases hnot

/-- With an aspect to see it and room for its reach, a segment has finite coordinates. -/
theorem isFinite_ofSlope (haspect : IsAspect (width / height))
    (hx : HasRoom x (reach fill rows width)) (hy : HasRoom y (reach fill rows height))
    (hslope : slope.isNaN = false) :
    (ofSlope lib fill rows width height x y slope).isFinite = true := by
  have hangle := hlib.isFinite_atan _ (isNaN_mul_aspect haspect hslope)
  have hdx := hx.of_factor (hlib.cos_between _ hangle)
  have hdy := hy.of_factor (hlib.sin_between _ hangle)
  exact (isFinite_iff_coordinates _).2 ⟨hdx.1, hdy.1, hdx.2, hdy.2⟩

/-- A flat segment needs the whole reach to its sides. -/
theorem hasRoom_of_flat (haspect : IsAspect (width / height))
    (h : (ofSlope lib fill rows width height x y 0.0).isFinite = true) :
    HasRoom x (reach fill rows width) := by
  obtain ⟨hstart, _, hstop, _⟩ := (isFinite_iff_coordinates _).1 h
  -- a slope of zero is seen as zero under any aspect
  have hzero : rank (0.0 * (width / height)) = 0 := by
    rw [rank_mul (by decide) haspect.1, exactValue_of_rank_zero (by decide), zero_mul,
      roundedRank_zero]
  have hflat := (beq_zero_iff (magnitudeBits_le_of_isFinite (isFinite_of_rank_zero hzero))).2 hzero
  exact HasRoom.of_unit ⟨hstart, hstop⟩ (.inl (hlib.cos_flat _ hflat))

/-- A vertical segment needs it above and below. -/
theorem hasRoom_of_vertical (haspect : IsAspect (width / height)) (hslope : slope.isInf = true)
    (h : (ofSlope lib fill rows width height x y slope).isFinite = true) :
    HasRoom y (reach fill rows height) := by
  obtain ⟨_, hstart, _, hstop⟩ := (isFinite_iff_coordinates _).1 h
  have hvertical := isInf_mul hslope haspect.1 haspect.rank_ne_zero
  exact HasRoom.of_unit ⟨hstart, hstop⟩ (hlib.sin_vertical _ hvertical)

end

end Segment

/-! ## Lattices -/

namespace Field

/-- The field with the same slope at every place. -/
def uniform (d : Domain) (n : Nat) (slope : Float) : Field :=
  ⟨d, n, d.abscissae n, d.ordinates n, Array.replicate n (Array.replicate n slope)⟩

/-- The uniform field is over the lattice. -/
theorem isOver_uniform (d : Domain) (n : Nat) (slope : Float) : (uniform d n slope).IsOver d n :=
  ⟨⟨size_linspace .., size_linspace .., Array.size_replicate, fun row hrow => by
    rw [(Array.mem_replicate.1 hrow).2]
    exact Array.size_replicate⟩, rfl, rfl, rfl, rfl⟩

/-- Each of its slopes is the given one. -/
theorem slopeOf_uniform (d : Domain) {n : Nat} (slope : Float) {row column : Nat} (hrow : row < n)
    (hcolumn : column < n) : (uniform d n slope).slopeOf (row, column) = slope := by
  unfold slopeOf uniform
  simp [Array.getD_eq_getD_getElem?, hrow, hcolumn]

section

variable {field : Field} {d : Domain} {n : Nat} (h : field.IsOver d n) (lib : Elementary)
  (fill : Float) {row column : Nat} (hrow : row < n) (hcolumn : column < n)

include h hrow hcolumn

/-- The segment at a place stands at its index. -/
theorem IsOver.getElem?_segments :
    (field.segments lib fill)[row * n + column]? = some (field.segmentAt lib fill (row, column)) := by
  obtain rfl := h.rows_eq
  exact Field.getElem?_segments lib fill h.toIsSquare hrow hcolumn

/-- The segment at a place, by the coordinates there. -/
theorem IsOver.segmentAt_eq : field.segmentAt lib fill (row, column) =
    Segment.ofSlope lib fill n d.width d.height (spaced d.left d.right n column)
      (spaced d.lower d.upper n row) (field.slopeOf (row, column)) := by
  unfold segmentAt
  rw [h.rows_eq, h.domain_eq, h.xs_eq, h.ys_eq]
  unfold Domain.abscissae Domain.ordinates
  rw [Array.getD_eq_getD_getElem?, Array.getD_eq_getD_getElem?, getElem?_linspace hcolumn,
    getElem?_linspace hrow]
  rfl

end

/-- The segments of a uniform field. -/
theorem getElem?_segments_uniform (lib : Elementary) (fill : Float) (d : Domain) {n : Nat}
    (slope : Float) {row column : Nat} (hrow : row < n) (hcolumn : column < n) :
    ((uniform d n slope).segments lib fill)[row * n + column]? =
      some (Segment.ofSlope lib fill n d.width d.height (spaced d.left d.right n column)
        (spaced d.lower d.upper n row) slope) := by
  have hover := isOver_uniform d n slope
  rw [hover.getElem?_segments lib fill hrow hcolumn, hover.segmentAt_eq lib fill hrow hcolumn,
    slopeOf_uniform d slope hrow hcolumn]

end Field

namespace Domain

/-- Over the lattice with `n` rows, every slope is drawn, whatever the others are: its segment has
    finite coordinates unless it is a NaN. -/
def DrawsSlopes (d : Domain) (lib : Elementary) (fill : Float) (n : Nat) : Prop :=
  ∀ field : Field, field.IsOver d n → ∀ row < n, ∀ column < n,
    (field.slopeOf (row, column)).isNaN = false →
      ∃ s, (field.segments lib fill)[row * n + column]? = some s ∧ s.isFinite = true

/-- Around every place of the lattice with `n` rows, there is room for the reach of a segment. -/
def HasRoom (d : Domain) (fill : Float) (n : Nat) : Prop :=
  (∀ x ∈ d.abscissae n, Segment.HasRoom x (Segment.reach fill n d.width)) ∧
    ∀ y ∈ d.ordinates n, Segment.HasRoom y (Segment.reach fill n d.height)

variable {lib : Elementary} {fill : Float} {d : Domain} {n : Nat}

/-- As the slopes may be the same everywhere, any slope is drawn at any place. -/
theorem DrawsSlopes.isFinite_ofSlope (h : d.DrawsSlopes lib fill n) {row column : Nat}
    (hrow : row < n) (hcolumn : column < n) {slope : Float} (hslope : slope.isNaN = false) :
    (Segment.ofSlope lib fill n d.width d.height (spaced d.left d.right n column)
      (spaced d.lower d.upper n row) slope).isFinite = true := by
  rw [← Field.slopeOf_uniform d slope hrow hcolumn] at hslope
  obtain ⟨s, hs, hfinite⟩ := h _ (Field.isOver_uniform d n slope) row hrow column hcolumn hslope
  rw [Field.getElem?_segments_uniform lib fill d slope hrow hcolumn] at hs
  cases hs
  exact hfinite

/-- A flat and a vertical segment at one place are enough to tell that there is an aspect. -/
theorem DrawsSlopes.isAspect (hlib : lib.IsTrigonometric) (hn : 0 < n)
    (h : d.DrawsSlopes lib fill n) : IsAspect (d.width / d.height) :=
  isAspect_of_not_isNaN
    (Segment.isNaN_of_isFinite_ofSlope hlib (h.isFinite_ofSlope hn hn (by decide)))
    (Segment.isNaN_of_isFinite_ofSlope hlib (h.isFinite_ofSlope hn hn (by decide +kernel)))

/-- Flat segments show the room along the rows, and vertical ones along the columns. -/
theorem DrawsSlopes.hasRoom (hlib : lib.IsTrigonometric) (hn : 0 < n)
    (h : d.DrawsSlopes lib fill n) : d.HasRoom fill n := by
  have haspect := h.isAspect hlib hn
  have hinf : (1.0 / 0.0 : Float).isInf = true := by decide +kernel
  refine ⟨fun x hx => ?_, fun y hy => ?_⟩
  · obtain ⟨column, hcolumn, rfl⟩ := mem_linspace_iff.1 hx
    exact Segment.hasRoom_of_flat hlib haspect (h.isFinite_ofSlope hn hcolumn (by decide))
  · obtain ⟨row, hrow, rfl⟩ := mem_linspace_iff.1 hy
    exact Segment.hasRoom_of_vertical hlib haspect hinf
      (h.isFinite_ofSlope hrow hn (by decide +kernel))

/-- With an aspect and with room around every place, each segment that has a slope is finite. -/
theorem drawsSlopes_of_hasRoom (hlib : lib.IsTrigonometric) (haspect : IsAspect (d.width / d.height))
    (h : d.HasRoom fill n) : d.DrawsSlopes lib fill n :=
  fun field hover row hrow column hcolumn hslope => by
    refine ⟨_, hover.getElem?_segments lib fill hrow hcolumn, ?_⟩
    rw [hover.segmentAt_eq lib fill hrow hcolumn]
    exact Segment.isFinite_ofSlope hlib haspect (h.1 _ (mem_linspace_iff.2 ⟨column, hcolumn, rfl⟩))
      (h.2 _ (mem_linspace_iff.2 ⟨row, hrow, rfl⟩)) hslope

/-- Between bounds with room there is room everywhere. -/
theorem hasRoom_of_latticeSpans (h : d.LatticeSpans n)
    (hx : ∀ x ∈ [d.left, d.right], Segment.HasRoom x (Segment.reach fill n d.width))
    (hy : ∀ y ∈ [d.lower, d.upper], Segment.HasRoom y (Segment.reach fill n d.height)) :
    d.HasRoom fill n := by
  simp only [List.forall_mem_cons, List.not_mem_nil, false_imp_iff, implies_true, and_true] at hx hy
  refine ⟨fun x hmem => ?_, fun y hmem => ?_⟩
  · obtain ⟨hge, hle⟩ := h.1.inside x hmem
    exact hx.1.of_between hx.2 hge hle
  · obtain ⟨hge, hle⟩ := h.2.inside y hmem
    exact hy.1.of_between hy.2 hge hle

/-- Without a slope, a segment has no coordinates. -/
theorem isNaN_segmentAt (hlib : lib.IsTrigonometric) (fill : Float) {field : Field}
    (hover : field.IsOver d n) {row column : Nat} (hrow : row < n) (hcolumn : column < n)
    (hslope : (field.slopeOf (row, column)).isNaN = true) :
    let s := field.segmentAt lib fill (row, column)
    s.start.x.isNaN = true ∧ s.start.y.isNaN = true ∧ s.stop.x.isNaN = true ∧
      s.stop.y.isNaN = true := by
  dsimp only
  rw [hover.segmentAt_eq lib fill hrow hcolumn]
  exact Segment.isNaN_ofSlope hlib (isNaN_mul_left hslope _)

/-- What is drawn of a field is what has a slope. -/
theorem DrawsSlopes.filter_segments (hlib : lib.IsTrigonometric) (h : d.DrawsSlopes lib fill n)
    {field : Field} (hover : field.IsOver d n) :
    (field.segments lib fill).filter Segment.isFinite =
      ((places n).filter fun place => !(field.slopeOf place).isNaN).map
        (field.segmentAt lib fill) := by
  rw [Field.segments_eq_map lib fill hover.toIsSquare, hover.rows_eq, List.filter_map]
  refine congrArg (List.map _) (List.filter_congr fun place hplace => ?_)
  obtain ⟨row, column⟩ := place
  obtain ⟨hrow, hcolumn⟩ := mem_places_iff.1 hplace
  show (field.segmentAt lib fill (row, column)).isFinite = !(field.slopeOf (row, column)).isNaN
  -- place by place: a segment is kept if it has a slope, and it is lost if it has none
  cases hslope : (field.slopeOf (row, column)).isNaN with
  | false =>
    obtain ⟨s, hs, hfinite⟩ := h field hover row hrow column hcolumn hslope
    rw [hover.getElem?_segments lib fill hrow hcolumn] at hs
    cases hs
    exact hfinite
  | true =>
    rw [Bool.not_true, ← Bool.not_eq_true]
    intro hfinite
    rw [hover.segmentAt_eq lib fill hrow hcolumn] at hfinite
    have hnot := Segment.isNaN_of_isFinite_ofSlope hlib hfinite
    rw [isNaN_mul_left hslope] at hnot
    cases hnot

/-- The first collection of a drawing is that of the field. -/
theorem head?_lines_strokes (lib : Elementary) (field : Field) (path : Option Path)
    (title : Option String) (target : Target) :
    ((Drawing.strokes lib field path title target).filterMap Stroke.lines?).head? =
      some ((field.segments lib defaultFill).filter Segment.isFinite) := by
  rw [Drawing.filterMap_strokes lib field path title target rfl fun s hs =>
    (Drawing.lines_marked_of_mem field.domain title target s hs).1]
  rfl

/-- Every slope is drawn over a lattice, infinite ones included, if and only if the aspect of the
    domain is a number other than zero and there is room for a reach around every place. Room at the
    bounds is enough for a lattice that spans its domain. A NaN for a slope leaves no coordinate,
    and where every slope is drawn, the places left out of a drawing are those without one. -/
theorem drawsSlopes_iff (hlib : lib.IsTrigonometric) (fill : Float) (d : Domain)
    (hn : leastRows ≤ n) :
    (d.DrawsSlopes lib fill n ↔ IsAspect (d.width / d.height) ∧ d.HasRoom fill n) ∧
      (d.LatticeSpans n →
        (∀ x ∈ [d.left, d.right], Segment.HasRoom x (Segment.reach fill n d.width)) →
        (∀ y ∈ [d.lower, d.upper], Segment.HasRoom y (Segment.reach fill n d.height)) →
        d.HasRoom fill n) ∧
      ∀ field : Field, field.IsOver d n →
        (∀ row < n, ∀ column < n, (field.slopeOf (row, column)).isNaN = true →
          ∃ s, (field.segments lib fill)[row * n + column]? = some s ∧ s.start.x.isNaN = true ∧
            s.start.y.isNaN = true ∧ s.stop.x.isNaN = true ∧ s.stop.y.isNaN = true) ∧
        (d.DrawsSlopes lib defaultFill n → ∀ path title target,
          ((Drawing.strokes lib field path title target).filterMap Stroke.lines?).head? =
            some (((places n).filter fun place => !(field.slopeOf place).isNaN).map
              (field.segmentAt lib defaultFill))) := by
  unfold leastRows at hn
  refine ⟨⟨fun h => ⟨h.isAspect hlib (by omega), h.hasRoom hlib (by omega)⟩,
    fun h => drawsSlopes_of_hasRoom hlib h.1 h.2⟩, hasRoom_of_latticeSpans,
    fun field hover => ⟨fun row hrow column hcolumn hslope => ?_, fun h path title target => ?_⟩⟩
  · exact ⟨_, hover.getElem?_segments lib fill hrow hcolumn,
      isNaN_segmentAt hlib fill hover hrow hcolumn hslope⟩
  · rw [head?_lines_strokes, h.filter_segments hlib hover]

/-- The angles of flat and of vertical lines, with their sines and cosines. -/
def flatAndVertical : Elementary where
  __ := Elementary.native
  atan z :=
    if z.isFinite || z.isNaN then z
    else if z < 0.0 then -1.5707963267948966 else 1.5707963267948966
  cos z :=
    if z.isNaN then z else if z == 0.0 then 1.0
    else if z == -1.5707963267948966 || z == 1.5707963267948966 then 6.123233995736766e-17 else 0.5
  sin z :=
    if z.isNaN then z else if z == 0.0 then 0.0
    else if z == -1.5707963267948966 then -1.0 else if z == 1.5707963267948966 then 1.0 else 0.5

/-- That much is enough to be trigonometric. -/
theorem isTrigonometric_flatAndVertical : flatAndVertical.IsTrigonometric where
  isNaN_atan z h := by
    simp only [flatAndVertical, h, Bool.or_true, if_true]
  isNaN_cos z h := by
    simp only [flatAndVertical, h, if_true]
  isNaN_sin z h := by
    simp only [flatAndVertical, h, if_true]
  isFinite_atan z h := by
    cases hfinite : z.isFinite with
    | true => simp only [flatAndVertical, hfinite, Bool.true_or, if_true]
    | false =>
      simp only [flatAndVertical, hfinite, h, Bool.or_self, Bool.false_eq_true, if_false]
      split <;> decide +kernel
  cos_between z h := by
    simp only [flatAndVertical, (isNaN_isInf_of_isFinite h).1, Bool.false_eq_true, if_false]
    split
    · decide +kernel
    · split <;> decide +kernel
  sin_between z h := by
    simp only [flatAndVertical, (isNaN_isInf_of_isFinite h).1, Bool.false_eq_true, if_false]
    split
    · decide +kernel
    · split
      · decide +kernel
      · split <;> decide +kernel
  cos_flat z h := by
    -- what equals zero is finite
    have hfinite : z.isFinite = true := by
      rw [← Bool.not_eq_false]
      intro hnot
      rw [beq_of_not_isFinite hnot (by decide)] at h
      cases h
    simp only [flatAndVertical, hfinite, (isNaN_isInf_of_isFinite hfinite).1, h, Bool.or_false,
      Bool.false_eq_true, if_true, if_false]
  sin_vertical z h := by
    obtain ⟨hfinite, hnan⟩ := isFinite_isNaN_of_isInf h
    simp only [flatAndVertical, hfinite, hnan, Bool.or_self, Bool.false_eq_true, if_false]
    by_cases hneg : z < 0.0
    · rw [if_pos hneg]
      exact .inr (by decide +kernel)
    · rw [if_neg hneg]
      exact .inl (by decide +kernel)

/-- Two rows over the square from `-1` to `1`, and a field with a flat, a vertical and no slope. -/
theorem drawsSlopes_square :
    ∃ d, ofBounds (-1.0) 1.0 (-1.0) 1.0 = .ok d ∧ flatAndVertical.IsTrigonometric ∧ leastRows ≤ 2 ∧
      d.DrawsSlopes flatAndVertical defaultFill 2 ∧
      let field : Field :=
        ⟨d, 2, d.abscissae 2, d.ordinates 2, #[#[0.0, 0.0 / 0.0], #[1.0 / 0.0, 0.0]]⟩
      field.IsOver d 2 ∧
        ((Drawing.strokes flatAndVertical field none none .temporary).filterMap Stroke.lines?).head? =
          some ([(0, 0), (1, 0), (1, 1)].map (field.segmentAt flatAndVertical defaultFill)) := by
  let d : Domain := ⟨-1.0, 1.0, -1.0, 1.0, by decide +kernel, by decide +kernel, by decide +kernel⟩
  have hlib := isTrigonometric_flatAndVertical
  have hrows : leastRows ≤ 2 := le_refl 2
  obtain ⟨hiff, _, hfield⟩ := drawsSlopes_iff hlib defaultFill d hrows
  -- the square has the same room along both axes
  have hroom : ∀ i < 2, Segment.HasRoom (spaced (-1.0) 1.0 2 i)
      (Segment.reach defaultFill 2 (1.0 - -1.0)) := by
    unfold Segment.HasRoom
    decide +kernel
  have haspect : IsAspect (d.width / d.height) := by
    unfold IsAspect
    decide +kernel
  have hdraws := hiff.2 ⟨haspect, fun x hx => by
    obtain ⟨i, hi, rfl⟩ := mem_linspace_iff.1 hx
    exact hroom i hi, fun y hy => by
    obtain ⟨i, hi, rfl⟩ := mem_linspace_iff.1 hy
    exact hroom i hi⟩
  refine ⟨d, ofBounds_self d, hlib, hrows, hdraws, ?_⟩
  intro field
  have hover : field.IsOver d 2 := ⟨⟨rfl, rfl, rfl, by simp [field]⟩, rfl, rfl, rfl, rfl⟩
  refine ⟨hover, ((hfield field hover).2 hdraws none none .temporary).trans ?_⟩
  have hplaces : ((places 2).filter fun place => !(field.slopeOf place).isNaN) =
      [(0, 0), (1, 0), (1, 1)] := by decide +kernel
  rw [hplaces]

/-- A domain that is so much wider than high, or so much higher than wide, that it has no aspect,
    and one without room beyond its right bound: over each of them, the second segment is lost
    although its slope is zero or infinite. -/
theorem segments_lost_wide_high_far :
    (∃ d, ofBounds (-1e300) 1e300 (-1e-300) 1e-300 = .ok d ∧ d.width.isFinite = true ∧
      d.height.isFinite = true ∧ ∀ lib : Elementary, lib.IsTrigonometric →
        ∃ s, ((Field.uniform d 2 0.0).segments lib defaultFill)[1]? = some s ∧ s.isFinite = false) ∧
    (∃ d, ofBounds (-1e-300) 1e-300 (-1e300) 1e300 = .ok d ∧ d.width.isFinite = true ∧
      d.height.isFinite = true ∧ ∀ lib : Elementary, lib.IsTrigonometric →
        ∃ s, ((Field.uniform d 2 (1.0 / 0.0)).segments lib defaultFill)[1]? = some s ∧
          s.isFinite = false) ∧
    ∃ d, ofBounds 1e308 1.7e308 0.0 1e308 = .ok d ∧ d.width.isFinite = true ∧
      d.height.isFinite = true ∧ ∀ lib : Elementary, lib.IsTrigonometric →
        ∃ s, ((Field.uniform d 2 0.0).segments lib defaultFill)[1]? = some s ∧
          s.isFinite = false := by
  -- the second segment of the first row
  have hget (lib : Elementary) (d : Domain) (slope : Float) :=
    Field.getElem?_segments_uniform lib defaultFill d slope (by decide : 0 < 2) (by decide : 1 < 2)
  refine ⟨?_, ?_, ?_⟩
  · let d : Domain :=
      ⟨-1e300, 1e300, -1e-300, 1e-300, by decide +kernel, by decide +kernel, by decide +kernel⟩
    refine ⟨d, ofBounds_self d, by decide +kernel, by decide +kernel, fun lib hlib =>
      ⟨_, hget lib d 0.0, ?_⟩⟩
    rw [← Bool.not_eq_true]
    intro hfinite
    exact absurd (Segment.isNaN_of_isFinite_ofSlope hlib hfinite) (by decide +kernel)
  · let d : Domain :=
      ⟨-1e-300, 1e-300, -1e300, 1e300, by decide +kernel, by decide +kernel, by decide +kernel⟩
    refine ⟨d, ofBounds_self d, by decide +kernel, by decide +kernel, fun lib hlib =>
      ⟨_, hget lib d (1.0 / 0.0), ?_⟩⟩
    rw [← Bool.not_eq_true]
    intro hfinite
    exact absurd (Segment.isNaN_of_isFinite_ofSlope hlib hfinite) (by decide +kernel)
  · let d : Domain :=
      ⟨1e308, 1.7e308, 0.0, 1e308, by decide +kernel, by decide +kernel, by decide +kernel⟩
    have haspect : IsAspect (d.width / d.height) := by
      unfold IsAspect
      decide +kernel
    refine ⟨d, ofBounds_self d, by decide +kernel, by decide +kernel, fun lib hlib =>
      ⟨_, hget lib d 0.0, ?_⟩⟩
    rw [← Bool.not_eq_true]
    intro hfinite
    exact absurd (Segment.hasRoom_of_flat hlib haspect hfinite).2 (by decide +kernel)

end Domain

end DirectionField
