import DirectionField.Domain
import DirectionField.Proofs.FloatArithmetic

/-!
# Lattices in their domains

Evenly spaced numbers start where they should, do not decrease before the last one, and end at the last
one by definition. So all that can go wrong is between the last two: a lattice spans its domain if and
only if its last point but one is in it (`Domain.latticeSpans_iff`). It is not where the extent of the
domain is infinite, or where the spacing is so few units that rounding it up is felt at the far end.
-/

namespace DirectionField

/-! ## Infinite extents -/

/-- Where the distance to cover is not finite, no number on the way is. -/
theorem not_isFinite_spaced {start stop : Float} (h : (stop - start).isFinite = false) {n i : Nat}
    (hi : i + 1 ≠ n) : (spaced start stop n i).isFinite = false := by
  have hspacing := not_isFinite_div h (Float.ofNat (n - 1))
  unfold spaced
  dsimp only
  rw [if_neg hi, beq_of_not_isFinite hspacing (by decide +kernel), if_neg (by decide)]
  exact not_isFinite_add (not_isFinite_mul _ hspacing) _

/-- A point before the last one that is finite shows a finite extent. -/
theorem isFinite_extent_of_spaced {start stop : Float} {n i : Nat} (hi : i + 1 ≠ n)
    (h : (spaced start stop n i).isFinite = true) : (stop - start).isFinite = true := by
  rw [← Bool.not_eq_false]
  intro hnot
  rw [not_isFinite_spaced hnot hi] at h
  cases h

/-- A row of finite points has a finite extent. -/
theorem isFinite_extent_of_linspace {start stop : Float} {n : Nat} (hn : leastRows ≤ n)
    (h : ∀ x ∈ linspace start stop n, x.isFinite = true) : (stop - start).isFinite = true := by
  unfold leastRows at hn
  have hsize : 0 < (linspace start stop n).size := by
    rw [size_linspace]
    omega
  -- of at least two numbers, the first is not the last, which is never computed
  have hfirst := h _ (Array.getElem_mem hsize)
  rw [getElem_linspace] at hfirst
  exact isFinite_extent_of_spaced (by omega) hfirst

/-! ## Spans -/

/-- `n` numbers lead from `start` to `stop`: they are finite, the first and the last one are the
    ends, and the others do not decrease and are between them. -/
structure Spans (start stop : Float) (n : ℕ) (xs : Array Float) : Prop where
  size_eq : xs.size = n
  finite : ∀ x ∈ xs, x.isFinite = true
  first : ∃ x, xs[0]? = some x ∧ (x == start) = true
  last : xs[n - 1]? = some stop
  sorted : ∀ i j, i ≤ j → ∀ (hi : i < xs.size) (hj : j < xs.size), xs[i] ≤ xs[j]
  inside : ∀ x ∈ xs, start ≤ x ∧ x ≤ stop

/-! ## Evenly spaced numbers -/

/-- What is added to the start to get the `i`-th of evenly spaced numbers that is not the last. -/
def offset (start stop : Float) (n i : ℕ) : Float :=
  if (stop - start) / Float.ofNat (n - 1) == 0.0 then
    Float.ofNat i / Float.ofNat (n - 1) * (stop - start)
  else Float.ofNat i * ((stop - start) / Float.ofNat (n - 1))

section

variable {start stop : Float} {n i j : ℕ}

/-- All points but the last one lie at their offsets. -/
theorem spaced_of_ne (hi : i + 1 ≠ n) : spaced start stop n i = offset start stop n i + start := by
  unfold spaced offset
  dsimp only
  rw [if_neg hi]
  split
  · rfl
  · rfl

/-- The last point is the bound itself. -/
theorem spaced_last_of_pos (hn : 0 < n) : spaced start stop n (n - 1) = stop := by
  obtain ⟨k, rfl⟩ : ∃ k, n = k + 1 := ⟨n - 1, by omega⟩
  exact spaced_last start stop k

/-- A `Float` from a natural number that is not finite is infinite. -/
theorem magnitudeBits_ofNat_of_not_isFinite {k : ℕ} (h : ¬ (Float.ofNat k).isFinite = true) :
    magnitudeBits (Float.ofNat k) = infinityBits := by
  have hle := magnitudeBits_le_of_rank (rank_ofNat k)
  rw [isFinite_iff] at h
  omega

/-- Dividing by a positive count keeps the order. -/
theorem rank_div_ofNat_mono {x x' : Float} (hx : x.isFinite = true) (hx' : x'.isFinite = true)
    {k : ℕ} (hk : 0 < k) (h : rank x ≤ rank x') :
    rank (x / Float.ofNat k) ≤ rank (x' / Float.ofNat k) := by
  by_cases hy : (Float.ofNat k).isFinite = true
  · exact rank_div_mono hx hx' hy (exactValue_ofNat_pos hk) h
  · have hinfinity := magnitudeBits_ofNat_of_not_isFinite hy
    rw [rank_div_of_not_isFinite hx hinfinity, rank_div_of_not_isFinite hx' hinfinity]

/-- Zero divided by a positive count is zero. -/
theorem rank_div_ofNat_of_zero {x : Float} (hx : rank x = 0) {k : ℕ} (hk : 0 < k) :
    rank (x / Float.ofNat k) = 0 := by
  have hfinite := isFinite_of_rank_zero hx
  by_cases hy : (Float.ofNat k).isFinite = true
  · rw [rank_div hfinite hy (exactValue_ofNat_pos hk).ne', exactValue_of_rank_zero hx, zero_div,
      roundedRank_zero]
  · exact rank_div_of_not_isFinite hfinite (magnitudeBits_ofNat_of_not_isFinite hy)

/-- Up to the place `j`, the numbers are finite and increase from zero. -/
structure Ascends (f : ℕ → Float) (j : ℕ) : Prop where
  rank_zero : rank (f 0) = 0
  rank_mono : ∀ i i', i ≤ i' → i' ≤ j → rank (f i) ≤ rank (f i')
  finite : ∀ i ≤ j, (f i).isFinite = true

namespace Ascends

variable {f : ℕ → Float}

/-- What is between zero and a finite number is finite. -/
theorem of_finite (hzero : rank (f 0) = 0)
    (hmono : ∀ i i', i ≤ i' → i' ≤ j → rank (f i) ≤ rank (f i')) (hj : (f j).isFinite = true) :
    Ascends f j := by
  refine ⟨hzero, hmono, fun i hi => ?_⟩
  have hnonneg := hmono 0 i (Nat.zero_le i) hi
  rw [hzero] at hnonneg
  exact isFinite_of_rank_le hnonneg (hmono i j hi (le_refl j)) hj

/-- Counting ascends as long as it is finite. -/
theorem ofNat (hj : (Float.ofNat j).isFinite = true) : Ascends Float.ofNat j :=
  of_finite rank_ofNat_zero (fun _ _ h _ => rank_ofNat_mono h) hj

/-- Dividing by a count keeps what ascends ascending. -/
theorem div (h : Ascends f j) {k : ℕ} (hk : 0 < k) (hj : (f j / Float.ofNat k).isFinite = true) :
    Ascends (fun i => f i / Float.ofNat k) j :=
  of_finite (rank_div_ofNat_of_zero h.rank_zero hk) (fun i i' hi hi' =>
    rank_div_ofNat_mono (h.finite i (hi.trans hi')) (h.finite i' hi') hk (h.rank_mono i i' hi hi')) hj

/-- Multiplying by what is not negative keeps what ascends ascending. -/
theorem mul (h : Ascends f j) {c : Float} (hc : c.isFinite = true) (h0 : 0 ≤ rank c)
    (hj : (f j * c).isFinite = true) : Ascends (fun i => f i * c) j := by
  refine of_finite ?_ (fun i i' hi hi' => ?_) hj
  · rw [rank_mul (h.finite 0 (Nat.zero_le j)) hc, exactValue_of_rank_zero h.rank_zero, zero_mul,
      roundedRank_zero]
  · exact rank_mul_mono (h.finite i (hi.trans hi')) (h.finite i' hi') hc h0 (h.rank_mono i i' hi hi')

end Ascends

/-- Offsets increase from zero. -/
theorem ascends_offset (hextent : (stop - start).isFinite = true) (h0 : 0 ≤ rank (stop - start))
    (hn : 2 ≤ n) (hj : (offset start stop n j).isFinite = true) :
    Ascends (offset start stop n) j := by
  have hparts : 0 < n - 1 := by omega
  unfold offset at hj ⊢
  by_cases hzero : ((stop - start) / Float.ofNat (n - 1) == 0.0) = true
  · -- the fraction of the way increases
    simp only [if_pos hzero] at hj ⊢
    have hquotient := (isFinite_of_mul hj).1
    exact ((Ascends.ofNat (isFinite_of_div hquotient)).div hparts hquotient).mul hextent h0 hj
  · -- the multiples of the spacing increase
    simp only [if_neg hzero] at hj ⊢
    obtain ⟨hofNat, hspacing⟩ := isFinite_of_mul hj
    have hspacing0 := rank_div_ofNat_mono (isFinite_of_rank_zero rank_ofNat_zero) hextent hparts
      (rank_ofNat_zero.trans_le h0)
    rw [rank_div_ofNat_of_zero rank_ofNat_zero hparts] at hspacing0
    exact (Ascends.ofNat hofNat).mul hspacing hspacing0 hj

/-- Between bounds in order there is an extent. -/
theorem exactValue_sub_nonneg (hstart : start.isFinite = true) (hstop : stop.isFinite = true)
    (h : start < stop) : 0 ≤ exactValue stop - exactValue start := by
  rw [lt_iff_rank (magnitudeBits_le_of_isFinite hstart) (magnitudeBits_le_of_isFinite hstop),
    ← exactValue_lt_iff] at h
  exact sub_nonneg.2 h.le

/-- Up to a finite one, evenly spaced numbers increase from the start. -/
theorem rank_spaced_mono (hstart : start.isFinite = true) (hstop : stop.isFinite = true)
    (h : start < stop) (hn : 2 ≤ n) (hj : j + 1 < n)
    (hfinite : (spaced start stop n j).isFinite = true) :
    rank (spaced start stop n 0) = rank start ∧ ∀ i i', i ≤ i' → i' ≤ j →
      rank (spaced start stop n i) ≤ rank (spaced start stop n i') := by
  have hextent := isFinite_extent_of_spaced (by omega) hfinite
  have h0 : 0 ≤ rank (stop - start) := by
    rw [rank_sub hstop hstart, ← roundedRank_zero]
    exact roundedRank_mono (exactValue_sub_nonneg hstart hstop h)
  have hspaced {i : ℕ} (hi : i ≤ j) : spaced start stop n i = offset start stop n i + start :=
    spaced_of_ne (by omega)
  rw [hspaced (le_refl j)] at hfinite
  -- before the last point, the offsets ascend, and adding the start keeps that
  have hoffset := ascends_offset hextent h0 hn (isFinite_of_add hfinite)
  refine ⟨?_, fun i i' h h' => ?_⟩
  · rw [hspaced (Nat.zero_le j), rank_add (hoffset.finite 0 (Nat.zero_le j)) hstart,
      exactValue_of_rank_zero hoffset.rank_zero, zero_add, roundedRank_exactValue hstart]
  · rw [hspaced (h.trans h'), hspaced h']
    exact rank_add_mono (hoffset.finite i (h.trans h')) (hoffset.finite i' h') hstart
      (hoffset.rank_mono i i' h h')

/-- If the last but one is not above the end, none is above a later one. -/
theorem rank_spaced_mono_of_le (hstart : start.isFinite = true) (hstop : stop.isFinite = true)
    (h : start < stop) (hn : 2 ≤ n) (hfinite : (spaced start stop n (n - 2)).isFinite = true)
    (hle : rank (spaced start stop n (n - 2)) ≤ rank stop) {i i' : ℕ} (hi : i ≤ i') (hi' : i' < n) :
    rank (spaced start stop n i) ≤ rank (spaced start stop n i') := by
  have hmono := (rank_spaced_mono hstart hstop h hn (by omega) hfinite).2
  -- the last number is not computed as the others are, but set to the end
  rcases (by omega : i' ≤ n - 2 ∨ i' = n - 1) with hi' | rfl
  · exact hmono i i' hi hi'
  · rw [spaced_last_of_pos (by omega)]
    rcases (by omega : i ≤ n - 2 ∨ i = n - 1) with hi | rfl
    · exact (hmono i (n - 2) hi (le_refl _)).trans hle
    · rw [spaced_last_of_pos (by omega)]

/-- The points of a row are those at their offsets. -/
theorem getElem?_linspace (hi : i < n) :
    (linspace start stop n)[i]? = some (spaced start stop n i) := by
  rw [Array.getElem?_eq_getElem (by rw [size_linspace]; exact hi), getElem_linspace]

/-- A number is one of the points if it lies at one of the offsets. -/
theorem mem_linspace_iff {x : Float} :
    x ∈ linspace start stop n ↔ ∃ i < n, x = spaced start stop n i := by
  constructor
  · intro hx
    obtain ⟨i, hi, rfl⟩ := Array.getElem_of_mem hx
    rw [size_linspace] at hi
    exact ⟨i, hi, getElem_linspace ..⟩
  · rintro ⟨i, hi, rfl⟩
    rw [← getElem_linspace start stop n i (by rw [size_linspace]; exact hi)]
    exact Array.getElem_mem _

/-- The numbers of a span are given by their places. -/
theorem spans_linspace (hn : 0 < n)
    (hfinite : ∀ i < n, (spaced start stop n i).isFinite = true)
    (hfirst : (spaced start stop n 0 == start) = true)
    (hsorted : ∀ i i', i ≤ i' → i' < n → spaced start stop n i ≤ spaced start stop n i')
    (hinside : ∀ i < n, start ≤ spaced start stop n i ∧ spaced start stop n i ≤ stop) :
    Spans start stop n (linspace start stop n) := by
  refine ⟨size_linspace .., fun x hx => ?_, ⟨_, getElem?_linspace hn, hfirst⟩, ?_,
    fun i i' h hi hi' => ?_, fun x hx => ?_⟩
  · obtain ⟨i, hi, rfl⟩ := mem_linspace_iff.1 hx
    exact hfinite i hi
  · rw [getElem?_linspace (by omega), spaced_last_of_pos hn]
  · rw [size_linspace] at hi'
    rw [getElem_linspace, getElem_linspace]
    exact hsorted i i' h hi'
  · obtain ⟨i, hi, rfl⟩ := mem_linspace_iff.1 hx
    exact hinside i hi

/-- Evenly spaced numbers span what they should if the last but one is where it should be. -/
theorem spans_of_penultimate (hstart : start.isFinite = true) (hstop : stop.isFinite = true)
    (h : start < stop) (hn : 2 ≤ n) (hge : start ≤ spaced start stop n (n - 2))
    (hle : spaced start stop n (n - 2) ≤ stop) : Spans start stop n (linspace start stop n) := by
  have hfinite := isFinite_of_le_of_le hstart hstop hge hle
  have hstart' := magnitudeBits_le_of_isFinite hstart
  have hstop' := magnitudeBits_le_of_isFinite hstop
  rw [le_iff_rank (magnitudeBits_le_of_isFinite hfinite) hstop'] at hle
  have hfirst := (rank_spaced_mono hstart hstop h hn (by omega) hfinite).1
  have hrank {i i' : ℕ} := @rank_spaced_mono_of_le _ _ _ hstart hstop h hn hfinite hle i i'
  have hinside (i : ℕ) (hi : i < n) :
      rank start ≤ rank (spaced start stop n i) ∧ rank (spaced start stop n i) ≤ rank stop := by
    have hge := hrank (Nat.zero_le i) hi
    have hle := hrank (by omega : i ≤ n - 1) (by omega)
    rw [hfirst] at hge
    rw [spaced_last_of_pos (by omega)] at hle
    exact ⟨hge, hle⟩
  -- finite ends leave nothing but finite numbers between them, and these compare as their ranks
  have hfinite' (i : ℕ) (hi : i < n) : (spaced start stop n i).isFinite = true := by
    have hi' := hinside i hi
    rw [isFinite_iff_rank] at hstart hstop ⊢
    omega
  have hbits (i : ℕ) (hi : i < n) := magnitudeBits_le_of_isFinite (hfinite' i hi)
  refine spans_linspace (by omega) hfinite' ?_ (fun i i' h h' => ?_) (fun i hi => ⟨?_, ?_⟩)
  · exact (beq_iff_rank (hbits 0 (by omega)) hstart').2 hfirst
  · exact (le_iff_rank (hbits i (by omega)) (hbits i' h')).2 (hrank h h')
  · exact (le_iff_rank hstart' (hbits i hi)).2 (hinside i hi).1
  · exact (le_iff_rank (hbits i hi) hstop').2 (hinside i hi).2

/-! ### Rounding errors -/

/-- The errors of the extent `W`, of the spacing `S` and of the last offset but one `P` do not add
    up to a spacing, unless there are too many numbers for the extent. -/
theorem penultimate_bound {N D W y S η : ℚ} (hη : 0 < η) (hN : 1 ≤ N) (hN' : N ≤ 2 ^ 50)
    (hy : N * y = W) (hwide : 8 * N * η ≤ y) (hW : |W - D| ≤ D / 2 ^ 53 + η)
    (hS : |S - y| ≤ y / 2 ^ 53 + η) :
    0 < S ∧ (N - 1) * S ≤ W ∧
      ∀ P, |P - (N - 1) * S| ≤ (N - 1) * S / 2 ^ 53 + η → P ≤ D := by
  rw [abs_le] at hW hS
  have hη' : 8 * η ≤ y := by nlinarith
  have hlarge : W ≤ 2 ^ 50 * y := by
    rw [← hy]
    exact mul_le_mul_of_nonneg_right hN' (by linarith)
  have hNS : N * S ≤ N * (y + y / 2 ^ 53 + η) := mul_le_mul_of_nonneg_left (by linarith) (by linarith)
  have hsum : N * (y + y / 2 ^ 53 + η) = W + W / 2 ^ 53 + N * η := by rw [← hy]; ring
  rw [hsum] at hNS
  have hq : (N - 1) * S = N * S - S := by ring
  rw [hq]
  refine ⟨by linarith, by linarith, fun P hP => ?_⟩
  rw [abs_le] at hP
  linarith

/-- The last offset but one is not negative and not above the distance, if that is at least the
    square of the number of parts times four of the least units. -/
theorem penultimate_offset (hstart : start.isFinite = true) (hstop : stop.isFinite = true)
    (h : start < stop) {k : ℕ} (hsmall : k + 1 ≤ 2 ^ 50) (hextent : (stop - start).isFinite = true)
    (hwide : 8 * ((k + 1 : ℕ) : ℚ) ^ 2 * leastError ≤ exactValue (stop - start)) :
    (offset start stop (k + 2) k).isFinite = true ∧ 0 ≤ exactValue (offset start stop (k + 2) k) ∧
      exactValue (offset start stop (k + 2) k) ≤ exactValue stop - exactValue start := by
  have hη := leastError_pos
  have hN : (1 : ℚ) ≤ (k + 1 : ℕ) := by exact_mod_cast (by omega : 1 ≤ k + 1)
  have hN' : ((k + 1 : ℕ) : ℚ) ≤ 2 ^ 50 := by exact_mod_cast hsmall
  have hW0 : 0 ≤ exactValue (stop - start) := le_trans (by positivity) hwide
  have hW := exactValue_error hextent (rank_sub hstop hstart) (exactValue_sub_nonneg hstart hstop h)
  have hy : ((k + 1 : ℕ) : ℚ) * (exactValue (stop - start) / (k + 1 : ℕ)) =
      exactValue (stop - start) := mul_div_cancel₀ _ (by linarith)
  have hspread : 8 * ((k + 1 : ℕ) : ℚ) * leastError ≤ exactValue (stop - start) / (k + 1 : ℕ) := by
    rw [le_div_iff₀ (by linarith)]
    linarith
  -- the spacing is a number of its own
  obtain ⟨hparts, hpartsValue⟩ := exactValue_ofNat (by omega : k + 1 < 2 ^ 53)
  have hspacingRank := rank_div hextent hparts (by rw [hpartsValue]; linarith)
  rw [hpartsValue] at hspacingRank
  obtain ⟨hspacing, _, hS⟩ := exactValue_error_of_le hspacingRank (by positivity) hextent
    (div_le_self hW0 hN)
  obtain ⟨hS0, hle, hP⟩ := penultimate_bound hη hN hN' hy hspread hW hS
  have hnonzero : ¬ ((stop - start) / Float.ofNat (k + 1) == 0.0) = true := by
    rw [beq_iff_rank (magnitudeBits_le_of_isFinite hspacing) (by decide)]
    intro hzero
    rw [exactValue_of_rank_zero (hzero.trans (by decide))] at hS0
    exact lt_irrefl _ hS0
  have hoffset : offset start stop (k + 2) k =
      Float.ofNat k * ((stop - start) / Float.ofNat (k + 1)) := if_neg hnonzero
  -- the product is off by less than what is left to the end
  obtain ⟨hk, hkValue⟩ := exactValue_ofNat (by omega : k < 2 ^ 53)
  have hoffsetRank := rank_mul hk hspacing
  have hkN : (k : ℚ) = (k + 1 : ℕ) - 1 := by push_cast; ring
  rw [hkValue, hkN, ← hoffset] at hoffsetRank
  obtain ⟨hfinite, h0, herror⟩ := exactValue_error_of_le hoffsetRank
    (mul_nonneg (by linarith) hS0.le) hextent hle
  exact ⟨hfinite, (exactValue_nonneg_iff _).2 h0, hP _ herror⟩

/-- With few enough points over a wide enough extent, the last point but one is between the bounds.
    -/
theorem spaced_penultimate_inside (hstart : start.isFinite = true) (hstop : stop.isFinite = true)
    (h : start < stop) (hn : 2 ≤ n) (hsmall : n ≤ 2 ^ 50)
    (hextent : (stop - start).isFinite = true)
    (hwide : (n : ℚ) ^ 2 * 2 ^ (-1072 : ℤ) ≤ exactValue (stop - start)) :
    start ≤ spaced start stop n (n - 2) ∧ spaced start stop n (n - 2) ≤ stop := by
  obtain ⟨k, rfl⟩ : ∃ k, n = k + 2 := ⟨n - 2, by omega⟩
  -- the hypothesis in units of half of the smallest positive number
  have hη8 : (2 : ℚ) ^ (-1072 : ℤ) = 8 * leastError := by
    unfold leastError
    rw [show (-1072 : ℤ) = 3 + -1075 from rfl, zpow_add₀ (by norm_num)]
    norm_num
  -- one row less is asked for
  have hspread : 8 * ((k + 1 : ℕ) : ℚ) ^ 2 * leastError ≤ exactValue (stop - start) := by
    have hη := leastError_pos
    have hsquare : ((k + 1 : ℕ) : ℚ) ^ 2 ≤ ((k + 2 : ℕ) : ℚ) ^ 2 := by
      exact_mod_cast Nat.pow_le_pow_left (by omega : k + 1 ≤ k + 2) 2
    rw [hη8] at hwide
    nlinarith
  obtain ⟨hfinite, h0, hle⟩ := penultimate_offset hstart hstop h (by omega) hextent hspread
  have hrank := rank_add hfinite hstart
  have hspaced : spaced start stop (k + 2) (k + 2 - 2) = offset start stop (k + 2) k + start :=
    spaced_of_ne (by omega)
  have hbits := magnitudeBits_le_of_rank hrank
  rw [hspaced, le_iff_rank (magnitudeBits_le_of_isFinite hstart) hbits,
    le_iff_rank hbits (magnitudeBits_le_of_isFinite hstop), hrank, ← roundedRank_exactValue hstart,
    ← roundedRank_exactValue hstop]
  exact ⟨roundedRank_mono (by linarith), roundedRank_mono (by linarith)⟩

end

/-! ## Lattices -/

/-- The coordinates of a lattice span its domain. -/
def Domain.LatticeSpans (d : Domain) (n : ℕ) : Prop :=
  Spans d.left d.right n (d.abscissae n) ∧ Spans d.lower d.upper n (d.ordinates n)

/-- In a row that spans its bounds, the last point but one is between them. -/
theorem Spans.penultimate_inside {start stop : Float} {n : ℕ} (hn : 2 ≤ n)
    (h : Spans start stop n (linspace start stop n)) :
    start ≤ spaced start stop n (n - 2) ∧ spaced start stop n (n - 2) ≤ stop := by
  have hlt : n - 2 < (linspace start stop n).size := by
    rw [size_linspace]
    omega
  have hinside := h.inside _ (Array.getElem_mem hlt)
  rw [getElem_linspace] at hinside
  exact hinside

namespace Domain

variable (d : Domain) {n : ℕ}

/-- A point is in the domain if both coordinates are between their bounds. -/
theorem contains_iff (x y : Float) :
    d.contains x y = true ↔ (d.left ≤ x ∧ x ≤ d.right) ∧ d.lower ≤ y ∧ y ≤ d.upper := by
  unfold contains
  simp only [Bool.and_eq_true, decide_eq_true_eq, and_assoc]

/-- The bounds of a domain make this domain. -/
theorem ofBounds_self (d : Domain) : ofBounds d.left d.right d.lower d.upper = .ok d := by
  unfold ofBounds
  rw [dif_pos d.finite, dif_pos d.left_lt_right, dif_pos d.lower_lt_upper]

/-- A lattice has as many abscissae and ordinates as asked for. They are finite, do not decrease,
    start and end at the bounds and stay between them if and only if the last point but one is in
    the domain, and only if its width and height are finite. For up to `2 ^ 50` rows, it is enough
    that these are finite and not below `n ^ 2` times `2 ^ -1072`. -/
theorem latticeSpans_iff (hn : leastRows ≤ n) :
    rowsOf (.integer n) = .ok n ∧
      (d.LatticeSpans n ↔
        d.contains (spaced d.left d.right n (n - 2)) (spaced d.lower d.upper n (n - 2)) = true) ∧
      (d.LatticeSpans n → d.width.isFinite = true ∧ d.height.isFinite = true) ∧
      (n ≤ 2 ^ 50 → d.width.isFinite = true → d.height.isFinite = true →
        (n : ℚ) ^ 2 * 2 ^ (-1072 : ℤ) ≤ exactValue d.width →
        (n : ℚ) ^ 2 * 2 ^ (-1072 : ℤ) ≤ exactValue d.height → d.LatticeSpans n) := by
  have hfinite := d.finite
  simp only [List.all_cons, List.all_nil, Bool.and_true, Bool.and_eq_true] at hfinite
  obtain ⟨hleft, hright, hlower, hupper⟩ := hfinite
  -- along each axis, the last point but one decides
  have hx := spans_of_penultimate hleft hright d.left_lt_right hn
  have hy := spans_of_penultimate hlower hupper d.lower_lt_upper hn
  refine ⟨rowsOf_natCast hn, ?_, fun h => ⟨isFinite_extent_of_linspace hn h.1.finite,
    isFinite_extent_of_linspace hn h.2.finite⟩, fun hsmall hwidth hheight hwide hhigh => ?_⟩
  · rw [contains_iff]
    exact ⟨fun h => ⟨h.1.penultimate_inside hn, h.2.penultimate_inside hn⟩,
      fun h => ⟨hx h.1.1 h.1.2, hy h.2.1 h.2.2⟩⟩
  · have hx' := spaced_penultimate_inside hleft hright d.left_lt_right hn hsmall hwidth hwide
    have hy' := spaced_penultimate_inside hlower hupper d.lower_lt_upper hn hsmall hheight hhigh
    exact ⟨hx hx'.1 hx'.2, hy hy'.1 hy'.2⟩

/-- Eleven rows over the square from `-1` to `1`. -/
theorem latticeSpans_unit :
    ∃ d, ofBounds (-1.0) 1.0 (-1.0) 1.0 = .ok d ∧ leastRows ≤ 11 ∧ d.width.isFinite = true ∧
      d.height.isFinite = true ∧
      ((11 : ℕ) : ℚ) ^ 2 * 2 ^ (-1072 : ℤ) ≤ exactValue d.width ∧
      ((11 : ℕ) : ℚ) ^ 2 * 2 ^ (-1072 : ℤ) ≤ exactValue d.height ∧ d.LatticeSpans 11 := by
  let d : Domain := ⟨-1.0, 1.0, -1.0, 1.0, by decide +kernel, by decide +kernel, by decide +kernel⟩
  -- the extent is two, exactly
  have hextent : exactValue ((1.0 : Float) - -1.0) = 2 := by
    have hrank : rank ((1.0 : Float) - -1.0) = (0x4000000000000000 : ℕ) := by decide +kernel
    have hfields : Binary.ofBits false 0x4000000000000000 = ⟨false, 2 ^ 52, -51⟩ := by
      decide +kernel
    rw [exactValue_of_rank hrank, hfields]
    unfold Binary.magnitude
    norm_num
  have hfinite : ((1.0 : Float) - -1.0).isFinite = true := by decide +kernel
  have hwide : ((11 : ℕ) : ℚ) ^ 2 * 2 ^ (-1072 : ℤ) ≤ exactValue ((1.0 : Float) - -1.0) := by
    rw [hextent]
    calc ((11 : ℕ) : ℚ) ^ 2 * 2 ^ (-1072 : ℤ)
        ≤ ((11 : ℕ) : ℚ) ^ 2 * 2 ^ (-6 : ℤ) := mul_le_mul_of_nonneg_left
          (zpow_le_zpow_right₀ (by norm_num) (by norm_num)) (by norm_num)
      _ ≤ 2 := by norm_num
  exact ⟨d, ofBounds_self d, by decide, hfinite, hfinite, hwide, hwide,
    (latticeSpans_iff d (by decide)).2.2.2 (by norm_num) hfinite hfinite hwide hwide⟩

/-- A lattice with an infinite width, and one with a spacing of a fraction of the least unit. -/
theorem not_latticeSpans_wide_fine :
    (∃ d, ofBounds (-1e308) 1e308 (-1.0) 1.0 = .ok d ∧ ¬ d.LatticeSpans 2) ∧
      ∃ d, ofBounds 0.0 1.5e-323 0.0 1.0 = .ok d ∧ d.width.isFinite = true ∧ ¬ d.LatticeSpans 6 := by
  constructor
  · let d : Domain :=
      ⟨-1e308, 1e308, -1.0, 1.0, by decide +kernel, by decide +kernel, by decide +kernel⟩
    refine ⟨d, ofBounds_self d, fun h => ?_⟩
    have hinside := h.1.penultimate_inside (by decide)
    exact absurd hinside.2 (by decide +kernel)
  · let d : Domain :=
      ⟨0.0, 1.5e-323, 0.0, 1.0, by decide +kernel, by decide +kernel, by decide +kernel⟩
    refine ⟨d, ofBounds_self d, by decide +kernel, fun h => ?_⟩
    have hinside := h.1.penultimate_inside (by decide)
    exact absurd hinside.2 (by decide +kernel)

end Domain

end DirectionField
