import DirectionField.Batch
import Mathlib.Data.List.Forall2

/-!
# Broadcasting

A shape fits a wider one if, counted from the last axis, every extent of it is that of the wider shape
or one. Shapes that fit a common shape can be broadcast against each other, their common shape fits it
too, and it does not matter whether an element is taken from a batch directly or by way of a shape in
between. The statements are proved of shapes written from the last axis to the first, which is how
axes are aligned, and then turned around.
-/

namespace DirectionField.Batch

/-! ## Shapes and indices from the last axis to the first -/

/-- Every extent is that of the wider shape or one; the first axes of the wider one may be
    missing. -/
inductive FitsReversed : List Nat → List Nat → Prop where
  | nil {s} : FitsReversed [] s
  | cons {m n t s} (h : m = n ∨ m = 1) (ht : FitsReversed t s) : FitsReversed (m :: t) (n :: s)

/-- The place along an axis of extent `n` from which an index takes its element. -/
def sourceAlong (n i : Nat) : Nat := if n = 1 then 0 else i

namespace FitsReversed

/-- A shape fits itself. -/
theorem refl (s : List Nat) : FitsReversed s s := by
  induction s with
  | nil => exact .nil
  | cons n s ih => exact .cons (.inl rfl) ih

/-- What fits a shape fits whatever that one fits. -/
theorem trans {a b c : List Nat} (hab : FitsReversed a b) (hbc : FitsReversed b c) :
    FitsReversed a c := by
  induction hab generalizing c with
  | nil => exact .nil
  | cons h _ ih =>
    cases hbc with
    | cons h' hbc =>
      refine .cons ?_ (ih hbc)
      rcases h with rfl | rfl
      · exact h'
      · exact .inr rfl

/-- A shape that fits has no more axes. -/
theorem length_le {t s : List Nat} (h : FitsReversed t s) : t.length ≤ s.length := by
  induction h with
  | nil => exact Nat.zero_le _
  | cons _ _ ih => simp only [List.length_cons]; omega

/-- Taking an element by way of a shape in between takes the same element. -/
theorem zipWith_zipWith {a c : List Nat} (h : FitsReversed a c) (index : List Nat) :
    a.zipWith sourceAlong (c.zipWith sourceAlong index) = a.zipWith sourceAlong index := by
  induction h generalizing index with
  | nil => rfl
  | @cons m n t s hm _ ih =>
    cases index with
    | nil => rfl
    | cons i index =>
      rw [List.zipWith_cons_cons, List.zipWith_cons_cons, List.zipWith_cons_cons, ih index]
      -- an axis that is kept here has the same extent in between
      have hi : sourceAlong m (sourceAlong n i) = sourceAlong m i := by
        unfold sourceAlong
        by_cases h1 : m = 1
        · rw [if_pos h1, if_pos h1]
        · rw [if_neg h1, if_neg h1, if_neg (by omega)]
      rw [hi]

/-- Inside a shape, an index is sent inside every shape that fits it. -/
theorem zipWith_lt {c s index : List Nat} (h : FitsReversed c s)
    (hi : List.Forall₂ (· < ·) index s) :
    List.Forall₂ (· < ·) (c.zipWith sourceAlong index) c := by
  induction h generalizing index with
  | nil => exact .nil
  | @cons m n t s hm _ ih =>
    cases hi with
    | @cons i _ index _ hlt hi =>
      refine .cons ?_ (ih hi)
      unfold sourceAlong
      by_cases h1 : m = 1
      · rw [if_pos h1]; omega
      · rw [if_neg h1]; omega

end FitsReversed

/-- Along axes of the same extents, an index stays what it is. -/
theorem zipWith_sourceAlong_self {s index : List Nat} (hi : List.Forall₂ (· < ·) index s) :
    s.zipWith sourceAlong index = index := by
  induction hi with
  | nil => rfl
  | @cons i n index s hlt _ ih =>
    have hin : sourceAlong n i = i := by
      -- zero is the only index along an axis of extent one
      unfold sourceAlong
      by_cases h1 : n = 1
      · rw [if_pos h1]; omega
      · rw [if_neg h1]
    rw [List.zipWith_cons_cons, ih, hin]

/-- Both shapes fit their common shape. -/
theorem fitsReversed_of_alignReversed {s t c : List Nat} (h : alignReversed s t = some c) :
    FitsReversed s c ∧ FitsReversed t c := by
  -- axis by axis, from the last one; where one shape ends, the common one is the other
  induction s generalizing t c with
  | nil =>
    obtain rfl : t = c := by simpa [alignReversed] using h
    exact ⟨.nil, .refl t⟩
  | cons m s ih =>
    cases t with
    | nil =>
      obtain rfl : m :: s = c := by simpa [alignReversed] using h
      exact ⟨.refl _, .nil⟩
    | cons n t =>
      unfold alignReversed at h
      by_cases h1 : m = n ∨ n = 1
      · rw [if_pos h1] at h
        obtain ⟨c', hc, rfl⟩ := Option.map_eq_some_iff.1 h
        obtain ⟨hs, ht⟩ := ih hc
        exact ⟨.cons (.inl rfl) hs, .cons (h1.imp_left Eq.symm) ht⟩
      · rw [if_neg h1] at h
        -- the first extent is not kept, so it has to be one
        by_cases h2 : m = 1
        · rw [if_pos h2] at h
          obtain ⟨c', hc, rfl⟩ := Option.map_eq_some_iff.1 h
          obtain ⟨hs, ht⟩ := ih hc
          exact ⟨.cons (.inr h2) hs, .cons (.inl rfl) ht⟩
        · rw [if_neg h2] at h
          cases h

/-- Two shapes that fit a third can be aligned, and what they have in common fits it. -/
theorem FitsReversed.exists_alignReversed {a b s : List Nat} (ha : FitsReversed a s)
    (hb : FitsReversed b s) : ∃ c, alignReversed a b = some c ∧ FitsReversed c s := by
  induction ha generalizing b with
  | nil => exact ⟨b, by simp [alignReversed], hb⟩
  | @cons m n t s hm ht ih =>
    cases hb with
    | nil => exact ⟨m :: t, rfl, .cons hm ht⟩
    | @cons k _ u _ hk hu =>
      obtain ⟨c, hc, hcs⟩ := ih hu
      by_cases h1 : m = k ∨ k = 1
      · exact ⟨m :: c, by rw [alignReversed, if_pos h1, hc]; rfl, .cons hm hcs⟩
      · -- extents that differ from each other are both that of the third shape or one
        have h2 : m = 1 := by omega
        exact ⟨k :: c, by rw [alignReversed, if_neg h1, if_pos h2, hc]; rfl, .cons hk hcs⟩

/-- With a shape that it fits, a shape has that one in common. -/
theorem FitsReversed.alignReversed_eq {t s : List Nat} (h : FitsReversed t s) :
    alignReversed t s = some s := by
  induction h with
  | nil => simp [alignReversed]
  | @cons m n t s hm _ ih =>
    unfold alignReversed
    by_cases h1 : m = n ∨ n = 1
    · -- an extent of one in the wider shape leaves only one for the other
      obtain rfl : m = n := by omega
      rw [if_pos h1, ih]; rfl
    · rw [if_neg h1, if_pos (by omega), ih]; rfl

/-! ## Shapes and indices -/

/-- Every extent, counted from the last axis, is that of the wider shape or one. -/
def Fits (t s : List Nat) : Prop := FitsReversed t.reverse s.reverse

/-- The index belongs to an element of a batch with the given shape. -/
def Inside (index shape : List Nat) : Prop := List.Forall₂ (· < ·) index shape

/-- A single value fits every shape. -/
theorem Fits.nil (s : List Nat) : Fits [] s := FitsReversed.nil

/-- A shape fits itself. -/
theorem Fits.refl (s : List Nat) : Fits s s := FitsReversed.refl _

/-- What fits a shape fits whatever that one fits. -/
theorem Fits.trans {a b c : List Nat} (hab : Fits a b) (hbc : Fits b c) : Fits a c :=
  FitsReversed.trans hab hbc

/-- The source of an index is found axis by axis, from the last one on. -/
theorem source_eq_reverse {shape index : List Nat} (h : shape.length ≤ index.length) :
    source shape index = (shape.reverse.zipWith sourceAlong index.reverse).reverse := by
  have hlen : (index.drop (index.length - shape.length)).length = shape.length := by
    rw [List.length_drop]; omega
  have htake : (index.drop (index.length - shape.length)).reverse =
      index.reverse.take shape.length := by
    rw [List.reverse_drop]
    congr 1
    omega
  -- `zipWith` stops with the shape, so the axes that are dropped in front do not matter
  have hzip : shape.reverse.zipWith sourceAlong (index.reverse.take shape.length) =
      shape.reverse.zipWith sourceAlong index.reverse := by
    have hself : shape.reverse.take shape.length = shape.reverse :=
      List.take_of_length_le (Nat.le_of_eq List.length_reverse)
    conv_rhs => rw [List.zipWith_eq_zipWith_take_min]
    rw [List.length_reverse, List.length_reverse, Nat.min_eq_left h, hself]
  rw [← hzip, ← htake, ← List.reverse_zipWith hlen.symm, List.reverse_reverse]
  rfl

/-- An index of a shape has an entry for each axis of a shape that fits it. -/
theorem Fits.length_le_of_inside {t s index : List Nat} (h : Fits t s) (hi : Inside index s) :
    t.length ≤ index.length := by
  have hle := h.length_le
  have hlen := hi.length_eq
  simp only [List.length_reverse] at hle
  omega

/-- The source of an index inside a shape is inside the shape it is taken from. -/
theorem Fits.inside_source {t s index : List Nat} (h : Fits t s) (hi : Inside index s) :
    Inside (source t index) t := by
  have hlt := FitsReversed.zipWith_lt h (List.forall₂_reverse_iff.2 hi)
  rw [source_eq_reverse (h.length_le_of_inside hi)]
  have := List.forall₂_reverse_iff.2 hlt
  rwa [List.reverse_reverse] at this

/-- An element is taken from the same place by way of a shape in between. -/
theorem source_source {a c s index : List Nat} (hac : Fits a c) (hcs : Fits c s)
    (hi : Inside index s) : source a (source c index) = source a index := by
  have ha := (hac.trans hcs).length_le_of_inside hi
  have hc := hcs.length_le_of_inside hi
  have hac' := hac.length_le_of_inside (hcs.inside_source hi)
  rw [source_eq_reverse hac', source_eq_reverse hc, source_eq_reverse ha, List.reverse_reverse,
    FitsReversed.zipWith_zipWith hac]

/-- In a shape itself, the source of an index is the index. -/
theorem source_self {s index : List Nat} (hi : Inside index s) : source s index = index := by
  rw [source_eq_reverse (Nat.le_of_eq hi.length_eq.symm),
    zipWith_sourceAlong_self (List.forall₂_reverse_iff.2 hi), List.reverse_reverse]

/-- Both shapes fit their common shape. -/
theorem fits_of_commonShape? {s t c : List Nat} (h : commonShape? s t = some c) :
    Fits s c ∧ Fits t c := by
  obtain ⟨c', hc, rfl⟩ := Option.map_eq_some_iff.1 h
  unfold Fits
  rw [List.reverse_reverse]
  exact fitsReversed_of_alignReversed hc

/-- Two shapes that fit a third have a common shape, which fits it too. -/
theorem Fits.exists_commonShape? {a b s : List Nat} (ha : Fits a s) (hb : Fits b s) :
    ∃ c, commonShape? a b = some c ∧ Fits c s := by
  obtain ⟨c, hc, hcs⟩ := FitsReversed.exists_alignReversed ha hb
  refine ⟨c.reverse, by rw [commonShape?, hc]; rfl, ?_⟩
  unfold Fits
  rwa [List.reverse_reverse]

/-- With a shape that it fits, a shape has that one in common. -/
theorem Fits.commonShape?_eq {t s : List Nat} (h : Fits t s) : commonShape? t s = some s := by
  rw [commonShape?, FitsReversed.alignReversed_eq h, Option.map_some, List.reverse_reverse]

/-- With a single value, a shape has itself in common. -/
theorem commonShape?_nil (s : List Nat) : commonShape? s [] = some s := by
  unfold commonShape?
  cases h : s.reverse with
  | nil => rw [List.reverse_eq_nil_iff.1 h]; rfl
  | cons n t =>
    show some (n :: t).reverse = some s
    rw [← h, List.reverse_reverse]

/-- The shape to which any number of shapes broadcast. -/
def commonShapes? : List (List Nat) → Option (List Nat)
  | [] => some []
  | t :: ts => (commonShapes? ts).bind (commonShape? t)

/-- Shapes that fit another have a common shape: all fit it, and it fits the other. -/
theorem exists_commonShapes? {ts : List (List Nat)} {s : List Nat} (h : ∀ t ∈ ts, Fits t s) :
    ∃ c, commonShapes? ts = some c ∧ (∀ t ∈ ts, Fits t c) ∧ Fits c s := by
  induction ts with
  | nil => exact ⟨[], rfl, fun _ ht => (nomatch ht), .nil s⟩
  | cons t ts ih =>
    obtain ⟨c, hc, hts, hcs⟩ := ih fun u hu => h u (List.mem_cons_of_mem _ hu)
    obtain ⟨c', hc', hcs'⟩ := (h t List.mem_cons_self).exists_commonShape? hcs
    obtain ⟨htc, hcc⟩ := fits_of_commonShape? hc'
    refine ⟨c', by rw [commonShapes?, hc]; exact hc', ?_, hcs'⟩
    intro u hu
    rcases List.mem_cons.1 hu with rfl | hu
    · exact htc
    · exact (hts u hu).trans hcc

/-! ## Elements -/

variable {α β γ : Type}

/-- The element at an index may be found by way of a shape in between. -/
theorem pick_source {b : Batch α} {c s index : List Nat} (hb : Fits b.shape c) (hc : Fits c s)
    (hi : Inside index s) : b.pick (source c index) = b.pick index := by
  unfold pick
  rw [source_source hb hc hi]

/-- Without broadcasting, the element at an index is that of the batch. -/
theorem pick_of_inside {b : Batch α} {index : List Nat} (hi : Inside index b.shape) :
    b.pick index = b.get index := by
  unfold pick
  rw [source_self hi]

/-- Combining two batches that fit a shape combines the elements at each index of that shape. -/
theorem exists_zipWith? (f : α → β → γ) {a : Batch α} {b : Batch β} {s : List Nat}
    (ha : Fits a.shape s) (hb : Fits b.shape s) :
    ∃ c, zipWith? f a b = some c ∧ Fits c.shape s ∧
      ∀ index, Inside index s → c.pick index = f (a.pick index) (b.pick index) := by
  obtain ⟨shape, hshape, hs⟩ := ha.exists_commonShape? hb
  obtain ⟨has, hbs⟩ := fits_of_commonShape? hshape
  refine ⟨⟨shape, fun i => f (a.pick i) (b.pick i)⟩, by rw [zipWith?, hshape]; rfl, hs, ?_⟩
  intro index hi
  show f (a.pick (source shape index)) (b.pick (source shape index)) = _
  rw [pick_source has hs hi, pick_source hbs hs hi]

end DirectionField.Batch
