import DirectionField.Proofs.CompileFailure
import DirectionField.Proofs.Elementwise
import DirectionField.Proofs.TreeSize

/-!
# Evaluation over arrays of any shapes

Two shapes are broadcast by the extents of their axes, counted from the last one: where an axis is
missing it is one of extent one, and extents that differ are one on either side
(`Batch.commonShape?_eq_some_iff`). Over arrays with a common shape an equation of the standard
vocabulary has the slopes of the points at every index of that shape, and over other arrays it fails
(`Equation.evaluate_eq_pointwise`).
-/

namespace DirectionField

/-! ## The rule of broadcasting -/

namespace Batch

/-- The extent of an axis, counted from the last one. -/
def extent (shape : List Nat) (k : Nat) : Nat := shape.reverse.getD k 1

/-- Two extents are joined to a third one. -/
def Joins (m n k : Nat) : Prop := (k = m ∧ (n = m ∨ n = 1)) ∨ (m = 1 ∧ k = n)

/-- An extent of one, or a missing axis, is joined to whatever the other extent is. -/
theorem joins_one_left_iff (n k : Nat) : Joins 1 n k ↔ k = n := by
  unfold Joins
  omega

/-- The same with the missing axis on the right. -/
theorem joins_one_right_iff (m k : Nat) : Joins m 1 k ↔ k = m := by
  unfold Joins
  omega

/-- Extents determine a shape with a known number of axes. -/
theorem eq_iff_getD (s c : List Nat) :
    s = c ↔ c.length = s.length ∧ ∀ k, c.getD k 1 = s.getD k 1 := by
  constructor
  · rintro rfl
    exact ⟨rfl, fun _ => rfl⟩
  · rintro ⟨hlen, h⟩
    refine List.ext_getElem hlen.symm fun k hs hc => ?_
    have hk := h k
    rw [List.getD_eq_getElem?_getD, List.getD_eq_getElem?_getD, List.getElem?_eq_getElem hs,
      List.getElem?_eq_getElem hc] at hk
    exact hk.symm

/-- The last axes of two shapes are joined, and then the others. -/
theorem alignReversed_cons_eq_some_iff (m n : Nat) (s t c : List Nat) :
    alignReversed (m :: s) (n :: t) = some c ↔
      ∃ p c', c = p :: c' ∧ Joins m n p ∧ alignReversed s t = some c' := by
  rw [alignReversed]
  unfold Joins
  -- the three cases of the definition: the first extent stays, the second one does, or none
  by_cases h1 : m = n ∨ n = 1
  · rw [if_pos h1, Option.map_eq_some_iff]
    constructor
    · rintro ⟨c', hc, rfl⟩
      exact ⟨m, c', rfl, by omega, hc⟩
    · rintro ⟨p, c', rfl, hp, hc⟩
      obtain rfl : p = m := by omega
      exact ⟨c', hc, rfl⟩
  · rw [if_neg h1]
    by_cases h2 : m = 1
    · rw [if_pos h2, Option.map_eq_some_iff]
      constructor
      · rintro ⟨c', hc, rfl⟩
        exact ⟨n, c', rfl, by omega, hc⟩
      · rintro ⟨p, c', rfl, hp, hc⟩
        obtain rfl : p = n := by omega
        exact ⟨c', hc, rfl⟩
    · rw [if_neg h2]
      refine iff_of_false (fun h => Option.some_ne_none c h.symm) ?_
      rintro ⟨p, c', _, hp, _⟩
      omega

/-- Joined from the last axis on, two shapes have the axes of the longer one. -/
theorem alignReversed_eq_some_iff (s t c : List Nat) : alignReversed s t = some c ↔
    c.length = max s.length t.length ∧ ∀ k, Joins (s.getD k 1) (t.getD k 1) (c.getD k 1) := by
  -- axis by axis; where one of the shapes ends, the other one is taken over
  induction s generalizing t c with
  | nil =>
    simp only [alignReversed, Option.some.injEq, List.getD_nil, joins_one_left_iff, List.length_nil,
      Nat.zero_max]
    exact eq_iff_getD t c
  | cons m s ih =>
    cases t with
    | nil =>
      simp only [alignReversed, Option.some.injEq, List.getD_nil, joins_one_right_iff,
        List.length_nil, Nat.max_zero]
      exact eq_iff_getD (m :: s) c
    | cons n t =>
      rw [alignReversed_cons_eq_some_iff]
      cases c with
      | nil => simp
      | cons p c =>
        constructor
        · rintro ⟨p', c', hc, hp, halign⟩
          cases hc
          obtain ⟨hlen, hjoins⟩ := (ih t c).1 halign
          refine ⟨by simp only [List.length_cons]; omega, fun k => ?_⟩
          cases k with
          | zero => exact hp
          | succ k => exact hjoins k
        · rintro ⟨hlen, hjoins⟩
          simp only [List.length_cons] at hlen
          exact ⟨p, c, rfl, hjoins 0, (ih t c).2 ⟨by omega, fun k => hjoins (k + 1)⟩⟩

/-- The common shape has the axes of both shapes, and each extent is that of one of the two where
    the other has the same or one. -/
theorem commonShape?_eq_some_iff (s t c : List Nat) : commonShape? s t = some c ↔
    c.length = max s.length t.length ∧ ∀ k, Joins (extent s k) (extent t k) (extent c k) := by
  have hsome : commonShape? s t = some c ↔ alignReversed s.reverse t.reverse = some c.reverse := by
    unfold commonShape?
    rw [Option.map_eq_some_iff]
    constructor
    · rintro ⟨c', hc, rfl⟩
      rw [hc, List.reverse_reverse]
    · intro hc
      exact ⟨c.reverse, hc, List.reverse_reverse c⟩
  rw [hsome, alignReversed_eq_some_iff, List.length_reverse, List.length_reverse,
    List.length_reverse]
  rfl

end Batch

/-! ## Equations -/

namespace Equation

/-- Evaluation over arrays never asks the standard vocabulary for a call that it does not offer. -/
theorem evaluate_ne_unresolved {lib : Elementary} {tree : Expr}
    (htree : tree.Formed (Vocabulary.standard lib).signature) {text : String} (x y : Batch Float)
    (name : String) (given : Nat) :
    evaluate ⟨text, tree, Vocabulary.standard lib⟩ x y ≠ .error (.unresolved name given) := by
  intro h
  unfold evaluate at h
  split at h
  · cases h
  · rcases (Except.bind_eq_error_iff _ _ _).1 h with h | ⟨value, _, h⟩
    · obtain ⟨entry, hmem, args, h⟩ := Expr.signalled_of_eval_eq_unresolved htree h
      rcases Vocabulary.standard_refusesMisfits lib entry hmem args _ h with ⟨_, h⟩ | ⟨_, _, h⟩
      · cases h
      · cases h
    · -- what is made of the value fails in other ways
      cases value with
      | complex b => cases h
      | real b =>
        dsimp only at h
        split at h <;> cases h

/-- An equation of the standard vocabulary, evaluated over two arrays, has at every index of their
    common shape the slope at the elements that broadcasting places there. Without a common shape
    there is a bad value. -/
theorem evaluate_eq_pointwise {lib : Elementary} {text : String} {eq : Equation}
    (h : compile (Vocabulary.standard lib) text = .ok eq) (x y : Batch Float) :
    (∀ shape, Batch.commonShape? x.shape y.shape = some shape →
      ∃ b, eq.evaluate x y = .ok b ∧ b.shape = shape ∧ ∀ index, Batch.Inside index shape →
        eq.slope (x.pick index) (y.pick index) = .ok (b.get index)) ∧
    (Batch.commonShape? x.shape y.shape = none →
      ∃ fault, eq.evaluate x y = .error fault ∧ fault.kind = .value) := by
  obtain ⟨hparse, _, _, heq⟩ := compile_eq_ok_iff.1 h
  have hformed := Expr.formed_of_parse hparse
  generalize eq.tree = tree at heq hformed
  subst heq
  refine ⟨fun shape hshape => ?_, fun hnone => ?_⟩
  · -- the only fault that the vocabulary leaves open is a call that it does not offer
    have hmeets : Meets _ (fun fault => ∃ name given, fault = .unresolved name given)
        (evaluate ⟨text, tree, Vocabulary.standard lib⟩ x y) :=
      meets_evaluate (Vocabulary.standard_elementwiseUpTo lib _)
        (fun name given => ⟨name, given, rfl⟩) hshape
    cases hb : evaluate ⟨text, tree, Vocabulary.standard lib⟩ x y with
    | ok b =>
      rw [hb] at hmeets
      exact ⟨b, rfl, hmeets⟩
    | error fault =>
      rw [hb] at hmeets
      obtain ⟨name, given, rfl⟩ := hmeets
      exact absurd hb (evaluate_ne_unresolved hformed x y name given)
  · unfold evaluate
    rw [hnone]
    exact ⟨_, rfl, rfl⟩

/-- An equation without one of the coordinates, over a column and a row, and over two rows that do
    not fit together. -/
theorem evaluate_eq_pointwise_column_row :
    ∃ eq, compile (Vocabulary.standard Elementary.native) "sin(x) / 2" = .ok eq ∧
      ∀ f g : List Nat → Float,
        (∃ b, eq.evaluate ⟨[2, 1], f⟩ ⟨[3], g⟩ = .ok b ∧ b.shape = [2, 3] ∧
          ∀ i < 2, ∀ j < 3, eq.slope (f [i, 0]) (g [j]) = .ok (b.get [i, j])) ∧
        ∃ fault, eq.evaluate ⟨[2], f⟩ ⟨[3], g⟩ = .error fault ∧ fault.kind = .value := by
  have hok : (compile (Vocabulary.standard Elementary.native) "sin(x) / 2").isOk = true := by
    decide +kernel
  cases h : compile (Vocabulary.standard Elementary.native) "sin(x) / 2" with
  | error failure =>
    rw [h] at hok
    cases hok
  | ok eq =>
    have hfit : Batch.commonShape? [2, 1] [3] = some [2, 3] := by decide
    have hmisfit : Batch.commonShape? [2] [3] = none := by decide
    refine ⟨eq, rfl, fun f g => ⟨?_, (evaluate_eq_pointwise h ⟨[2], f⟩ ⟨[3], g⟩).2 hmisfit⟩⟩
    obtain ⟨b, hb, hshape, hvalue⟩ := (evaluate_eq_pointwise h ⟨[2, 1], f⟩ ⟨[3], g⟩).1 _ hfit
    exact ⟨b, hb, hshape, fun i hi j hj => hvalue [i, j] (.cons hi (.cons hj .nil))⟩

end Equation

end DirectionField
