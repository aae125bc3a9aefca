import DirectionField.Proofs.Broadcast
import DirectionField.Proofs.PointValue

/-!
# Evaluation over a lattice is evaluation at its points

An implementation is elementwise if on batches it either signals one of some faults or does at every
index what it does on the numbers there. Over a vocabulary of such implementations an expression is
elementwise too (`Expr.tabulates_eval`): over coordinate batches it has the numbers of the points or one
of the faults, which says nothing about any single point. The faults are a parameter, because sampling
allows for every local fault (`Vocabulary.IsElementwise`), while the standard vocabulary has none as
long as the shapes fit (`Vocabulary.standard_elementwiseUpTo`).
-/

namespace DirectionField

/-! ## Outcomes with local faults -/

/-- An outcome is a result with a property, or a fault that concerns a single slope only. -/
def Settles {α : Type} (p : α → Prop) : Except Fault α → Prop
  | .ok a => p a
  | .error fault => fault.isLocal = true

namespace Settles

variable {α β : Type} {p : α → Prop} {q : β → Prop}

/-- A sequence settles if its first step does, and so does what comes of it. -/
theorem bind {x : Except Fault α} {f : α → Except Fault β} (hx : Settles p x)
    (hf : ∀ a, p a → Settles q (f a)) : Settles q (x >>= f) := by
  cases x with
  | error fault => exact hx
  | ok a => exact hf a hx

/-- The property of the result may be weakened, also by what the result is. -/
theorem mono {x : Except Fault α} {p' : α → Prop} (hx : Settles p x)
    (h : ∀ a, p a → x = .ok a → p' a) : Settles p' x := by
  cases x with
  | error fault => exact hx
  | ok a => exact h a hx rfl

end Settles

/-- To settle is to meet a property, or else to come to a local fault. -/
theorem settles_iff_meets {α : Type} {p : α → Prop} {x : Except Fault α} :
    Settles p x ↔ Meets p (fun fault => fault.isLocal = true) x := by
  cases x <;> exact Iff.rfl

/-! ## Implementations -/

/-- Over the indices inside a shape, a batch has the results of a function for its elements. -/
structure Batch.Tabulates (shape : List Nat) (f : List Nat → Except Fault Value) (b : Batch Float) :
    Prop where
  fits : Fits b.shape shape
  value : ∀ index, Inside index shape → f index = .ok (.ofFloat (b.pick index))

/-- On numbers, the implementation gives a number or a local fault. -/
def Meaning.IsNumeric (m : Meaning) (arity : Nat) : Prop :=
  ∀ xs : List Float, xs.length = arity →
    Settles (fun v => ∃ r, v = .ofFloat r) (m (xs.map .ofFloat))

/-- Every implementation of the vocabulary gives a number or a local fault on numbers. -/
def Vocabulary.IsNumeric (v : Vocabulary Meaning) : Prop :=
  ∀ e ∈ v.entries, e.meaning.IsNumeric e.arity

/-- The faults of a numeric vocabulary are local. -/
theorem Vocabulary.IsNumeric.numericUpTo {v : Vocabulary Meaning} (hv : v.IsNumeric) :
    v.NumericUpTo fun fault => fault.isLocal = true :=
  fun e he xs hlen => settles_iff_meets.1 (hv e he xs hlen)

/-- On numbers, the implementation gives a number or a local fault; on batches, it gives the batch
    of its results for the numbers at each index, with the shape to which the batches are broadcast,
    or a local fault. -/
structure Meaning.IsElementwise (m : Meaning) (arity : Nat) : Prop where
  scalar : ∀ xs : List Float, xs.length = arity →
    Settles (fun v => ∃ r, v = .ofFloat r) (m (xs.map .ofFloat))
  batch : ∀ bs : List (Batch Float), bs.length = arity →
    Settles (fun v => ∃ b, v = .real b ∧ Batch.commonShapes? (bs.map Batch.shape) = some b.shape ∧
      ∀ index, Batch.Inside index b.shape →
        m (bs.map fun a => .ofFloat (a.pick index)) = .ok (.ofFloat (b.get index)))
      (m (bs.map .real))

/-- Every implementation of the vocabulary is elementwise. -/
def Vocabulary.IsElementwise (v : Vocabulary Meaning) : Prop :=
  ∀ e ∈ v.entries, e.meaning.IsElementwise e.arity

/-- What works element by element works on single numbers. -/
theorem Vocabulary.IsElementwise.isNumeric {v : Vocabulary Meaning} (hv : v.IsElementwise) :
    v.IsNumeric := fun e he => (hv e he).scalar

/-- On numbers, the implementation gives a number or one of the faults; on batches that can be
    broadcast against each other, it gives the batch of its results for the numbers at each index of
    their common shape, or one of the faults. -/
structure Meaning.ElementwiseUpTo (m : Meaning) (arity : Nat) (q : Fault → Prop) : Prop where
  scalar : ∀ xs : List Float, xs.length = arity → Meets Value.IsNumber q (m (xs.map .ofFloat))
  batch : ∀ bs : List (Batch Float), bs.length = arity →
    ∀ shape, Batch.commonShapes? (bs.map Batch.shape) = some shape →
      Meets (fun v => ∃ b, v = .real b ∧ b.shape = shape ∧ ∀ index, Batch.Inside index shape →
        m (bs.map fun a => .ofFloat (a.pick index)) = .ok (.ofFloat (b.get index))) q
        (m (bs.map .real))

/-- Every implementation of the vocabulary is elementwise, up to some faults. -/
def Vocabulary.ElementwiseUpTo (v : Vocabulary Meaning) (q : Fault → Prop) : Prop :=
  ∀ e ∈ v.entries, e.meaning.ElementwiseUpTo e.arity q

/-- The faults of an elementwise vocabulary are local. -/
theorem Vocabulary.IsElementwise.elementwiseUpTo {v : Vocabulary Meaning} (hv : v.IsElementwise) :
    v.ElementwiseUpTo fun fault => fault.isLocal = true := by
  intro e he
  refine ⟨hv.isNumeric.numericUpTo e he, fun bs hlen shape hshape => ?_⟩
  refine (settles_iff_meets.1 ((hv e he).batch bs hlen)).mono ?_
  rintro _ ⟨b, rfl, hb, hvalue⟩ _
  obtain rfl : b.shape = shape := Option.some.inj (hb.symm.trans hshape)
  exact ⟨b, rfl, rfl, hvalue⟩

namespace Vocabulary.ElementwiseUpTo

variable {v : Vocabulary Meaning} {q : Fault → Prop}

/-- What works element by element works on single numbers, up to the same faults. -/
theorem numericUpTo (hv : v.ElementwiseUpTo q) : v.NumericUpTo q := fun e he => (hv e he).scalar

/-- What a call finds works element by element. -/
theorem of_resolve? (hv : v.ElementwiseUpTo q) {name : String} {arity : Nat} {entry : Entry Meaning}
    (h : v.resolve? name arity = some entry) : entry.meaning.ElementwiseUpTo arity q := by
  obtain ⟨hmem, _, rfl⟩ := mem_of_resolve? h
  exact hv entry hmem

end Vocabulary.ElementwiseUpTo

/-- The results of an elementwise implementation on batches that fit a shape are tabulated over that
    shape. -/
theorem Meaning.ElementwiseUpTo.tabulates {m : Meaning} {arity : Nat} {q : Fault → Prop}
    (hm : m.ElementwiseUpTo arity q) {bs : List (Batch Float)} {shape : List Nat}
    (hlen : bs.length = arity) (hfits : ∀ b ∈ bs, Batch.Fits b.shape shape) :
    Meets (fun v => ∃ b, v = .real b ∧ Batch.Tabulates shape
      (fun index => m (bs.map fun a => .ofFloat (a.pick index))) b) q (m (bs.map .real)) := by
  have hfits' : ∀ t ∈ bs.map Batch.shape, Batch.Fits t shape := by
    intro t ht
    obtain ⟨a, ha, rfl⟩ := List.mem_map.1 ht
    exact hfits a ha
  obtain ⟨c, hc, hall, hcs⟩ := Batch.exists_commonShapes? hfits'
  refine (hm.batch bs hlen c hc).mono ?_
  rintro v ⟨b, rfl, rfl, hvalue⟩ _
  refine ⟨b, rfl, hcs, fun index hi => ?_⟩
  -- the index takes its element from a place inside the shape of the result
  have hin := hcs.inside_source hi
  have hargs : (bs.map fun a => Value.ofFloat (a.pick (Batch.source b.shape index))) =
      bs.map fun a => Value.ofFloat (a.pick index) := by
    refine List.map_congr_left fun a ha => ?_
    rw [Batch.pick_source (hall a.shape (List.mem_map_of_mem ha)) hcs hi]
  rw [← hargs, hvalue _ hin]
  rfl

/-! ## The standard vocabulary -/

namespace Meaning

variable (q : Fault → Prop)

/-- A function of one number is taken along all elements. -/
theorem ofUnary_elementwiseUpTo (f : Float → Float) : (ofUnary f).ElementwiseUpTo 1 q where
  scalar xs hlen := by
    obtain ⟨x, rfl⟩ := List.length_eq_one_iff.1 hlen
    exact ⟨f x, rfl⟩
  batch bs hlen shape hshape := by
    obtain ⟨b, rfl⟩ := List.length_eq_one_iff.1 hlen
    obtain rfl : b.shape = shape :=
      Option.some.inj ((Batch.commonShape?_nil b.shape).symm.trans hshape)
    refine ⟨b.map f, rfl, rfl, fun index hi => ?_⟩
    have hpick : b.pick index = b.get index := Batch.pick_of_inside hi
    show Except.ok (Value.ofFloat (f (b.pick index))) = _
    rw [hpick]
    rfl

/-- A function of two numbers is taken along the elements that broadcasting brings together. -/
theorem ofBinary_elementwiseUpTo (f : Float → Float → Float) :
    (ofBinary f).ElementwiseUpTo 2 q where
  scalar xs hlen := by
    obtain ⟨x, y, rfl⟩ := List.length_eq_two.1 hlen
    exact ⟨f x y, rfl⟩
  batch bs hlen shape hshape := by
    obtain ⟨a, b, rfl⟩ := List.length_eq_two.1 hlen
    have hab : Batch.commonShape? a.shape b.shape = some shape := by
      have h : (Batch.commonShape? b.shape []).bind (Batch.commonShape? a.shape) = some shape :=
        hshape
      rwa [Batch.commonShape?_nil] at h
    show Meets _ q ((Value.combine f a b).map Value.real)
    unfold Value.combine Batch.zipWith?
    rw [hab]
    exact ⟨⟨shape, fun i => f (a.pick i) (b.pick i)⟩, rfl, rfl, fun _ _ => rfl⟩

/-- On real numbers, the absolute value is a function like the others. -/
theorem abs_elementwiseUpTo : abs.ElementwiseUpTo 1 q where
  scalar xs hlen := by
    obtain ⟨x, rfl⟩ := List.length_eq_one_iff.1 hlen
    exact (ofUnary_elementwiseUpTo q Float.abs).scalar [x] rfl
  batch bs hlen := by
    obtain ⟨b, rfl⟩ := List.length_eq_one_iff.1 hlen
    -- the two differ on complex numbers only
    exact (ofUnary_elementwiseUpTo q Float.abs).batch [b] rfl

/-- A constant is the same at every element. -/
theorem constant_elementwiseUpTo (x : Float) : (constant x).ElementwiseUpTo 0 q where
  scalar xs hlen := by
    rw [List.length_eq_zero_iff.1 hlen]
    exact ⟨x, rfl⟩
  batch bs hlen shape hshape := by
    obtain rfl := List.length_eq_zero_iff.1 hlen
    exact ⟨.scalar x, rfl, Option.some.inj hshape, fun _ _ => rfl⟩

/-- An implementation is elementwise if it is on batches that fit together, and on others it signals
    a local fault. -/
theorem ElementwiseUpTo.isElementwise {m : Meaning} {arity : Nat}
    (hm : m.ElementwiseUpTo arity fun fault => fault.isLocal = true)
    (hno : ∀ bs : List (Batch Float), bs.length = arity →
      Batch.commonShapes? (bs.map Batch.shape) = none → Settles (fun _ => False) (m (bs.map .real))) :
    m.IsElementwise arity where
  scalar xs hlen := settles_iff_meets.2 (hm.scalar xs hlen)
  batch bs hlen := by
    cases h : Batch.commonShapes? (bs.map Batch.shape) with
    | none => exact (hno bs hlen h).mono fun _ hfalse _ => hfalse.elim
    | some shape =>
      refine (settles_iff_meets.2 (hm.batch bs hlen shape h)).mono ?_
      rintro _ ⟨b, rfl, rfl, hvalue⟩ _
      exact ⟨b, rfl, rfl, hvalue⟩

/-- Fewer than two batches fit together. -/
theorem ElementwiseUpTo.isElementwise_of_lt_two {m : Meaning} {arity : Nat}
    (hm : m.ElementwiseUpTo arity fun fault => fault.isLocal = true) (harity : arity < 2) :
    m.IsElementwise arity := by
  refine hm.isElementwise fun bs hlen hnone => ?_
  match bs with
  | [] => cases hnone
  | [b] =>
    have hsome : Batch.commonShapes? ([b].map Batch.shape) = some b.shape :=
      Batch.commonShape?_nil b.shape
    rw [hsome] at hnone
    cases hnone
  | _ :: _ :: _ =>
    simp only [List.length_cons] at hlen
    omega

/-- So a function of two numbers works element by element. -/
theorem ofBinary_isElementwise (f : Float → Float → Float) : (ofBinary f).IsElementwise 2 := by
  refine (ofBinary_elementwiseUpTo _ f).isElementwise fun bs hlen hnone => ?_
  obtain ⟨a, b, rfl⟩ := List.length_eq_two.1 hlen
  have hab : Batch.commonShape? a.shape b.shape = none := by
    have h : (Batch.commonShape? b.shape []).bind (Batch.commonShape? a.shape) = none := hnone
    rwa [Batch.commonShape?_nil] at h
  show Settles _ ((Value.combine f a b).map Value.real)
  unfold Value.combine Batch.zipWith?
  rw [hab]
  rfl

end Meaning

namespace Vocabulary

/-- Whatever the mathematics library, the standard vocabulary is elementwise without any fault as
    long as the shapes fit. -/
theorem standard_elementwiseUpTo (lib : Elementary) (q : Fault → Prop) :
    (standard lib).ElementwiseUpTo q :=
  forall_mem_standard lib (p := fun m arity => m.ElementwiseUpTo arity q)
    (Meaning.ofUnary_elementwiseUpTo q) (Meaning.ofBinary_elementwiseUpTo q)
    (Meaning.abs_elementwiseUpTo q) (Meaning.constant_elementwiseUpTo q)

/-- All standard implementations work element by element. -/
theorem standard_isElementwise (lib : Elementary) : (standard lib).IsElementwise :=
  forall_mem_standard lib (p := Meaning.IsElementwise)
    (fun f => (Meaning.ofUnary_elementwiseUpTo _ f).isElementwise_of_lt_two (by decide))
    Meaning.ofBinary_isElementwise
    ((Meaning.abs_elementwiseUpTo _).isElementwise_of_lt_two (by decide))
    (fun x => (Meaning.constant_elementwiseUpTo _ x).isElementwise_of_lt_two (by decide))

end Vocabulary

/-! ## Operators -/

/-- Two real values whose shapes fit a third are combined at every index of that shape. -/
theorem Value.exists_zipWith (f : Float → Float → Float) (g : Complex → Complex → Complex)
    {a b : Batch Float} {shape : List Nat} (ha : Batch.Fits a.shape shape)
    (hb : Batch.Fits b.shape shape) :
    ∃ c, Value.zipWith f g (.real a) (.real b) = .ok (.real c) ∧ Batch.Tabulates shape
      (fun index => Value.zipWith f g (.ofFloat (a.pick index)) (.ofFloat (b.pick index))) c := by
  obtain ⟨c, hc, hfits, hpick⟩ := Batch.exists_zipWith? f ha hb
  refine ⟨c, ?_, hfits, fun index hi => ?_⟩
  · rw [Value.zipWith, Value.combine, hc]
    rfl
  · rw [hpick index hi]
    rfl

/-- An operator is taken along the elements that broadcasting brings together. -/
theorem Expr.exists_binaryValue (op : BinaryOp) {a b : Batch Float} {shape : List Nat}
    (ha : Batch.Fits a.shape shape) (hb : Batch.Fits b.shape shape) :
    ∃ c, Expr.binaryValue op (.real a) (.real b) = .ok (.real c) ∧ Batch.Tabulates shape
      (fun index => Expr.binaryValue op (.ofFloat (a.pick index)) (.ofFloat (b.pick index))) c := by
  cases op with
  | add => exact Value.exists_zipWith (· + ·) (· + ·) ha hb
  | subtract => exact Value.exists_zipWith (· - ·) (· - ·) ha hb
  | multiply => exact Value.exists_zipWith (· * ·) (· * ·) ha hb
  | divide => exact Value.exists_zipWith (· / ·) (· / ·) ha hb

/-! ## Expressions -/

namespace Expr

variable {v : Vocabulary Meaning} {q : Fault → Prop}

/-- At a point, an expression has a number for its value, or a local fault. -/
theorem settles_eval (hv : v.IsNumeric) (x y : Float) (e : Expr) :
    Settles (fun a => ∃ r, a = .ofFloat r) (e.eval v (.ofFloat x) (.ofFloat y)) :=
  settles_iff_meets.2 (meets_eval hv.numericUpTo (fun _ _ => rfl) x y e)

mutual

/-- Over two coordinate batches that fit a shape, an expression has at every index of the shape the
    value at the point of that index, or one of the faults. -/
theorem tabulates_eval (hv : v.ElementwiseUpTo q) (hq : ∀ name given, q (.unresolved name given))
    {x y : Batch Float} {shape : List Nat} (hx : Batch.Fits x.shape shape)
    (hy : Batch.Fits y.shape shape) :
    ∀ e : Expr, Meets (fun a => ∃ b, a = .real b ∧ Batch.Tabulates shape
      (fun index => e.eval v (.ofFloat (x.pick index)) (.ofFloat (y.pick index))) b) q
      (e.eval v (.real x) (.real y))
  | .literal r => ⟨.scalar r, rfl, .nil _, fun _ _ => rfl⟩
  | .var .x => ⟨x, rfl, hx, fun _ _ => rfl⟩
  | .var .y => ⟨y, rfl, hy, fun _ _ => rfl⟩
  | .signed s e => by
    rw [eval]
    refine (tabulates_eval hv hq hx hy e).bind ?_
    rintro _ ⟨b, rfl, hb⟩
    cases s with
    | plus =>
      refine ⟨b, rfl, hb.fits, fun index hi => ?_⟩
      rw [eval, hb.value index hi]
      rfl
    | minus =>
      refine ⟨b.map (-·), rfl, hb.fits, fun index hi => ?_⟩
      rw [eval, hb.value index hi]
      rfl
  | .binary op l r => by
    rw [eval]
    refine (tabulates_eval hv hq hx hy l).bind ?_
    rintro _ ⟨a, rfl, ha⟩
    refine (tabulates_eval hv hq hx hy r).bind ?_
    rintro _ ⟨b, rfl, hb⟩
    obtain ⟨c, hc, ht⟩ := exists_binaryValue op ha.fits hb.fits
    rw [hc]
    refine ⟨c, rfl, ht.fits, fun index hi => ?_⟩
    rw [eval, ha.value index hi, hb.value index hi]
    exact ht.value index hi
  | .call name [] => by
    rw [eval]
    refine (meets_constantValue hv.numericUpTo hq name).mono ?_
    rintro _ ⟨r, rfl⟩ hr
    -- a constant is not asked again for each point: its one number is broadcast
    refine ⟨.scalar r, rfl, .nil _, fun index _ => ?_⟩
    rw [eval, hr]
    rfl
  | .call name (e :: es) => by
    rw [eval]
    cases h : v.resolve? name (es.length + 1) with
    | none => exact hq name (es.length + 1)
    | some entry =>
      refine (tabulates_eval hv hq hx hy e).bind ?_
      rintro _ ⟨a, rfl, ha⟩
      refine (tabulates_evalList hv hq hx hy es).bind ?_
      rintro _ ⟨as, hlen, rfl, hfits, has⟩
      have hfits' : ∀ b ∈ a :: as, Batch.Fits b.shape shape :=
        List.forall_mem_cons.2 ⟨ha.fits, hfits⟩
      have hlen' : (a :: as).length = es.length + 1 := by rw [List.length_cons, hlen]
      refine ((hv.of_resolve? h).tabulates hlen' hfits').mono ?_
      rintro _ ⟨b, rfl, hb⟩ _
      -- at an index, the arguments have values already, so the call is the implementation's
      refine ⟨b, rfl, hb.fits, fun index hi => ?_⟩
      rw [eval, h]
      dsimp only
      rw [ha.value index hi, has index hi]
      exact hb.value index hi

/-- Over two coordinate batches that fit a shape, arguments have at every index of the shape the
    values at the point of that index, or there is one of the faults. -/
theorem tabulates_evalList (hv : v.ElementwiseUpTo q)
    (hq : ∀ name given, q (.unresolved name given)) {x y : Batch Float} {shape : List Nat}
    (hx : Batch.Fits x.shape shape) (hy : Batch.Fits y.shape shape) :
    ∀ es : List Expr, Meets (fun as => ∃ bs : List (Batch Float), bs.length = es.length ∧
      as = bs.map Value.real ∧ (∀ b ∈ bs, Batch.Fits b.shape shape) ∧
      ∀ index, Batch.Inside index shape →
        evalList v (.ofFloat (x.pick index)) (.ofFloat (y.pick index)) es =
          .ok (bs.map fun b => .ofFloat (b.pick index))) q
      (evalList v (.real x) (.real y) es)
  | [] => ⟨[], rfl, rfl, fun _ hb => (nomatch hb), fun _ _ => rfl⟩
  | e :: es => by
    rw [evalList]
    refine (tabulates_eval hv hq hx hy e).bind ?_
    rintro _ ⟨a, rfl, ha⟩
    refine (tabulates_evalList hv hq hx hy es).bind ?_
    rintro _ ⟨as, hlen, rfl, hfits, has⟩
    -- the arrays of the arguments all fit the shape, so that the call sees the elements at one
    -- index
    have hfits' : ∀ b ∈ a :: as, Batch.Fits b.shape shape :=
      List.forall_mem_cons.2 ⟨ha.fits, hfits⟩
    refine ⟨a :: as, by rw [List.length_cons, List.length_cons, hlen], rfl, hfits', ?_⟩
    intro index hi
    rw [evalList, ha.value index hi, has index hi]
    rfl

end

end Expr

/-! ## Equations -/

namespace Equation

variable {eq : Equation}

/-- At a point, an equation has a slope or a local fault. -/
theorem settles_slope_of_isNumeric (hv : eq.vocabulary.IsNumeric) (x y : Float) :
    Settles (fun _ => True) (eq.slope x y) := by
  unfold slope
  refine (Expr.settles_eval hv x y eq.tree).bind ?_
  rintro _ ⟨r, rfl⟩
  exact trivial

/-- At a point, an equation gives a number or a local fault. -/
theorem settles_slope (hv : eq.vocabulary.IsElementwise) (x y : Float) :
    Settles (fun _ => True) (eq.slope x y) := settles_slope_of_isNumeric hv.isNumeric x y

/-- Over two coordinate batches, an equation has the slopes of the points at every index of the
    shape to which they are broadcast, or one of the faults. -/
theorem meets_evaluate {q : Fault → Prop} (hv : eq.vocabulary.ElementwiseUpTo q)
    (hq : ∀ name given, q (.unresolved name given)) {x y : Batch Float} {shape : List Nat}
    (h : Batch.commonShape? x.shape y.shape = some shape) :
    Meets (fun b => b.shape = shape ∧ ∀ index, Batch.Inside index shape →
      eq.slope (x.pick index) (y.pick index) = .ok (b.get index)) q (eq.evaluate x y) := by
  obtain ⟨hx, hy⟩ := Batch.fits_of_commonShape? h
  unfold evaluate
  rw [h]
  refine (Expr.tabulates_eval hv hq hx hy eq.tree).bind ?_
  rintro _ ⟨b, rfl, hb⟩
  dsimp only
  -- the shape of the value fits that of the coordinates, so it is broadcast and not refused
  rw [if_pos hb.fits.commonShape?_eq]
  refine ⟨rfl, fun index hi => ?_⟩
  unfold slope
  rw [hb.value index hi]
  rfl

/-- Over two coordinate batches, an equation has the slopes of the points at every index of the
    shape to which they are broadcast, or a local fault. -/
theorem settles_evaluate (hv : eq.vocabulary.IsElementwise) {x y : Batch Float} {shape : List Nat}
    (h : Batch.commonShape? x.shape y.shape = some shape) :
    Settles (fun b => b.shape = shape ∧ ∀ index, Batch.Inside index shape →
      eq.slope (x.pick index) (y.pick index) = .ok (b.get index)) (eq.evaluate x y) :=
  settles_iff_meets.2 (meets_evaluate hv.elementwiseUpTo (fun _ _ => rfl) h)

/-- An equation keeps the vocabulary that it is compiled with. -/
theorem vocabulary_of_compile {v : Vocabulary Meaning} {text : String}
    (h : Equation.compile v text = .ok eq) : eq.vocabulary = v := by
  unfold compile at h
  simp only [Except.mapError_eq_ok_iff, Except.bind_eq_ok_iff] at h
  obtain ⟨tree, _, _, _, _, _, h⟩ := h
  cases h
  rfl

end Equation

end DirectionField
