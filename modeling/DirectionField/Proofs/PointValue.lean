import DirectionField.Equation
import DirectionField.Proofs.Except
import DirectionField.Proofs.VocabularyLookup

/-!
# The value of an expression at a point

If every implementation gives, on numbers, a number or one of some faults, then an expression gives at a
point a number or one of these faults, whichever they are (`Expr.meets_eval`). An operator between two
expressions is then the operation on their two numbers (`Equation.slope_binary`).
-/

namespace DirectionField

/-! ## Outcomes -/

/-- An outcome is a result with a property, or a fault with a property. -/
def Meets {α : Type} (p : α → Prop) (q : Fault → Prop) : Except Fault α → Prop
  | .ok a => p a
  | .error fault => q fault

/-- If a first step meets a property from which the next one leads to another, their sequence does.
    -/
theorem Meets.bind {α β : Type} {p : α → Prop} {p' : β → Prop} {q : Fault → Prop}
    {x : Except Fault α} {f : α → Except Fault β} (hx : Meets p q x)
    (hf : ∀ a, p a → Meets p' q (f a)) : Meets p' q (x >>= f) := by
  cases x with
  | error fault => exact hx
  | ok a => exact hf a hx

/-- The property of the result may be weakened, also by what the result is. -/
theorem Meets.mono {α : Type} {p p' : α → Prop} {q : Fault → Prop} {x : Except Fault α}
    (hx : Meets p q x) (h : ∀ a, p a → x = .ok a → p' a) : Meets p' q x := by
  cases x with
  | error fault => exact hx
  | ok a => exact h a hx rfl

/-- The value is a single real number. -/
def Value.IsNumber (a : Value) : Prop := ∃ r, a = .ofFloat r

/-- On numbers, every implementation of the vocabulary gives a number or one of the faults. -/
def Vocabulary.NumericUpTo (v : Vocabulary Meaning) (q : Fault → Prop) : Prop :=
  ∀ e ∈ v.entries, ∀ xs : List Float, xs.length = e.arity →
    Meets Value.IsNumber q (e.meaning (xs.map .ofFloat))

/-- What a call finds gives a number, or one of the faults, on as many numbers as it takes. -/
theorem Vocabulary.NumericUpTo.of_resolve? {v : Vocabulary Meaning} {q : Fault → Prop}
    (hv : v.NumericUpTo q) {name : String} (xs : List Float) {entry : Entry Meaning}
    (h : v.resolve? name xs.length = some entry) :
    Meets Value.IsNumber q (entry.meaning (xs.map .ofFloat)) := by
  obtain ⟨hmem, _, harity⟩ := mem_of_resolve? h
  exact hv entry hmem xs harity.symm

/-! ## Operators -/

/-- The operation on two numbers that an operator stands for. -/
def BinaryOp.apply : BinaryOp → Float → Float → Float
  | .add, a, b => a + b
  | .subtract, a, b => a - b
  | .multiply, a, b => a * b
  | .divide, a, b => a / b

/-- On two numbers, the operators of values are those of numbers. -/
theorem Expr.binaryValue_ofFloat (op : BinaryOp) (a b : Float) :
    Expr.binaryValue op (.ofFloat a) (.ofFloat b) = .ok (.ofFloat (op.apply a b)) := by
  cases op <;> rfl

/-! ## Expressions -/

namespace Expr

variable {v : Vocabulary Meaning} {q : Fault → Prop}

/-- A constant is a number, or one of the faults. -/
theorem meets_constantValue (hv : v.NumericUpTo q) (hq : ∀ name given, q (.unresolved name given))
    (name : String) : Meets Value.IsNumber q (constantValue v name) := by
  unfold constantValue
  cases h : v.resolve? name 0 with
  | none => exact hq name 0
  | some entry =>
    have hvalue : Meets Value.IsNumber q (entry.meaning []) := hv.of_resolve? [] h
    refine hvalue.bind ?_
    -- a single number is taken as it is
    rintro _ ⟨r, rfl⟩
    exact ⟨r, rfl⟩

mutual

/-- At a point, an expression has a number for its value, or one of the faults. -/
theorem meets_eval (hv : v.NumericUpTo q) (hq : ∀ name given, q (.unresolved name given))
    (x y : Float) : ∀ e : Expr, Meets Value.IsNumber q (e.eval v (.ofFloat x) (.ofFloat y))
  | .literal r => ⟨r, rfl⟩
  | .var .x => ⟨x, rfl⟩
  | .var .y => ⟨y, rfl⟩
  | .signed s e => by
    unfold eval
    refine (meets_eval hv hq x y e).bind ?_
    rintro _ ⟨r, rfl⟩
    cases s with
    | plus => exact ⟨r, rfl⟩
    | minus => exact ⟨-r, rfl⟩
  | .binary op l r => by
    unfold eval
    refine (meets_eval hv hq x y l).bind ?_
    rintro _ ⟨a, rfl⟩
    refine (meets_eval hv hq x y r).bind ?_
    rintro _ ⟨b, rfl⟩
    rw [binaryValue_ofFloat]
    exact ⟨op.apply a b, rfl⟩
  | .call name [] => meets_constantValue hv hq name
  | .call name (e :: es) => by
    unfold eval
    -- the call is looked up before its arguments are evaluated
    cases h : v.resolve? name (es.length + 1) with
    | none => exact hq name (es.length + 1)
    | some entry =>
      refine (meets_eval hv hq x y e).bind ?_
      rintro _ ⟨a, rfl⟩
      refine (meets_evalList hv hq x y es).bind ?_
      rintro _ ⟨as, hlen, rfl⟩
      have harity : (a :: as).length = es.length + 1 := by rw [List.length_cons, hlen]
      exact hv.of_resolve? (a :: as) (harity ▸ h)

/-- At a point, arguments have numbers for their values, or there is one of the faults. -/
theorem meets_evalList (hv : v.NumericUpTo q) (hq : ∀ name given, q (.unresolved name given))
    (x y : Float) : ∀ es : List Expr, Meets (fun as => ∃ rs : List Float, rs.length = es.length ∧
      as = rs.map Value.ofFloat) q (evalList v (.ofFloat x) (.ofFloat y) es)
  | [] => ⟨[], rfl, rfl⟩
  | e :: es => by
    unfold evalList
    refine (meets_eval hv hq x y e).bind ?_
    rintro _ ⟨a, rfl⟩
    refine (meets_evalList hv hq x y es).bind ?_
    rintro _ ⟨as, hlen, rfl⟩
    -- as many values as arguments, which is what the overload was looked up for
    exact ⟨a :: as, by rw [List.length_cons, List.length_cons, hlen], rfl⟩

end

/-- An operator between two numbers gives a number. -/
theorem eval_binary {l r : Expr} {x y : Value} {a b : Float} (hl : l.eval v x y = .ok (.ofFloat a))
    (hr : r.eval v x y = .ok (.ofFloat b)) (op : BinaryOp) :
    (Expr.binary op l r).eval v x y = .ok (.ofFloat (op.apply a b)) := by
  rw [eval, hl, hr]
  exact binaryValue_ofFloat op a b

/-- At a point, the value of an expression that has one is a number. -/
theorem isNumber_of_eval (hv : v.NumericUpTo q) (hq : ∀ name given, q (.unresolved name given))
    {x y : Float} {e : Expr} {a : Value} (h : e.eval v (.ofFloat x) (.ofFloat y) = .ok a) :
    a.IsNumber := by
  have hmeets := meets_eval hv hq x y e
  rw [h] at hmeets
  exact hmeets

end Expr

namespace Equation

variable {v : Vocabulary Meaning} {q : Fault → Prop}

/-- At a point, an operator between two trees is its operation on their slopes. Where one of them
    has a fault there is this fault, that of the left one before that of the right one. -/
theorem slope_binary (hv : v.NumericUpTo q) (hq : ∀ name given, q (.unresolved name given))
    (op : BinaryOp) (l r : Expr) (text left right : String) (x y : Float) :
    slope ⟨text, .binary op l r, v⟩ x y = do
      let a ← slope ⟨left, l, v⟩ x y
      let b ← slope ⟨right, r, v⟩ x y
      return op.apply a b := by
  unfold slope
  dsimp only
  -- the left operand first: its fault is the fault of the whole
  cases hl : l.eval v (.ofFloat x) (.ofFloat y) with
  | error fault =>
    rw [Expr.eval, hl]
    rfl
  | ok a =>
    obtain ⟨a, rfl⟩ := Expr.isNumber_of_eval hv hq hl
    cases hr : r.eval v (.ofFloat x) (.ofFloat y) with
    | error fault =>
      rw [Expr.eval, hl, hr]
      rfl
    | ok b =>
      obtain ⟨b, rfl⟩ := Expr.isNumber_of_eval hv hq hr
      rw [Expr.eval_binary hl hr]
      rfl

end Equation

end DirectionField
