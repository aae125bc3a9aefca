import DirectionField.Event
import DirectionField.Expr.Canonical
import DirectionField.Expr.OfTokens
import DirectionField.Vocabulary.Standard

/-! # Equations

An equation is the text of a right-hand side with its tree and the vocabulary that gives it a
meaning. `Equation.compile` accepts a text whose tree has a real number for its value at the origin.
An equation is then evaluated at a point (`Equation.slope`) or at all points of two coordinate
arrays at once (`Equation.evaluate`); both are the same evaluation of the tree (`Expr.eval`). -/

namespace DirectionField

namespace Expr

/-- The value of a constant, as real numbers. A single complex number is none, but of several ones
    the real parts are taken. -/
def constantValue (vocabulary : Vocabulary Meaning) (name : String) : Except Fault Value :=
  match vocabulary.resolve? name 0 with
  | none => .error (.unresolved name 0)
  | some entry => do
    match ← entry.meaning [] with
    | .real b => .ok (.real b)
    | .complex b =>
      if b.shape.isEmpty then .error .notOneReal else .ok (.real (b.map Complex.re))

/-- The result of an operator between two operands. -/
def binaryValue : BinaryOp → Value → Value → Except Fault Value
  | .add => Value.add
  | .subtract => Value.sub
  | .multiply => Value.mul
  | .divide => Value.div

/-- The result of a sign in front of an operand. -/
def signedValue : Sign → Value → Value
  | .plus, v => v
  | .minus, v => v.neg

mutual

/-- The value of an expression. Operands and arguments are evaluated from left to right, and the
    first fault is the fault of the whole. -/
def eval (vocabulary : Vocabulary Meaning) (x y : Value) : Expr → Except Fault Value
  | .literal v => .ok (.ofFloat v)
  | .var .x => .ok x
  | .var .y => .ok y
  | .signed s e => do
    let v ← eval vocabulary x y e
    return signedValue s v
  | .binary op l r => do
    let a ← eval vocabulary x y l
    let b ← eval vocabulary x y r
    binaryValue op a b
  | .call name [] => constantValue vocabulary name
  | .call name (e :: es) => do
    match vocabulary.resolve? name (es.length + 1) with
    | none => .error (.unresolved name (es.length + 1))
    | some entry =>
      let a ← eval vocabulary x y e
      let as ← evalList vocabulary x y es
      entry.meaning (a :: as)

/-- The values of arguments. -/
def evalList (vocabulary : Vocabulary Meaning) (x y : Value) :
    List Expr → Except Fault (List Value)
  | [] => .ok []
  | e :: es => do
    let a ← eval vocabulary x y e
    let as ← evalList vocabulary x y es
    return a :: as

end

mutual

/-- The names of the constants of an expression, from left to right. -/
def constants : Expr → List String
  | .literal _ | .var _ => []
  | .signed _ e => constants e
  | .binary _ l r => constants l ++ constants r
  | .call name [] => [name]
  | .call _ (e :: es) => constants e ++ constantsList es

/-- The names of the constants of arguments, from left to right. -/
def constantsList : List Expr → List String
  | [] => []
  | e :: es => constants e ++ constantsList es

end

end Expr

/-- A right-hand side that can be evaluated. -/
structure Equation where
  text : String
  tree : Expr
  vocabulary : Vocabulary Meaning

namespace Equation

/-- Evaluate every constant once, so that a fault of a constant is met before any evaluation. -/
def checkConstants (vocabulary : Vocabulary Meaning) (tree : Expr) : Except Fault Unit :=
  tree.constants.forM fun name => do
    let _ ← Expr.constantValue vocabulary name

/-- Evaluate a tree at the origin, where it has to have one real number for its value. -/
def checkValue (vocabulary : Vocabulary Meaning) (tree : Expr) : Except EquationError Unit :=
  match tree.eval vocabulary (.ofFloat 0.0) (.ofFloat 0.0) with
  | .error fault => .error ⟨.cannotBeEvaluated fault, none⟩
  | .ok v => if v.isOneReal then .ok () else .error ⟨.notReal, none⟩

/-- Where the stack is used up, an equation is nested too deeply. -/
def tooDeepOr : Failure → Failure
  | .problem p => .problem p
  | .fault fault => if fault.exhaustsStack then .ofEquationError ⟨.tooDeep, none⟩ else .fault fault

/-- The equation that a text writes. -/
def compile (vocabulary : Vocabulary Meaning) (text : String) : Except Failure Equation :=
  Except.mapError tooDeepOr do
    let tree ← Expr.read vocabulary.signature text
    orFault (checkConstants vocabulary tree)
    (checkValue vocabulary tree).mapError .ofEquationError
    return ⟨text, tree, vocabulary⟩

/-- The text with every grouping made explicit. -/
def canonical (eq : Equation) : String := eq.tree.canonical

/-- What compiling an equation has to tell. -/
def compiledEvent (eq : Equation) : Event := .compiled eq.text eq.canonical

/-- The slope at a point. -/
def slope (eq : Equation) (x y : Float) : Except Fault Float := do
  (← eq.tree.eval eq.vocabulary (.ofFloat x) (.ofFloat y)).toFloat

/-- The slopes at the points of two coordinate arrays that are broadcast against each other. The
    result has their common shape, also where the equation does not mention both coordinates. -/
def evaluate (eq : Equation) (x y : Batch Float) : Except Fault (Batch Float) := do
  match Batch.commonShape? x.shape y.shape with
  | none => .error (.argumentShapes x.shape y.shape)
  | some shape =>
    match ← eq.tree.eval eq.vocabulary (.real x) (.real y) with
    | .complex _ => .error .notOneReal
    | .real b =>
      if Batch.commonShape? b.shape shape = some shape then .ok (b.broadcast shape)
      else .error (.resultShape b.shape shape)

end Equation

end DirectionField
