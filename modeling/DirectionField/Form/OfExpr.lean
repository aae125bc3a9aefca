import DirectionField.Form.Basic

/-! # The symbolic form of an expression

An expression has a symbolic form if every name in it belongs to the well-known functions and
constants. What a vocabulary makes of the names does not matter here. -/

namespace DirectionField

/-- A name, with its number of arguments, that has no symbolic form. -/
structure MissingForm where
  name : String
deriving Repr, DecidableEq

/-- The wording of the lack of a symbolic form. -/
def MissingForm.message (m : MissingForm) : String := "no symbolic form for '" ++ m.name ++ "'"

namespace Form

/-- The form of a constant. -/
def constantOf? (name : String) : Option Form :=
  if name = "pi" then some (.constant .pi)
  else if name = "e" then some (.constant .e)
  else none

/-- What a name makes of the form of its only argument. -/
def unaryOf? (name : String) : Option (Form → Form) :=
  match name with
  | "exp" => some (pow (.constant .e))
  | "sqrt" => some (pow · (.number (.exact (1 / 2))))
  | "log" => some (logarithm · (.number (.exact 10)))
  | "ln" => some (applied .log)
  | "cos" => some (applied .cos)
  | "sin" => some (applied .sin)
  | "tan" => some (applied .tan)
  | "atan" => some (applied .atan)
  | "acos" => some (applied .acos)
  | "asin" => some (applied .asin)
  | "tanh" => some (applied .tanh)
  | "cosh" => some (applied .cosh)
  | "sinh" => some (applied .sinh)
  | "abs" => some (applied .abs)
  | _ => none

/-- What a name makes of the forms of its two arguments. -/
def binaryOf? (name : String) : Option (Form → Form → Form) :=
  match name with
  | "pow" => some pow
  | "log" => some logarithm
  | _ => none

/-- What an operator makes of the forms of its operands. -/
def ofOperator : BinaryOp → Form → Form → Form
  | .add => add
  | .subtract => fun a b => add a (neg b)
  | .multiply => mul
  | .divide => div

/-- What is there, or the lack of a form for a name. -/
def orMissing {α : Type} (name : String) : Option α → Except MissingForm α
  | some a => .ok a
  | none => .error ⟨name⟩

/-- The symbolic form of an expression. -/
def ofExpr : Expr → Except MissingForm Form
  | .literal v => .ok (.number (.ofFloat v))
  | .var v => .ok (.var v)
  | .signed s e => do
    let f ← ofExpr e
    return match s with
      | .plus => f
      | .minus => neg f
  | .binary op l r => do
    let a ← ofExpr l
    let b ← ofExpr r
    return ofOperator op a b
  | .call name [] => orMissing name (constantOf? name)
  | .call name [a] => do
    let f ← orMissing name (unaryOf? name)
    return f (← ofExpr a)
  | .call name [a, b] => do
    let f ← orMissing name (binaryOf? name)
    let a ← ofExpr a
    let b ← ofExpr b
    return f a b
  | .call name _ => .error ⟨name⟩

end Form

end DirectionField
