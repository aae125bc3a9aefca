/-! # Expression trees

The right-hand side of `y' = f(x, y)` as a tree. A tree does not know what its calls mean; that is
up to a vocabulary. -/

namespace DirectionField

/-- The free variables of a right-hand side. -/
inductive Variable where
  | x
  | y
deriving Repr, DecidableEq

/-- The operators that stand in front of one operand. -/
inductive Sign where
  | plus
  | minus
deriving Repr, DecidableEq

/-- The operators that stand between two operands. -/
inductive BinaryOp where
  | add
  | subtract
  | multiply
  | divide
deriving Repr, DecidableEq

/-- An expression in `x` and `y`. A constant is a call without arguments. -/
inductive Expr where
  | literal (value : Float)
  | var (v : Variable)
  | signed (sign : Sign) (operand : Expr)
  | binary (op : BinaryOp) (left right : Expr)
  | call (name : String) (args : List Expr)

/-- The name of a variable in an equation. -/
def Variable.name : Variable → String
  | .x => "x"
  | .y => "y"

/-- The variable of a given name. -/
def Variable.ofName? (name : String) : Option Variable :=
  if name = "x" then some .x else if name = "y" then some .y else none

/-- The character that writes a sign. -/
def Sign.char : Sign → Char
  | .plus => '+'
  | .minus => '-'

/-- The character that writes an operator. -/
def BinaryOp.char : BinaryOp → Char
  | .add => '+'
  | .subtract => '-'
  | .multiply => '*'
  | .divide => '/'

@[simp] theorem Variable.ofName?_name (v : Variable) : Variable.ofName? v.name = some v := by
  cases v <;> rfl

end DirectionField
