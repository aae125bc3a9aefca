import DirectionField.Number.Integer
import DirectionField.Text.Quoted

/-! # What can be wrong with an equation

An equation is refused for a cause, usually at a position: the number of characters before the place
where the cause was found. The cause is put into words in order to be reported, which may fail: a
number of arguments may be too long to be written, and a fault may have no words. -/

namespace DirectionField

/-- What would have been right where an unexpected token stands. -/
inductive EquationError.Expected where
  | anything
  | closing
  | commaOrClosing
deriving Repr, DecidableEq

/-- Why an equation is refused. -/
inductive EquationError.Cause where
  | empty
  | tooLong (limit : Nat)
  | unexpectedCharacter (c : Char)
  | unexpectedEnd
  | caret
  | unexpected (token : String) (expected : Expected)
  | missingClosing
  | unbalancedClosing
  | tooDeep
  | variableCalled (name : String)
  | unknownName (name : String)
  | needsArgument (name : String)
  | argumentCount (name : String) (accepted : List Nat) (given : Nat)
  | cannotBeEvaluated (fault : Fault)
  | notReal
deriving Repr, DecidableEq

/-- A cause, and the position it is found at unless it concerns the equation as a whole. -/
structure EquationError where
  cause : EquationError.Cause
  position : Option Nat
deriving Repr, DecidableEq

namespace EquationError

/-- The wording that follows an unexpected token. -/
def Expected.suffix : Expected → String
  | .anything => ""
  | .closing => ", expected ')'"
  | .commaOrClosing => ", expected ',' or ')'"

/-- The wording of a cause, or the fault that it takes to find it. -/
def Cause.message : Cause → Except Fault String
  | .empty => .ok "equation is empty"
  | .tooLong limit => .ok ("equation is too long; the limit is " ++ toString limit ++ " tokens")
  | .unexpectedCharacter c => .ok ("unexpected character " ++ Text.quote c.toString)
  | .unexpectedEnd => .ok "unexpected end of equation"
  | .caret => .ok "'^' is not supported; use pow(a, b)"
  | .unexpected token expected => .ok ("unexpected " ++ Text.quote token ++ expected.suffix)
  | .missingClosing => .ok "missing ')'"
  | .unbalancedClosing => .ok "unbalanced ')'"
  | .tooDeep => .ok "equation is nested too deeply"
  | .variableCalled name => .ok ("'" ++ name ++ "' is a variable and cannot be called")
  | .unknownName name => .ok ("unknown identifier '" ++ name ++ "'")
  | .needsArgument name => .ok ("'" ++ name ++ "' needs an argument")
  | .argumentCount name accepted given => do
    let accepted ← accepted.mapM fun (n : Nat) => NumberText.integer n
    return "'" ++ name ++ "' takes " ++ " or ".intercalate accepted ++ " argument(s), got " ++
      toString given
  | .cannotBeEvaluated fault => do
    let reason ← fault.message
    return "equation cannot be evaluated: " ++ reason
  | .notReal => .ok "equation does not produce a real number"

end EquationError

end DirectionField
