/-! # Faults

A fault is what an implementation of a function signals instead of a value, or what an operation
meets that nobody provided for. Where slopes are sampled, an arithmetic fault, a bad value and a bad
type make a single slope undefined; a fault of any other kind ends the whole operation. A refusal
with a reason that is meant for the user is not a fault but a `Problem`.

A fault is put into words only where it is shown, and what an implementation signals may have none:
then the attempt to word it signals another fault (`Fault.message`). -/

namespace DirectionField

/-- The kinds of fault. -/
inductive Fault.Kind where
  | divisionByZero
  | overflow
  | value
  | type
  | index
  | other
deriving Repr, DecidableEq

/-- What went wrong. -/
inductive Fault where
  /-- An implementation signalled it, in words of its own. -/
  | raised (kind : Fault.Kind) (message : String)
  /-- An implementation signalled a problem under a name of its own. A request reports it as it does
      any problem; where slopes are sampled, it is a bad value. -/
  | reported (name message : String)
  /-- An implementation used up the stack. -/
  | stackExhausted (message : String)
  /-- An implementation signalled what cannot be put into words: the attempt signals `fault`. -/
  | wordless (signalled fault : Fault)
  /-- A call that the vocabulary does not offer. -/
  | unresolved (name : String) (given : Nat)
  /-- A result that is not one real number where one is needed. -/
  | notOneReal
  /-- Two coordinate arrays whose shapes do not fit together. -/
  | argumentShapes (first second : List Nat)
  /-- Two operands whose shapes do not fit together. -/
  | operandShapes (first second : List Nat)
  /-- A result whose shape is not that of the coordinates. -/
  | resultShape (given expected : List Nat)
  | unreadableNumber (literal : String)
  | notANumber (kindName : String)
  | integerTooLarge
  | coordinateCount (given : Nat)
  | infiniteCount
  /-- An integer with more digits than are read. -/
  | tooManyDigits (limit given : Nat)
  /-- An integer with more digits than are written. -/
  | integerTooLong (limit : Nat)
  | indexOutOfRange (index : Int) (axis size : Nat)
deriving Repr, DecidableEq

namespace Fault

/-- A shape with its extents in parentheses; one extent alone keeps its comma. -/
def shapeText (separator : String) : List Nat → String
  | [] => "()"
  | [n] => "(" ++ toString n ++ ",)"
  | ns => "(" ++ separator.intercalate (ns.map toString) ++ ")"

/-- A fault as it is shown where nothing may go wrong any more. -/
def text : Fault → String
  | .raised _ message | .reported _ message | .stackExhausted message => message
  | .wordless .. => "<exception str() failed>"
  | .unresolved name given => "'" ++ name ++ "' cannot take " ++ toString given ++ " argument(s)"
  | .notOneReal => "only a single real number can be a slope"
  | .argumentShapes s t =>
    "shape mismatch: objects cannot be broadcast to a single shape.  Mismatch is between arg 0 " ++
      "with shape " ++ shapeText ", " s ++ " and arg 1 with shape " ++ shapeText ", " t ++ "."
  | .operandShapes s t =>
    "operands could not be broadcast together with shapes " ++ shapeText "," s ++ " " ++
      shapeText "," t ++ " "
  | .resultShape s t =>
    "operands could not be broadcast together with remapped shapes [original->remapped]: " ++
      shapeText "," s ++ "  and requested shape " ++ shapeText "," t
  | .unreadableNumber literal => "could not convert string to float: " ++ literal
  | .notANumber kindName =>
    "float() argument must be a string or a real number, not '" ++ kindName ++ "'"
  | .integerTooLarge => "int too large to convert to float"
  | .coordinateCount given =>
    if given < 2 then
      "not enough values to unpack (expected 2, got " ++ toString given ++ ")"
    else "too many values to unpack (expected 2)"
  | .infiniteCount => "cannot convert float infinity to integer"
  | .tooManyDigits limit given =>
    "Exceeds the limit (" ++ toString limit ++ " digits) for integer string conversion: value has " ++
      toString given ++ " digits; use sys.set_int_max_str_digits() to increase the limit"
  | .integerTooLong limit =>
    "Exceeds the limit (" ++ toString limit ++ " digits) for integer string conversion; " ++
      "use sys.set_int_max_str_digits() to increase the limit"
  | .indexOutOfRange index axis size =>
    "index " ++ toString index ++ " is out of bounds for axis " ++ toString axis ++
      " with size " ++ toString size

/-- The wording of a fault, or the fault that the attempt to word it signals. -/
def message : Fault → Except Fault String
  | .wordless _ fault => .error fault
  | fault => .ok fault.text

/-- The kind of a fault. -/
def kind : Fault → Kind
  | .raised kind _ => kind
  | .wordless signalled _ => signalled.kind
  | .stackExhausted _ => .other
  | .reported .. | .unresolved .. => .value
  | .argumentShapes .. | .operandShapes .. | .resultShape .. => .value
  | .unreadableNumber _ | .coordinateCount _ | .tooManyDigits .. => .value
  | .integerTooLong _ => .value
  | .notOneReal | .notANumber _ => .type
  | .integerTooLarge | .infiniteCount => .overflow
  | .indexOutOfRange .. => .index

/-- The name under which an implementation reports the fault as a problem of its own, if it does. -/
def reportedName? : Fault → Option String
  | .reported name _ => some name
  | .wordless signalled _ => signalled.reportedName?
  | _ => none

/-- Is the fault that the stack is used up? -/
def exhaustsStack : Fault → Bool
  | .stackExhausted _ => true
  | .wordless signalled _ => signalled.exhaustsStack
  | _ => false

/-- The fault that a request passes on to its caller. What an implementation reports as a problem is
    not passed on but recorded, and where there are no words to record, looking for them signals the
    fault that is. -/
def passedOn : Fault → Fault
  | .wordless signalled fault =>
    if signalled.reportedName?.isSome then fault else .wordless signalled fault
  | fault => fault

/-- Does the fault concern a single slope only? -/
def isLocal (fault : Fault) : Bool :=
  match fault.kind with
  | .divisionByZero | .overflow | .value | .type => true
  | .index | .other => false

end Fault

end DirectionField
