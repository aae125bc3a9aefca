import DirectionField.Number.Integer
import DirectionField.Number.Numeral
import DirectionField.Number.Text
import DirectionField.Text.Quoted

/-! # Data of any type

Where a caller may hand in a value of the wrong type, the value is a `Datum`, so that the refusal can
show what was given. A datum is shown in two ways: `Datum.display` leaves a text as it is,
`Datum.literal` puts it between quotes. A datum in which there is an integer that is too long cannot be
shown in either. -/

namespace DirectionField

/-- A value as a caller supplies it. -/
inductive Datum where
  | absent
  | flag (b : Bool)
  | integer (n : Int)
  | real (x : Float)
  | text (s : String)
  | list (items : List Datum)
  | record (fields : List (String × Datum))

namespace Datum

mutual

/-- A datum in a form that tells its type. -/
def literal : Datum → Except Fault String
  | .absent => .ok "None"
  | .flag b => .ok (if b then "True" else "False")
  | .integer n => NumberText.integer n
  | .real x => .ok (NumberText.plain x)
  | .text s => .ok (Text.quote s)
  | .list items => do
    let texts ← literals items
    return "[" ++ ", ".intercalate texts ++ "]"
  | .record fields => do
    let texts ← fieldLiterals fields
    return "\x7b" ++ ", ".intercalate texts ++ "\x7d"

/-- The literals of the items of a list. -/
def literals : List Datum → Except Fault (List String)
  | [] => .ok []
  | d :: ds => do
    let text ← literal d
    let texts ← literals ds
    return text :: texts

/-- The fields of a record, each with its name. -/
def fieldLiterals : List (String × Datum) → Except Fault (List String)
  | [] => .ok []
  | (name, d) :: fields => do
    let text ← literal d
    let texts ← fieldLiterals fields
    return (Text.quote name ++ ": " ++ text) :: texts

end

/-- A datum as text: a text is itself. -/
def display : Datum → Except Fault String
  | .text s => .ok s
  | d => d.literal

/-- The name of a type, as a fault words it. -/
def kindName : Datum → String
  | .absent => "NoneType"
  | .flag _ => "bool"
  | .integer _ => "int"
  | .real _ => "float"
  | .text _ => "str"
  | .list _ => "list"
  | .record _ => "dict"

/-- The number that a datum stands for: a truth value counts as one or zero, an integer must not be
    beyond the finite numbers, and a text is read as a number. -/
def toNumber : Datum → Except Fault Float
  | .flag b => .ok (if b then 1.0 else 0.0)
  | .integer n =>
    let bits := nearestBits n.natAbs 1
    if bits = infinityBits then .error .integerTooLarge
    else .ok (floatOfMagnitude (n < 0) bits)
  | .real x => .ok x
  | .text s =>
    match readFloat? s with
    | some x => .ok x
    | none => .error (.unreadableNumber (Text.quote s))
  | d => .error (.notANumber d.kindName)

end Datum

end DirectionField
