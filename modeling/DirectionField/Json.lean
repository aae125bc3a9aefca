import DirectionField.Number.Text
import DirectionField.Text.Quoted

/-! # JSON texts

Values of the JSON format and their most compact text. The members of an object keep their order.
Characters outside ASCII are written by the code units of UTF-16. A number that is not finite has no
form in JSON and is written by its name. -/

namespace DirectionField

/-- A JSON value. -/
inductive Json where
  | null
  | flag (b : Bool)
  | integer (n : Int)
  | number (x : Float)
  | text (s : String)
  | array (items : List Json)
  | object (members : List (String × Json))

namespace Json

/-- A UTF-16 code unit in hexadecimal digits. -/
def unitChars (n : Nat) : List Char := '\\' :: 'u' :: Text.hexDigits 4 n

/-- A character as it stands in a JSON string. -/
def escape (c : Char) : List Char :=
  let n := c.toNat
  if c = '"' ∨ c = '\\' then ['\\', c]
  else if c = '\n' then ['\\', 'n']
  else if c = '\r' then ['\\', 'r']
  else if c = '\t' then ['\\', 't']
  else if c = '\x08' then ['\\', 'b']
  else if c = '\x0c' then ['\\', 'f']
  else if 0x20 ≤ n ∧ n < 0x7f then [c]
  else if n < 0x10000 then unitChars n
  else unitChars (0xd800 + (n - 0x10000) / 0x400) ++ unitChars (0xdc00 + (n - 0x10000) % 0x400)

/-- A JSON string. -/
def quote (s : String) : String := String.ofList ('"' :: (s.toList.flatMap escape ++ ['"']))

/-- A number. -/
def numberText (x : Float) : String :=
  if x.isNaN then "NaN"
  else if x.isInf then (if x > 0.0 then "Infinity" else "-Infinity")
  else NumberText.plain x

mutual

/-- The compact text of a value. -/
def render : Json → String
  | .null => "null"
  | .flag b => if b then "true" else "false"
  | .integer n => toString n
  | .number x => numberText x
  | .text s => quote s
  | .array items => "[" ++ ",".intercalate (renderAll items) ++ "]"
  | .object members => "\x7b" ++ ",".intercalate (renderMembers members) ++ "\x7d"

/-- The texts of the items of an array. -/
def renderAll : List Json → List String
  | [] => []
  | j :: js => render j :: renderAll js

/-- The texts of the members of an object. -/
def renderMembers : List (String × Json) → List String
  | [] => []
  | (name, j) :: members => (quote name ++ ":" ++ render j) :: renderMembers members

end

/-- A number, or null if it is not finite. -/
def finite (x : Float) : Json := if x.isFinite then .number x else .null

end Json

end DirectionField
