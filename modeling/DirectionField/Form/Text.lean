import DirectionField.Form.Layout

/-! # Symbolic forms as plain text

A form on one line of ASCII: `2*x**y`, `log(x)/log(10)`, `1/(x*y)`. -/

namespace DirectionField

namespace Function

/-- The name of a function. -/
def name : Function → String
  | .log => "log"
  | .sin => "sin"
  | .cos => "cos"
  | .tan => "tan"
  | .sinh => "sinh"
  | .cosh => "cosh"
  | .tanh => "tanh"
  | .asin => "asin"
  | .acos => "acos"
  | .atan => "atan"
  | .abs => "Abs"

end Function

namespace Form.Plain

/-- A decimal on one line. -/
def decimalText (allDigits : Bool) (x : Binary) : String :=
  let (digits, e) := decimalParts allDigits x
  String.ofList digits ++
    if e = 0 then "" else (if e < 0 then "e-" else "e+") ++ toString e.natAbs

/-- A number that is not below zero. -/
def numberText : Scalar → String
  | .exact q => if q.den = 1 then toString q.num else toString q.num ++ "/" ++ toString q.den
  | .decimal x => decimalText false x
  | .infinite _ => "oo"
  | .pole => "zoo"
  | .undefined => "nan"

/-- A text in parentheses. -/
def parenthesize (s : String) : String := "(" ++ s ++ ")"

/-- An exponent, in parentheses unless it is an atom. -/
def exponentText (p : Piece) : String := if p.binding = .atom then p.text else parenthesize p.text

/-- The style of plain text. -/
def style : Style where
  number := numberText
  constant
    | .e => "E"
    | .pi => "pi"
  imaginaryUnit := "I"
  between low high := "AccumBounds(" ++ low ++ ", " ++ high ++ ")"
  parenthesize := parenthesize
  apply f a := f.name ++ parenthesize a
  applyPower f a e := f.name ++ parenthesize a ++ "**" ++ exponentText e
  power b e := b ++ "**" ++ exponentText e
  decimalBase b := b
  root a := "sqrt" ++ parenthesize a
  exponential a := "exp" ++ parenthesize a
  exponentialBelow := false
  product := "*".intercalate
  fraction top
    | [bottom] => top ++ "/" ++ bottom
    | bottoms => top ++ "/" ++ parenthesize ("*".intercalate bottoms)
  minus := "-"

end Form.Plain

/-- A form as plain text. A decimal by itself is shown with all its digits. -/
def Form.text : Form → Except Fault String
  | .number (.decimal x) => .ok ((if x.negative then "-" else "") ++ Plain.decimalText true x)
  | f => f.render Plain.style

end DirectionField
