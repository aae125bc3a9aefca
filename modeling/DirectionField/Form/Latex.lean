import DirectionField.Form.Layout

/-! # Symbolic forms in LaTeX

A form as it is typeset, with `\frac` for a quotient, `\sqrt` for a root, and the names of functions
as operators. -/

namespace DirectionField

namespace Function

/-- The command that typesets the name of a function. -/
def command : Function → String
  | .log => "\\log"
  | .sin => "\\sin"
  | .cos => "\\cos"
  | .tan => "\\tan"
  | .sinh => "\\sinh"
  | .cosh => "\\cosh"
  | .tanh => "\\tanh"
  | .asin => "\\operatorname\x7basin\x7d"
  | .acos => "\\operatorname\x7bacos\x7d"
  | .atan => "\\operatorname\x7batan\x7d"
  | .abs => "\\operatorname\x7babs\x7d"

end Function

namespace Form.Latex

/-- A text as a single group. -/
def group (s : String) : String := "\x7b" ++ s ++ "\x7d"

/-- A fraction with a line. -/
def fraction (top bottom : String) : String := "\\frac" ++ group top ++ group bottom

/-- A decimal, with a power of ten where it is very small or very large. -/
def decimalText (x : Binary) : String :=
  let (digits, e) := decimalParts false x
  String.ofList digits ++ if e = 0 then "" else " \\cdot 10^" ++ group (toString e)

/-- A number that is not below zero. -/
def numberText : Scalar → String
  | .exact q => if q.den = 1 then toString q.num else fraction (toString q.num) (toString q.den)
  | .decimal x => decimalText x
  | .infinite _ => "\\infty"
  | .pole => "\\tilde\x7b\\infty\x7d"
  | .undefined => "\\text\x7bNaN\x7d"

/-- The argument of a function. -/
def argument (s : String) : String := "\x7b\\left(" ++ s ++ " \\right)\x7d"

/-- An application of a function. -/
def apply (f : Function) (a : String) : String :=
  match f with
  | .abs => "\\left|" ++ group a ++ "\\right|"
  | f => f.command ++ argument a

/-- A power of an application. The exponent stands between the name and the argument, save for the
    logarithm and the absolute value. -/
def applyPower (f : Function) (a : String) (e : Piece) : String :=
  match f with
  | .abs | .log => apply f a ++ "^" ++ group e.text
  | f => f.command ++ "^" ++ group e.text ++ argument a

/-- Factors one after the other, with a dot between two numbers. -/
def product : List String → String
  | [] => ""
  | [s] => s
  | s :: t :: rest =>
    let separator := if s.back.isDigit && t.front.isDigit then " \\cdot " else " "
    s ++ separator ++ product (t :: rest)

/-- The style of LaTeX. -/
def style : Style where
  number := numberText
  constant
    | .e => "e"
    | .pi => "\\pi"
  imaginaryUnit := "i"
  between low high := "\\left\\langle " ++ low ++ ", " ++ high ++ "\\right\\rangle"
  parenthesize s := "\\left(" ++ s ++ "\\right)"
  apply := apply
  applyPower := applyPower
  power b e := b ++ "^" ++ group e.text
  decimalBase := group
  root a := "\\sqrt" ++ group a
  exponential a := "e^" ++ group a
  exponentialBelow := true
  product := product
  fraction top bottoms := fraction top (product bottoms)
  minus := "- "

end Form.Latex

/-- A form in LaTeX. -/
def Form.latex (f : Form) : Except Fault String := f.render Latex.style

end DirectionField
