import DirectionField.Form.Basic
import DirectionField.Number.Integer
import DirectionField.Number.Magnitude
import DirectionField.Number.Text

/-! # The layout of symbolic forms

A form is laid out as a sum of fractions: each has a sign, and factors above and below a line. The
factors are texts that know how tightly they bind, so that parentheses are put where they are needed.
What the texts look like is a matter of style (`Style`); which factor goes where is not.

A form with an integer of too many digits has no text. -/

namespace DirectionField

-- A power is that of the core library, also where another library has its own.
attribute [local instance (2000)] instPowNat

/-- How tightly a text binds. -/
inductive Binding where
  | sum
  | product
  | power
  | atom
deriving DecidableEq

/-- The rank of a binding; what binds more tightly ranks higher. -/
def Binding.rank : Binding → Nat
  | .sum => 0
  | .product => 1
  | .power => 2
  | .atom => 3

/-- A text that can be a factor. -/
structure Piece where
  binding : Binding
  text : String

/-- A term of a sum. -/
structure Fraction where
  negative : Bool
  /-- Whether it is a single number without a line, whose sign stands close to it. -/
  isNumber : Bool
  above : List Piece
  below : List Piece

/-- How forms are written. -/
structure Style where
  /-- A number that is not below zero. -/
  number : Scalar → String
  constant : Constant → String
  imaginaryUnit : String
  /-- A number between two bounds. -/
  between : String → String → String
  parenthesize : String → String
  apply : Function → String → String
  /-- A power of an application. -/
  applyPower : Function → String → Piece → String
  power : String → Piece → String
  /-- A decimal as the base of a power. -/
  decimalBase : String → String
  root : String → String
  exponential : String → String
  /-- Whether a negative power of `e` goes below the line. -/
  exponentialBelow : Bool
  product : List String → String
  fraction : String → List String → String
  /-- The sign in front of the first term. -/
  minus : String

namespace Style

variable (style : Style)

/-- A text in parentheses unless it binds more tightly than its surroundings. -/
def within (outer : Binding) (p : Piece) : String :=
  if p.binding.rank ≤ outer.rank then style.parenthesize p.text else p.text

/-- A fraction without its sign. -/
def magnitude (f : Fraction) : String :=
  let above := f.above.map (style.within .product)
  let top := if above.isEmpty then style.number 1 else style.product above
  if f.below.isEmpty then top else style.fraction top (f.below.map (style.within .product))

/-- The first term of a sum. -/
def firstTerm (f : Fraction) : String :=
  if f.negative then (if f.isNumber then "-" else style.minus) ++ style.magnitude f
  else style.magnitude f

/-- A term that is not the first. -/
def laterTerm (f : Fraction) : String :=
  (if f.negative then " - " else " + ") ++ style.magnitude f

/-- A sum of fractions. -/
def sum : List Fraction → String
  | [] => style.number 0
  | f :: fs => style.firstTerm f ++ String.join (fs.map style.laterTerm)

/-- A sum of fractions as a factor. -/
def piece (fs : List Fraction) : Piece :=
  let binding := match fs with
    | [⟨false, _, [p], []⟩] => p.binding
    | [⟨false, _, _, _⟩] => .product
    | _ => .sum
  ⟨binding, style.sum fs⟩

end Style

namespace Fraction

/-- A factor above the line. -/
def ofAbove (p : Piece) : Fraction := ⟨false, false, [p], []⟩

/-- A factor below the line. -/
def ofBelow (p : Piece) : Fraction := ⟨false, false, [], [p]⟩

/-- A number. The parts of an exact fraction go above and below the line, where a one is left
    out. -/
def ofScalar (style : Style) (s : Scalar) : Fraction :=
  let atom (s : Scalar) : List Piece := if s = 1 then [] else [⟨.atom, style.number s⟩]
  match s.abs with
  | .exact q =>
    ⟨s.isNegative, q.den = 1, atom (.exact q.num), atom (.exact q.den)⟩
  | t => ⟨s.isNegative, true, atom t, []⟩

/-- The product of two fractions. -/
def mul (f g : Fraction) : Fraction :=
  ⟨f.negative != g.negative, false, f.above ++ g.above, f.below ++ g.below⟩

/-- A sum of fractions as a single one. -/
def ofSum (style : Style) : List Fraction → Fraction
  | [f] => f
  | fs => ofAbove (style.piece fs)

/-- A power of `base` that is not an exponential; `raised` writes it with a given exponent. A square
    root has a sign of its own, and a negative power goes below the line. -/
def ofPower (style : Style) (base : Piece) (raised : Piece → String) (exponent : Form)
    (exponentPiece : Piece) : Fraction :=
  match exponent with
  | .number s =>
    let factor := if s.abs = .exact (1 / 2) then ⟨.power, style.root base.text⟩
      else if s.abs = 1 then base
      else if s.isNegative then ⟨.power, raised ⟨.atom, style.number s.abs⟩⟩
      else ⟨.power, raised exponentPiece⟩
    if s.isNegative then ofBelow factor else ofAbove factor
  | _ => ofAbove ⟨.power, raised exponentPiece⟩

/-- A factor of a product, where a negative power of `e` may go below the line. -/
def asFactor (style : Style) (f : Form) (laidOut : Fraction) : Fraction :=
  match f with
  | .power (.constant .e) (.number s) =>
    if style.exponentialBelow ∧ s.isNegative then
      ofBelow (if s.abs = 1 then ⟨.atom, style.constant .e⟩
        else ⟨.atom, style.exponential (style.sum [ofScalar style s.abs])⟩)
    else laidOut
  | _ => laidOut

end Fraction

namespace Scalar

/-- Has an integer of the number too many digits to be written? -/
def isTooLong : Scalar → Bool
  | .exact q => NumberText.isTooLong q.num || NumberText.isTooLong q.den
  | _ => false

end Scalar

namespace Form

/-- Has a number in the form too many digits to be written? An integer power of an integer is there
    only if it was too long to be worked out. -/
def isTooLong : Form → Bool
  | .number s => s.isTooLong
  | .power (.number (.exact p)) (.number (.exact q)) =>
    q.den = 1 || Scalar.isTooLong (.exact p) || Scalar.isTooLong (.exact q)
  | .power a b | .product a b | .sum a b => a.isTooLong || b.isTooLong
  | .apply _ a => a.isTooLong
  | .constant _ | .imaginaryUnit | .between .. | .var _ => false

/-- Is it a decimal? -/
def isDecimal : Form → Bool
  | .number (.decimal _) => true
  | _ => false

variable (style : Style)

/-- The terms of a form as fractions. -/
def layout : Form → List Fraction
  | .number s => [.ofScalar style s]
  | .constant c => [.ofAbove ⟨.atom, style.constant c⟩]
  | .imaginaryUnit => [.ofAbove ⟨.atom, style.imaginaryUnit⟩]
  | .between low high =>
    [.ofAbove ⟨.atom,
      style.between (style.sum [.ofScalar style low]) (style.sum [.ofScalar style high])⟩]
  | .var v => [.ofAbove ⟨.atom, v.name⟩]
  | .apply f a => [.ofAbove ⟨.atom, style.apply f (style.sum (layout a))⟩]
  | .power (.constant .e) e => [.ofAbove ⟨.atom, style.exponential (style.sum (layout e))⟩]
  | .power (.apply f a) e =>
    let argument := style.sum (layout a)
    [.ofPower style ⟨.atom, style.apply f argument⟩ (style.applyPower f argument) e
      (style.piece (layout e))]
  | .power b e =>
    let base := style.piece (layout b)
    let written := style.within .power base
    let written := if b.isDecimal then style.decimalBase written else written
    [.ofPower style base (style.power written) e (style.piece (layout e))]
  | .product l r =>
    [(Fraction.asFactor style l (.ofSum style (layout l))).mul
      (Fraction.asFactor style r (.ofSum style (layout r)))]
  | .sum l r => layout l ++ layout r

/-- The text of a form in a style. -/
def render (f : Form) : Except Fault String :=
  if f.isTooLong then .error (.integerTooLong NumberText.digitLimit)
  else .ok (style.sum (f.layout style))

end Form

/-! ## Decimals -/

/-- The quotient rounded to the nearest integer, a half going up. -/
def roundHalfUp (num den : Nat) : Nat := (2 * num + den) / (2 * den)

/-- How many significant digits of a decimal are shown. -/
def Form.decimalDigits : Nat := 15

/-- The digits of the magnitude of a decimal, with a point, and the power of ten that they are
    multiplied by. Unless all digits are shown, the zeros at the end of those behind the point are
    left out, save for one. -/
def Form.decimalParts (allDigits : Bool) (x : Binary) : List Char × Int :=
  let d := (Decimal.ofAnyBinary x).roundBy roundHalfUp decimalDigits
  let ds := NumberText.digits d.coefficient
  let e := ds.length + d.exponent - 1
  let ds := ds ++ List.replicate (decimalDigits - ds.length) '0'
  let isPositional := -5 < e ∧ e < decimalDigits
  let (whole, fraction) := NumberText.positional ds (if isPositional then e + 1 else 1)
  let kept := (fraction.reverse.dropWhile (· = '0')).reverse
  let shown := if allDigits then fraction else if kept.isEmpty then ['0'] else kept
  (whole ++ '.' :: shown, if isPositional then 0 else e)

end DirectionField
