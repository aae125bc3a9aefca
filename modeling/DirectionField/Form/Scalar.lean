import DirectionField.Number.Rounding

/-! # Numbers of symbolic forms

The numbers that a symbolic form is calculated with: exact fractions, decimals of limited precision,
and what is not a finite number. A decimal has a mantissa of at most `Scalar.precision` bits and an
exponent without limits. One that comes out as zero is an exact zero. -/

namespace DirectionField

/-- A number of a symbolic form. -/
inductive Scalar where
  | exact (q : Rat)
  | decimal (x : Binary)
  | infinite (negative : Bool)
  /-- The quotient of a number and zero, an infinity without a direction. -/
  | pole
  | undefined
deriving DecidableEq

namespace Scalar

instance {n : Nat} : OfNat Scalar n := ⟨.exact n⟩

/-- How many bits the mantissa of a decimal has at most. -/
def precision : Nat := 53

/-- The result of a calculation with decimals. -/
def ofBinary (b : Binary) : Scalar :=
  let x := b.round .nearest precision
  if x.mantissa = 0 then 0 else .decimal x

/-- A number of an equation; an integer is exact. -/
def ofFloat (x : Float) : Scalar :=
  match Binary.ofFloat? x with
  | some b => b.toInt?.elim (ofBinary b) fun n => .exact n
  | none => if x.isNaN then .undefined else .infinite (x < 0.0)

/-- A finite number as a decimal; anything else counts as zero. -/
def toBinary : Scalar → Binary
  | .exact q => .ofQuotient .nearest precision (q < 0) q.num.natAbs q.den
  | .decimal x => x
  | .infinite _ | .pole | .undefined => .zero

/-- The `Float` nearest to a number. -/
def toFloat : Scalar → Float
  | .infinite negative => if negative then -1.0 / 0.0 else 1.0 / 0.0
  | .pole | .undefined => 0.0 / 0.0
  | s => s.toBinary.toFloat

/-- Is the number below zero? -/
def isNegative : Scalar → Bool
  | .exact q => q < 0
  | .decimal x => x.negative
  | .infinite negative => negative
  | .pole | .undefined => false

/-- Is it a finite number? -/
def isFinite : Scalar → Bool
  | .exact _ | .decimal _ => true
  | .infinite _ | .pole | .undefined => false

/-- Is the distance from zero above that of one? -/
def isAboveOne : Scalar → Bool
  | .exact q => q.den < q.num.natAbs
  | .decimal x => 1 ≤ x.scale ∧ x.abs ≠ .one
  | .infinite _ | .pole => true
  | .undefined => false

/-- The sum of two numbers. -/
def add : Scalar → Scalar → Scalar
  | .exact p, .exact q => .exact (p + q)
  | .undefined, _ | _, .undefined | .pole, .pole => .undefined
  | .pole, .infinite _ | .infinite _, .pole => .undefined
  | .pole, _ | _, .pole => .pole
  | .infinite m, .infinite n => if m = n then .infinite m else .undefined
  | .infinite m, _ | _, .infinite m => .infinite m
  | a, b => ofBinary (.add .nearest precision a.toBinary b.toBinary)

/-- The product of two numbers. -/
def mul (a b : Scalar) : Scalar :=
  match a, b with
  | .exact p, .exact q => .exact (p * q)
  | .undefined, _ | _, .undefined => .undefined
  | .pole, s | s, .pole => if s = 0 then .undefined else .pole
  | .infinite _, s | s, .infinite _ =>
    if s = 0 then .undefined else .infinite (a.isNegative != b.isNegative)
  | a, b => ofBinary (.mul .nearest precision a.toBinary b.toBinary)

/-- The number with its sign changed. -/
def neg (a : Scalar) : Scalar := mul (.exact (-1)) a

/-- The reciprocal of a number. -/
def inv : Scalar → Scalar
  | .exact q => if q = 0 then .pole else .exact q⁻¹
  | .decimal x => ofBinary (.div .nearest precision .one x)
  | .infinite _ | .pole => 0
  | .undefined => .undefined

/-- The quotient of two numbers. A decimal is divided in one step; an exact number is multiplied by
    the reciprocal. An infinity keeps its direction when it is divided by zero. -/
def div (a b : Scalar) : Scalar :=
  match a with
  | .decimal x =>
    if b.isFinite ∧ b ≠ 0 then ofBinary (.div .nearest precision x b.toBinary) else a.mul b.inv
  | .infinite _ => if b = 0 then a else a.mul b.inv
  | _ => a.mul b.inv

/-- The number without its sign. -/
def abs (a : Scalar) : Scalar := if a.isNegative then a.neg else a

/-- The number as an integer, if it is an exact one. -/
def toInt? : Scalar → Option Int
  | .exact q => if q.den = 1 then some q.num else none
  | _ => none

end Scalar

end DirectionField
