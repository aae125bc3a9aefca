import DirectionField.Batch
import DirectionField.Fault

/-! # Values

What the parts of an equation evaluate to: a batch of real numbers, or one of complex numbers. An
equation at a single point has batches without axes for its values; over a lattice it has batches of
the lattice's shape. Complex values and batches of other shapes arise only from implementations that
a caller provides. -/

namespace DirectionField

/-- A complex number. -/
structure Complex where
  re : Float
  im : Float

namespace Complex

/-- A real number as a complex one. -/
def ofReal (x : Float) : Complex := ⟨x, 0.0⟩

/-- The quotient, scaled by the larger part of the divisor so that no square is formed. -/
def div (a b : Complex) : Complex :=
  if b.im.abs ≤ b.re.abs then
    let r := b.im / b.re
    let d := b.re + b.im * r
    ⟨(a.re + a.im * r) / d, (a.im - a.re * r) / d⟩
  else
    let r := b.re / b.im
    let d := b.re * r + b.im
    ⟨(a.re * r + a.im) / d, (a.im * r - a.re) / d⟩

instance : Add Complex := ⟨fun a b => ⟨a.re + b.re, a.im + b.im⟩⟩
instance : Sub Complex := ⟨fun a b => ⟨a.re - b.re, a.im - b.im⟩⟩
instance : Mul Complex := ⟨fun a b => ⟨a.re * b.re - a.im * b.im, a.re * b.im + a.im * b.re⟩⟩
instance : Div Complex := ⟨div⟩
instance : Neg Complex := ⟨fun a => ⟨-a.re, -a.im⟩⟩

/-- The distance from zero. -/
def abs (a : Complex) : Float := (a.re * a.re + a.im * a.im).sqrt

end Complex

/-- What a part of an equation evaluates to. -/
inductive Value where
  | real (b : Batch Float)
  | complex (b : Batch Complex)

namespace Value

/-- A single real number. -/
def ofFloat (x : Float) : Value := .real (.scalar x)

/-- The extents of a value. -/
def shape : Value → List Nat
  | .real b => b.shape
  | .complex b => b.shape

/-- A value with its numbers taken as complex ones. -/
def toComplex : Value → Batch Complex
  | .real b => b.map Complex.ofReal
  | .complex b => b

/-- The number of a value that is a single real one. -/
def toFloat : Value → Except Fault Float
  | .real ⟨[], get⟩ => .ok (get [])
  | _ => .error .notOneReal

/-- Is the value a single real number? -/
def isOneReal : Value → Bool
  | .real b => b.shape.isEmpty
  | .complex _ => false

/-- Apply a function of one number to every number of a value. -/
def map (f : Float → Float) (g : Complex → Complex) : Value → Value
  | .real b => .real (b.map f)
  | .complex b => .complex (b.map g)

/-- Combine two batches, or signal that their shapes do not fit. -/
def combine {α β : Type} (f : α → α → β) (a b : Batch α) : Except Fault (Batch β) :=
  match Batch.zipWith? f a b with
  | some c => .ok c
  | none => .error (.operandShapes a.shape b.shape)

/-- Apply a function of two numbers to two values element by element; they are real numbers if both
    values are real. -/
def zipWith (f : Float → Float → Float) (g : Complex → Complex → Complex) (a b : Value) :
    Except Fault Value :=
  match a, b with
  | .real a, .real b => (combine f a b).map .real
  | a, b => (combine g a.toComplex b.toComplex).map .complex

/-- The sum of two values. -/
def add (a b : Value) : Except Fault Value := zipWith (· + ·) (· + ·) a b

/-- The difference of two values. -/
def sub (a b : Value) : Except Fault Value := zipWith (· - ·) (· - ·) a b

/-- The product of two values. -/
def mul (a b : Value) : Except Fault Value := zipWith (· * ·) (· * ·) a b

/-- The quotient of two values; division by zero gives an infinity or a NaN. -/
def div (a b : Value) : Except Fault Value := zipWith (· / ·) (· / ·) a b

/-- The value with every sign changed. -/
def neg (a : Value) : Value := a.map (-·) (-·)

end Value

end DirectionField
