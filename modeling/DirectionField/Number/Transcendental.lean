import DirectionField.Number.FixedPoint
import DirectionField.Number.Rounding

/-! # Rounded functions of binary numbers

The elementary functions of binary numbers, each rounded to a number of bits. A function is worked out
on fixed-point numbers with many more places than are kept; very small arguments, where the function
is as good as its argument or constant, and very large ones are set apart before that. A result is
`none` where the function has no real value or where its argument is too large to be worked with. -/

namespace DirectionField.Binary

-- A power is that of the core library, also where another library has its own.
attribute [local instance (2000)] instPowNat

/-- The magnitude of a number as a fixed-point number. -/
def toFixed (w : Nat) (b : Binary) : Nat :=
  let e := b.exponent + w
  if 0 ≤ e then b.mantissa * 2 ^ e.toNat else b.mantissa / 2 ^ (-e).toNat

/-- The scale up to which an argument is worked with. -/
def scaleLimit : Int := 4096

section

variable (r : Rounding) (n : Nat)

/-- A fixed-point number, rounded. -/
def ofFixed (w : Nat) (x : Int) : Binary := round r n ⟨x < 0, x.natAbs, -w⟩

/-- The places that are worked with: twice the bits that are kept, so that what is lost near a zero
    of a function does not matter, and some more. -/
def workingPlaces : Nat := 2 * n + 128

/-- Is the number so small that its square is not seen next to one? -/
def isTiny (b : Binary) : Bool := b.mantissa = 0 || b.scale < -n

/-- Half a turn, `π`. -/
def halfTurn : Binary := ofFixed r n (workingPlaces n) (FixedPoint.halfTurn (workingPlaces n))

/-- A quarter of a turn. -/
def quarterTurn : Binary := (halfTurn r n).scaled (-1)

/-- The exponential. A multiple of the logarithm of two goes into the exponent. -/
def exp? (b : Binary) : Option Binary :=
  if b.isTiny n then some one
  else if scaleLimit < b.scale then none
  else
    let w := workingPlaces n + b.scale.toNat
    let x : Int := if b.negative then -(b.toFixed w) else b.toFixed w
    let k := x / (FixedPoint.log2 w)
    let rest := (x % (FixedPoint.log2 w)).toNat
    some ((ofFixed r n w (FixedPoint.exp w rest)).scaled k)

/-- The logarithm of a positive number. A power of two is taken out, so that a number between three
    quarters and three halves is left. -/
def log? (b : Binary) : Option Binary :=
  if b.negative ∨ b.mantissa = 0 then none
  else
    let length := bitLength b.mantissa
    let isUpper := 3 * 2 ^ length ≤ 4 * b.mantissa
    let k := if isUpper then b.scale else b.scale - 1
    let w := workingPlaces n + 2 * length + bitLength k.natAbs
    let near := toFixed w ⟨false, b.mantissa, b.exponent - k⟩
    some (ofFixed r n w (k * FixedPoint.log2 w + FixedPoint.logNearOne w near))

/-- Sine and cosine as fixed-point numbers, and the number of their places. -/
def sinCos? (b : Binary) : Option (Int × Int × Nat) :=
  if scaleLimit < b.scale then none
  else
    let w := workingPlaces n + b.scale.toNat
    let quarter := FixedPoint.halfTurn w / 2
    let x := b.toFixed w
    let sin := FixedPoint.sin w (x % quarter)
    let cos := FixedPoint.cos w (x % quarter)
    let (sin, cos) := match x / quarter % 4 with
      | 0 => (sin, cos)
      | 1 => (cos, -sin)
      | 2 => (-sin, -cos)
      | _ => (-cos, sin)
    some (if b.negative then -sin else sin, cos, w)

/-- The sine. -/
def sin? (b : Binary) : Option Binary :=
  if b.isTiny n then some (round r n b)
  else (sinCos? n b).map fun (sin, _, w) => ofFixed r n w sin

/-- The cosine. -/
def cos? (b : Binary) : Option Binary :=
  if b.isTiny n then some one
  else (sinCos? n b).map fun (_, cos, w) => ofFixed r n w cos

/-- The tangent. -/
def tan? (b : Binary) : Option Binary :=
  if b.isTiny n then some (round r n b)
  else (sinCos? n b).map fun (sin, cos, _) =>
    ofQuotient r n ((sin < 0) != (cos < 0)) sin.natAbs cos.natAbs

/-- The exponentials of a magnitude and of its negative, as fixed-point numbers. -/
def expPair (w : Nat) (b : Binary) : Nat × Nat :=
  let x := b.toFixed w
  let grown := FixedPoint.exp w (x % FixedPoint.log2 w) * 2 ^ (x / FixedPoint.log2 w)
  (grown, 2 ^ (2 * w) / grown)

/-- The scale from which on the smaller of two exponentials is not seen next to the greater one. -/
def lonelyScale : Int := bitLength n + 1

/-- The hyperbolic sine. -/
def sinh? (b : Binary) : Option Binary :=
  if b.isTiny n then some (round r n b)
  else if lonelyScale n < b.scale then
    (exp? r n b.abs).map fun e => { e.scaled (-1) with negative := b.negative }
  else
    let w := workingPlaces n
    let (grown, shrunk) := expPair w b
    some { ofFixed r n (w + 1) (grown - shrunk : Nat) with negative := b.negative }

/-- The hyperbolic cosine. -/
def cosh? (b : Binary) : Option Binary :=
  if b.isTiny n then some one
  else if lonelyScale n < b.scale then (exp? r n b.abs).map (·.scaled (-1))
  else
    let w := workingPlaces n
    let (grown, shrunk) := expPair w b
    some (ofFixed r n (w + 1) (grown + shrunk : Nat))

/-- The hyperbolic tangent. -/
def tanh (b : Binary) : Binary :=
  if b.isTiny n then round r n b
  else if lonelyScale n < b.scale then { one with negative := b.negative }
  else
    let (grown, shrunk) := expPair (workingPlaces n) b
    ofQuotient r n b.negative (grown - shrunk) (grown + shrunk)

/-- The magnitude of a number as a quotient of natural numbers. -/
def toQuotient (b : Binary) : Nat × Nat :=
  if 0 ≤ b.exponent then (b.mantissa * 2 ^ b.exponent.toNat, 1)
  else (b.mantissa, 2 ^ (-b.exponent).toNat)

/-- The angle with a given tangent. -/
def atan (b : Binary) : Binary :=
  if b.isTiny n then round r n b
  else
    let magnitude := if workingPlaces n < b.scale then quarterTurn r n
      else
        let (y, x) := b.toQuotient
        ofFixed r n (workingPlaces n) (FixedPoint.angle (workingPlaces n) y x)
    { magnitude with negative := b.negative }

/-- The angles with a given sine and a given cosine between zero and one, as fixed-point numbers. -/
def anglesOf? (b : Binary) : Option (Nat × Nat) :=
  let w := workingPlaces n
  let (y, hypotenuse) := b.toQuotient
  if hypotenuse < y then none
  else
    let x := ((hypotenuse * hypotenuse - y * y) * 2 ^ (2 * w)).sqrt
    some (FixedPoint.angle w (y * 2 ^ w) x, FixedPoint.angle w x (y * 2 ^ w))

/-- The angle with a given sine. -/
def asin? (b : Binary) : Option Binary :=
  if b.isTiny n then some (round r n b)
  else if 1 < b.scale then none
  else (anglesOf? n b).map fun (a, _) =>
    { ofFixed r n (workingPlaces n) a with negative := b.negative }

/-- The angle with a given cosine. -/
def acos? (b : Binary) : Option Binary :=
  let w := workingPlaces n
  if b.scale < -w then some (quarterTurn r n)
  else if 1 < b.scale then none
  else (anglesOf? n b).map fun (_, a) =>
    ofFixed r n w (if b.negative then FixedPoint.halfTurn w - a else a : Nat)

end

/-- The inverse of the hyperbolic cosine, for a number of at least one. The number whose
    logarithm it is, the sum of the given one and the root of its square less one, is cut off
    some bits later. -/
def acosh? (n : Nat) (b : Binary) : Option Binary :=
  let m := n + 15
  let square := add .towardZero m (mul .towardZero (2 * m) b b) one.neg
  if square.negative then none
  else log? .nearest n (add .towardZero m b (sqrt .towardZero m square))

/-- A power of a positive number. A half in the exponent is a square root, and any other exponent
    that is no integer goes through the logarithm. -/
def power? (n : Nat) (b e : Binary) : Option Binary :=
  let k : Int := e.signed
  if 0 ≤ e.exponent then
    if scaleLimit < e.scale then none else some (zpow n b (k * 2 ^ e.exponent.toNat))
  else if e.exponent = -1 then
    if k = 1 then some (sqrt .nearest n b) else some (zpow n (sqrt .nearest (n + 10) b) k)
  else do
    let l ← log? .nearest (n + 10) b
    exp? .nearest n (mul .nearest (bitLength l.mantissa + bitLength e.mantissa) e l)

end DirectionField.Binary
