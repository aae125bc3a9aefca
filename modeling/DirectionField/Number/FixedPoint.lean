/-! # Functions of fixed-point numbers

A fixed-point number with `w` places stands for an integer times `2 ^ -w`. Each function here is a sum
of a series, taken until a term is below the last place; a sum has at most `w` terms, since every
series used has terms that are at least halved from one to the next, or soon are. What is lost in the
terms is below `w` units for each of them, so that all but the last few places of a result are right.

* `log2`, `halfTurn`: the constants `log 2` and `π`
* `exp`, `logNearOne`: exponential and logarithm of numbers near zero and one
* `angle`: the angle of a point, from which come the inverse functions of sine, cosine and tangent
* `sin`, `cos`: of an angle in the first quadrant -/

namespace DirectionField.FixedPoint

-- A power is that of the core library, also where another library has its own.
attribute [local instance (2000)] instPowNat

variable (w : Nat)

/-- The number one. -/
def one : Nat := 2 ^ w

/-- The product of two numbers. -/
def mul (a b : Nat) : Nat := a * b / 2 ^ w

/-- The term `term` of the series of `exp r` and the ones after it; `k` of them come before. -/
def expFrom (r : Nat) : Nat → Nat → Nat → Nat
  | 0, _, _ => 0
  | fuel + 1, k, term =>
    if term = 0 then 0 else term + expFrom r fuel (k + 1) (mul w term r / (k + 1))

/-- The exponential of a number below one. -/
def exp (r : Nat) : Nat := expFrom w r (w + 1) 0 (one w)

/-- The sum of `power / (2 * k + 1)` and the terms after it, where each power is the one before
    times `square`. -/
def atanhFrom (square : Nat) : Nat → Nat → Nat → Nat
  | 0, _, _ => 0
  | fuel + 1, k, power =>
    if power = 0 then 0
    else power / (2 * k + 1) + atanhFrom square fuel (k + 1) (mul w power square)

/-- The inverse hyperbolic tangent of a number below one half. -/
def atanh (z : Nat) : Nat := atanhFrom w (mul w z z) (w + 1) 0 z

/-- The logarithm of a number between one half and two. -/
def logNearOne (x : Nat) : Int :=
  if one w ≤ x then 2 * atanh w ((x - one w) * 2 ^ w / (x + one w))
  else -(2 * atanh w ((one w - x) * 2 ^ w / (one w + x)))

/-- The logarithm of two. -/
def log2 : Nat := 2 * atanh w (one w / 3)

/-- The logarithm of ten, which is eight times five quarters. -/
def log10 : Nat := 3 * log2 w + 2 * atanh w (one w / 9)

/-- The term `term` of the series for an angle and the ones after it; `k` of them come before, and
    `ratio` is the square of the sine. The first one is the product of sine and cosine. -/
def angleFrom (ratio : Nat) : Nat → Nat → Nat → Nat
  | 0, _, _ => 0
  | fuel + 1, k, term =>
    if term = 0 then 0
    else
      term + angleFrom ratio fuel (k + 1) (mul w term ratio * (2 * k + 2) / (2 * k + 3))

/-- The angle between the first axis and the direction to the point `(x, y)`, where `y ≤ x`. The
    coordinates may be in any unit. -/
def smallAngle (y x : Nat) : Nat :=
  let square := x * x + y * y
  angleFrom w (y * y * 2 ^ w / square) (w + 1) 0 (x * y * 2 ^ w / square)

/-- Half a turn, `π`. -/
def halfTurn : Nat := 4 * (4 * smallAngle w 1 5 - smallAngle w 1 239)

/-- The angle between the first axis and the direction to the point `(x, y)` of the first
    quadrant. -/
def angle (y x : Nat) : Nat :=
  if y ≤ x then smallAngle w y x else halfTurn w / 2 - smallAngle w x y

/-- The term `term` of the series of the sine or the cosine and the ones after it, with alternating
    signs; `term` has the power `k`, and each power is the one before times `square`. -/
def alternatingFrom (square : Nat) : Nat → Nat → Nat → Int
  | 0, _, _ => 0
  | fuel + 1, k, term =>
    if term = 0 then 0
    else term - alternatingFrom square fuel (k + 2) (mul w term square / ((k + 1) * (k + 2)))

/-- The sine of an angle in the first quadrant. -/
def sin (r : Nat) : Int := alternatingFrom w (mul w r r) (w + 1) 1 r

/-- The cosine of an angle in the first quadrant. -/
def cos (r : Nat) : Int := alternatingFrom w (mul w r r) (w + 1) 0 (one w)

end DirectionField.FixedPoint
