import DirectionField.Number.Binary
import DirectionField.Number.Factor

/-! # Rounded arithmetic of binary numbers

Sums, products, quotients, roots and powers of binary numbers, rounded to a number of bits. There are
no limits to an exponent, so nothing overflows and nothing becomes too small. A result has an odd
mantissa (`Binary.normal`), so that equal numbers are equal data.

A result that goes on after the bits that are kept is cut off some bits later, and the last bit of what
is rounded then says that there is more. -/

namespace DirectionField

-- A power is that of the core library, also where another library has its own.
attribute [local instance (2000)] instPowNat

/-- Which neighbour a rounded number goes to. -/
inductive Rounding where
  /-- To the nearer one, and half way to the one with an even mantissa. -/
  | nearest
  | towardZero
deriving Repr, DecidableEq

/-- A quotient of natural numbers as a natural number. -/
def Rounding.quotient : Rounding → Nat → Nat → Nat
  | .nearest => roundDiv
  | .towardZero => (· / ·)

/-- How many binary digits a natural number has; zero has none. -/
def bitLength (n : Nat) : Nat := if n = 0 then 0 else n.log2 + 1

namespace Binary

/-- The number zero. -/
def zero : Binary := ⟨false, 0, 0⟩

/-- The number one. -/
def one : Binary := ⟨false, 1, 0⟩

/-- A number with an odd mantissa; zero has no sign. -/
def normal (b : Binary) : Binary :=
  if b.mantissa = 0 then zero
  else
    let k := multiplicity 2 b.mantissa.log2 b.mantissa
    ⟨b.negative, b.mantissa / 2 ^ k, b.exponent + k⟩

/-- The exponent of the least power of two that is above the magnitude of a number. -/
def scale (b : Binary) : Int := b.exponent + bitLength b.mantissa

/-- The number with its sign changed. -/
def neg (b : Binary) : Binary := { b with negative := !b.negative && b.mantissa ≠ 0 }

/-- The distance from zero. -/
def abs (b : Binary) : Binary := { b with negative := false }

/-- A number multiplied by a power of two. -/
def scaled (b : Binary) (k : Int) : Binary := { b with exponent := b.exponent + k }

section

variable (r : Rounding) (n : Nat)

/-- A number rounded to at most `n` bits. -/
def round (b : Binary) : Binary :=
  let surplus := bitLength b.mantissa - n
  normal ⟨b.negative, r.quotient b.mantissa (2 ^ surplus), b.exponent + surplus⟩

/-- A quotient of natural numbers. -/
def ofQuotient (negative : Bool) (num den : Nat) : Binary :=
  let k := n + 2 + bitLength den - bitLength num
  let q := num * 2 ^ k / den
  let more := if num * 2 ^ k % den = 0 then 0 else 1
  round r n ⟨negative, 2 * q + more, -k - 1⟩

/-- The product of two numbers. -/
def mul (a b : Binary) : Binary :=
  round r n ⟨a.negative != b.negative, a.mantissa * b.mantissa, a.exponent + b.exponent⟩

/-- The quotient of two numbers. -/
def div (a b : Binary) : Binary :=
  (ofQuotient r n (a.negative != b.negative) a.mantissa b.mantissa).scaled (a.exponent - b.exponent)

/-- How many places the mantissas of a sum may be apart. -/
def spanLimit : Int := 8192

/-- The sum of two numbers. One that is far below all bits of the other one is left out. -/
def add (a b : Binary) : Binary :=
  if a.mantissa = 0 ∨ a.exponent + spanLimit < b.exponent ∧ b.mantissa ≠ 0 then round r n b
  else if b.mantissa = 0 ∨ b.exponent + spanLimit < a.exponent then round r n a
  else
    let e := min a.exponent b.exponent
    let sum := a.signed * 2 ^ (a.exponent - e).toNat + b.signed * 2 ^ (b.exponent - e).toNat
    round r n ⟨sum < 0, sum.natAbs, e⟩

/-- The square root of a number that is not below zero. -/
def sqrt (b : Binary) : Binary :=
  -- the exponent of a square is even
  let k := if b.exponent % 2 = 0 then 2 * n + 4 else 2 * n + 5
  let square := b.mantissa * 2 ^ k
  let root := square.sqrt
  let more := if root * root = square then 0 else 1
  round r n ⟨false, 2 * root + more, (b.exponent - k) / 2 - 1⟩

end

/-- The product of `product` and the power `b ^ k`, where no product has more than `w` bits. -/
def mulPower (w : Nat) (product b : Binary) (k : Nat) : Binary :=
  if k = 0 then product
  else
    let product := if k % 2 = 1 then mul .towardZero w product b else product
    if k = 1 then product else mulPower w product (mul .towardZero w b b) (k / 2)
termination_by k

/-- Up to how many bits a power is worked out exactly. -/
def exactPowerBits : Nat := 1000

/-- A power of a number. A long one is multiplied up from products with some bits more than are
    kept, as many as the number of products makes necessary. -/
def pow (r : Rounding) (n : Nat) (b : Binary) (k : Nat) : Binary :=
  let negative := b.negative && k % 2 = 1
  if b.mantissa = 1 then ⟨negative, 1, b.exponent * k⟩
  else if bitLength b.mantissa * k < exactPowerBits then
    round r n ⟨negative, b.mantissa ^ k, b.exponent * k⟩
  else round r n (mulPower (n + 4 * bitLength k + 4) one b k)

/-- A power with an integer as exponent. -/
def zpow (n : Nat) (b : Binary) (k : Int) : Binary :=
  if 0 ≤ k then pow .nearest n b k.toNat
  else if k = -1 then div .nearest n one b
  else div .nearest n one (pow .nearest (n + 5) b k.natAbs)

/-- The `Float` nearest to a number. -/
def toFloat (b : Binary) : Float :=
  let bits := if 2048 < b.scale then infinityBits
    else if b.scale < -2048 then 0
    else if 0 ≤ b.exponent then nearestBits (b.mantissa * 2 ^ b.exponent.toNat) 1
    else nearestBits b.mantissa (2 ^ (-b.exponent).toNat)
  floatOfMagnitude b.negative bits

end Binary

end DirectionField
