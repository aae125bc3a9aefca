import DirectionField.Number.Binary

/-! # Decimal numbers

A decimal is a natural coefficient and a power of ten. Every finite binary number is a decimal
exactly (`Decimal.ofBinary`); from that form come its rounding to a number of significant digits
(`Decimal.round`), the shortest decimal that stands for it (`Decimal.shortest`), and the way back
(`Decimal.toFloat`). -/

namespace DirectionField

-- A power is that of the core library, also where another library has its own.
attribute [local instance (2000)] instPowNat

/-- The number `coefficient * 10 ^ exponent`. -/
structure Decimal where
  coefficient : Nat
  exponent : Int
deriving Repr, DecidableEq

namespace Decimal

/-- The number of digits in base ten; zero has one. -/
def digitCount (n : Nat) : Nat := (Nat.toDigits 10 n).length

/-- A binary number as a decimal: a power of two below one is a power of five over one of ten. -/
def ofBinary (b : Binary) : Decimal :=
  if 0 ≤ b.exponent then ⟨b.mantissa * 2 ^ b.exponent.toNat, 0⟩
  else ⟨b.mantissa * 5 ^ (-b.exponent).toNat, b.exponent⟩

/-- The bit pattern of the `Float` nearest to a decimal. A decimal of at least `10 ^ 309` is beyond
    the finite range and one below `10 ^ -324` is nearer to zero than to any other number, so that
    no greater power of ten is ever computed. -/
def toBits (d : Decimal) : Nat :=
  let scale := digitCount d.coefficient + d.exponent
  if d.coefficient = 0 ∨ scale ≤ -324 then 0
  else if 310 ≤ scale then infinityBits
  else if 0 ≤ d.exponent then nearestBits (d.coefficient * 10 ^ d.exponent.toNat) 1
  else nearestBits d.coefficient (10 ^ (-d.exponent).toNat)

/-- The `Float` nearest to a decimal, with a sign. -/
def toFloat (negative : Bool) (d : Decimal) : Float := floatOfMagnitude negative d.toBits

/-- A decimal without trailing zeros in its coefficient, tried `n` times. -/
def trimZeros : Nat → Decimal → Decimal
  | 0, d => d
  | n + 1, d =>
    if d.coefficient % 10 = 0 then trimZeros n ⟨d.coefficient / 10, d.exponent + 1⟩ else d

/-- A decimal without trailing zeros in its coefficient; zero is left alone. -/
def trim (d : Decimal) : Decimal :=
  if d.coefficient = 0 then d else trimZeros (digitCount d.coefficient) d

/-- A decimal rounded to at most `n` significant digits, where `quotient` rounds a quotient.
    Rounding up to the next power of ten leaves one digit too many, which is a zero. -/
def roundBy (quotient : Nat → Nat → Nat) (n : Nat) (d : Decimal) : Decimal :=
  let surplus := digitCount d.coefficient - n
  if surplus = 0 then d
  else
    let c := quotient d.coefficient (10 ^ surplus)
    -- 99.6 in two digits is 1.0e2, not 100
    if c = 10 ^ n then ⟨c / 10, d.exponent + surplus + 1⟩ else ⟨c, d.exponent + surplus⟩

/-- A decimal rounded to at most `n` significant digits, a half going to the even neighbour. -/
def round (n : Nat) (d : Decimal) : Decimal := d.roundBy roundDiv n

/-- The decimals on both sides of a decimal whose last `surplus` digits are left out, the nearer one
    first and of two equally near ones the even one. -/
def neighbours (surplus : Nat) (d : Decimal) : List Decimal :=
  if surplus = 0 then [d]
  else
    let below := d.coefficient / 10 ^ surplus
    let nearest := roundDiv d.coefficient (10 ^ surplus)
    let other := if nearest = below then below + 1 else below
    [⟨nearest, d.exponent + surplus⟩, ⟨other, d.exponent + surplus⟩]

/-- The decimal with the fewest significant digits whose nearest `Float` has the given magnitude,
    and of those the nearest; seventeen digits always suffice. -/
def shortest (bits : Nat) : Decimal :=
  let exact := ofBinary (.ofBits false bits)
  let count := digitCount exact.coefficient
  let found := (List.range' 1 17).findSome? fun n =>
    ((exact.neighbours (count - n)).map trim).find? fun d => d.toBits == bits
  found.getD exact.trim

end Decimal

end DirectionField
