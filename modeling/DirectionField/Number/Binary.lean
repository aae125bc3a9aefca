/-! # Binary64 numbers as integers

A finite `Float` is a sign, a natural mantissa and a power of two. Whatever has to be exact — the
text of a number, its ceiling, reading it back — is done on this form in integer arithmetic.

* `Binary.ofFloat?` takes a finite `Float` apart.
* `nearestBits` finds the `Float` nearest to a positive fraction, with ties to the even mantissa. -/

namespace DirectionField

-- A power is that of the core library, also where another library has its own.
attribute [local instance (2000)] instPowNat

/-- The number `± mantissa * 2 ^ exponent`. -/
structure Binary where
  /-- Whether the sign bit is set; zero has a sign too. -/
  negative : Bool
  mantissa : Nat
  exponent : Int
deriving Repr, DecidableEq

/-- The lower 63 bits of a number: all but its sign. -/
def magnitudeBits (x : Float) : Nat := x.toBits.toNat % 2 ^ (63 : Nat)

/-- Is the sign bit set? It is for `-0.0`. -/
def signBit (x : Float) : Bool := x.toBits.toNat / 2 ^ (63 : Nat) = 1

namespace Binary

/-- The number with a given sign and magnitude: one with exponent field zero is subnormal, any other
    has a leading bit that is not stored. -/
def ofBits (negative : Bool) (bits : Nat) : Binary :=
  if bits / 2 ^ (52 : Nat) = 0 then ⟨negative, bits, -1074⟩
  else ⟨negative, bits % 2 ^ (52 : Nat) + 2 ^ (52 : Nat), (bits / 2 ^ (52 : Nat) : Nat) - 1075⟩

/-- The parts of a finite number; `none` for a NaN and the infinities. -/
def ofFloat? (x : Float) : Option Binary :=
  if x.isFinite then some (ofBits (signBit x) (magnitudeBits x)) else none

/-- The mantissa with its sign. -/
def signed (b : Binary) : Int := if b.negative then -b.mantissa else b.mantissa

/-- The least integer that is not below the number. -/
def ceil (b : Binary) : Int :=
  if 0 ≤ b.exponent then b.signed * 2 ^ b.exponent.toNat
  else -(-b.signed / 2 ^ (-b.exponent).toNat)

/-- The number as an integer, if it is one. -/
def toInt? (b : Binary) : Option Int :=
  if 0 ≤ b.exponent then some (b.signed * 2 ^ b.exponent.toNat)
  else if b.mantissa % 2 ^ (-b.exponent).toNat = 0 then
    some (b.signed / 2 ^ (-b.exponent).toNat)
  else none

end Binary

/-- The quotient rounded to the nearest integer, a half going to the even neighbour. -/
def roundDiv (num den : Nat) : Nat :=
  let q := num / den
  let r := num % den
  if 2 * r < den ∨ (2 * r = den ∧ q % 2 = 0) then q else q + 1

/-- The exponent of the greatest power of two that is not above the fraction. -/
def floorLog2 (num den : Nat) : Int :=
  let guess : Int := num.log2 - den.log2
  let below := if 0 ≤ guess then num < den * 2 ^ guess.toNat
    else num * 2 ^ (-guess).toNat < den
  if below then guess - 1 else guess

/-- The bit pattern of positive infinity, one above that of the greatest finite number. -/
def infinityBits : Nat := 0x7ff0000000000000

/-- The bit pattern of the `Float` nearest to the fraction `num / den`. The unit in the last place
    leaves 53 bits to the mantissa, but is never below `2 ^ -1074`. Bit patterns are ordered as the
    numbers are, so a mantissa that rounds up to `2 ^ 53` carries into the exponent field, and one
    that leaves the finite range ends at infinity. -/
def nearestBits (num den : Nat) : Nat :=
  if num = 0 then 0
  else
    let unit := max (-1074) (floorLog2 num den - 52)
    -- the fraction in units, as a quotient of natural numbers
    let mantissa := if 0 ≤ unit then roundDiv num (den * 2 ^ unit.toNat)
      else roundDiv (num * 2 ^ (-unit).toNat) den
    min ((unit + 1074).toNat * 2 ^ (52 : Nat) + mantissa) infinityBits

/-- The `Float` with a given magnitude and sign. -/
def floatOfMagnitude (negative : Bool) (bits : Nat) : Float :=
  Float.ofBits (UInt64.ofNat (if negative then bits + 2 ^ (63 : Nat) else bits))

end DirectionField
