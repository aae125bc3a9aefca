import DirectionField.Number.Decimal
import DirectionField.Number.Transcendental

/-! # Decimals of very large and very small numbers

A binary number with a moderate exponent is a decimal exactly. Of one that is beyond that, a power of
ten is taken out first, and what is left has enough bits for all digits that are ever shown. -/

namespace DirectionField

/-- How many powers of ten are in `2 ^ e`, without a fraction. -/
def tensOfTwos (e : Int) : Int :=
  let w := bitLength e.natAbs + 64
  let tens : Int := e.natAbs * FixedPoint.log2 w / FixedPoint.log10 w
  if e < 0 then -tens else tens

namespace Decimal

/-- The scale up to which a number is a decimal exactly. -/
def exactScale : Nat := 3500

/-- How many bits of other numbers are kept. -/
def keptBits : Nat := 128

/-- The magnitude of a binary number with any exponent as a decimal. -/
def ofAnyBinary (b : Binary) : Decimal :=
  if b.scale.natAbs ≤ exactScale then ofBinary b
  else
    let tens := tensOfTwos b.exponent
    let d := ofBinary (.div .towardZero keptBits b (.zpow keptBits ⟨false, 5, 1⟩ tens))
    ⟨d.coefficient, d.exponent + tens⟩

end Decimal

end DirectionField
