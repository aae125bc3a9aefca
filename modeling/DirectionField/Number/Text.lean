import DirectionField.Number.Decimal

/-! # Numbers as text

Two ways to write a number in base ten, each a choice of digits and a layout:

* `NumberText.plain`, the fewest digits that read back as the same number, positional from `0.0001`
  to below `1e16`;
* `NumberText.compact`, six digits without trailing zeros, positional from `0.0001` to below `1e6`.

An exponent has a sign and at least two digits. -/

namespace DirectionField.NumberText

/-- The digits of a natural number in base ten. -/
def digits (n : Nat) : List Char := Nat.toDigits 10 n

/-- The exponent mark, a sign and at least two digits. -/
def exponentText (e : Int) : List Char :=
  let ds := digits e.natAbs
  'e' :: (if e < 0 then '-' else '+') :: (List.replicate (2 - ds.length) '0' ++ ds)

/-- Digits with the point after the first, and the exponent that this needs. -/
def withExponent (ds : List Char) (e : Int) : List Char :=
  match ds with
  | d :: d' :: rest => d :: '.' :: d' :: rest ++ exponentText e
  | _ => ds ++ exponentText e

/-- The parts before and after a point that stands `point` places after the start of the digits. -/
def positional (ds : List Char) (point : Int) : List Char × List Char :=
  if point ≤ 0 then (['0'], List.replicate (-point).toNat '0' ++ ds)
  else
    let n := point.toNat
    (ds.take n ++ List.replicate (n - ds.length) '0', ds.drop n)

/-- A magnitude in the shortest digits. -/
def plainMagnitude (bits : Nat) : List Char :=
  let d := Decimal.shortest bits
  let ds := digits d.coefficient
  let e := ds.length + d.exponent - 1
  if bits = 0 then ['0', '.', '0']
  else if -4 ≤ e ∧ e < 16 then
    let (whole, fraction) := positional ds (e + 1)
    whole ++ '.' :: (if fraction.isEmpty then ['0'] else fraction)
  else withExponent ds e

/-- A magnitude in at most six digits. -/
def compactMagnitude (bits : Nat) : List Char :=
  let d := ((Decimal.ofBinary (.ofBits false bits)).round 6).trim
  let ds := digits d.coefficient
  let e := ds.length + d.exponent - 1
  if bits = 0 then ['0']
  else if -4 ≤ e ∧ e < 6 then
    let (whole, fraction) := positional ds (e + 1)
    if fraction.isEmpty then whole else whole ++ '.' :: fraction
  else withExponent ds e

/-- A number by the text of its magnitude. A NaN has no sign. -/
def signed (magnitude : Nat → List Char) (x : Float) : String :=
  if x.isNaN then "nan"
  else
    let sign := if signBit x then ['-'] else []
    String.ofList (sign ++ if x.isInf then ['i', 'n', 'f'] else magnitude (magnitudeBits x))

/-- The fewest digits that read back as the same number. -/
def plain (x : Float) : String := signed plainMagnitude x

/-- At most six significant digits. -/
def compact (x : Float) : String := signed compactMagnitude x

end DirectionField.NumberText
