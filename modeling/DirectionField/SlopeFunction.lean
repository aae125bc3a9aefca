import DirectionField.Equation

/-! # Slope functions

What a field is sampled from and a path follows: a function that gives the slope at a point, and
perhaps another that gives the slopes at many points at once. -/

namespace DirectionField

/-- The right-hand side of `y' = f(x, y)` as a function. -/
structure SlopeFunction where
  /-- The slope at a point. -/
  slope : Float → Float → Except Fault Float
  /-- The slopes at the points of two coordinate arrays, if they can be had at once. -/
  evaluate? : Option (Batch Float → Batch Float → Except Fault (Batch Float))

/-- An equation as a slope function. -/
def Equation.toSlopeFunction (eq : Equation) : SlopeFunction := ⟨eq.slope, some eq.evaluate⟩

namespace SlopeFunction

/-- The function without its way to evaluate many points at once. -/
def pointwise (f : SlopeFunction) : SlopeFunction := { f with evaluate? := none }

/-- The slope at a point, a NaN where the function signals a fault that concerns this point only,
    and that fault. -/
def slopeOrNaN (f : SlopeFunction) (x y : Float) : Except Fault (Float × Option Fault) :=
  match f.slope x y with
  | .ok v => .ok (v, none)
  | .error fault => if fault.isLocal then .ok (0.0 / 0.0, some fault) else .error fault

end SlopeFunction

end DirectionField
