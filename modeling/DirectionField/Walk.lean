import DirectionField.Domain
import DirectionField.Report
import DirectionField.SlopeFunction

/-! # Walks

A walk follows the slopes from a point to the right or to the left by Euler's method, in steps of
equal width, until it reaches a bound. The abscissa after `i` steps is computed from the start, so
that rounding errors do not add up. Where the slope is infinite, a walk to the right makes a gap: it
goes on at the next abscissa with the ordinate it had; a walk to the left goes to infinity. -/

namespace DirectionField

/-- The most steps of a walk, unless a caller says otherwise. -/
def stepLimit : Int := 1000000

/-- The way a walk goes. -/
inductive Direction where
  | forward
  | backward
deriving Repr, DecidableEq

/-! ## What a walk needs -/

/-- The number that a datum gives for the width of a step. -/
def stepOf (d : Datum) : Except Failure Float :=
  match d.toNumber with
  | .ok step => .ok step
  | .error fault =>
    match fault.kind with
    | .type | .value => .error (.ofWorded (d.literal.map .stepNotANumber))
    | _ => .error (.fault fault)

/-- The width of a step has to be finite and positive. -/
def checkStep (step : Float) : Except Problem Float :=
  if step.isFinite && step > 0.0 then .ok step else .error (.stepNotPositive step)

/-- The coordinates that data give for a point; there have to be two. A datum behind the second is
    still read before the count is found wrong. -/
def startOf (ds : List Datum) : Except Fault Point := do
  match ← (ds.take 3).mapM Datum.toNumber with
  | [x, y] => .ok ⟨x, y⟩
  | xs => .error (.coordinateCount xs.length)

/-- The start of a walk has to be finite. -/
def checkStart (p : Point) : Except Problem Point :=
  if p.x.isFinite && p.y.isFinite then .ok p else .error (.startNotFinite p.x p.y)

/-- The refusal of a number of steps that is over the limit. -/
def tooManySteps (count : Nat) (step : Float) (limit : Int) : Failure :=
  .ofWorded do
    let count ← NumberText.integer count
    let limit ← NumberText.integer limit
    return .tooManySteps count step limit

/-- The number of steps of a given width that cover a distance, rounded up. There is no step for a
    distance that is not positive, but a limit below zero is still exceeded. -/
def stepCount (distance step : Float) (limit : Int) : Except Failure Nat := do
  let step ← orProblem (checkStep step)
  if distance.isFinite then
    match Binary.ofFloat? (distance / step) with
    | none => .error (.fault .infiniteCount)
    | some quotient =>
      let count := quotient.ceil.toNat
      if limit < count then .error (tooManySteps count step limit) else .ok count
  else .error (.problem (.distanceNotFinite distance))

/-! ## Steps -/

namespace Direction

/-- The abscissa after `i` steps from `x₀`. -/
def abscissa (dir : Direction) (x₀ step : Float) (i : Nat) : Float :=
  match dir with
  | .forward => x₀ + Float.ofNat i * step
  | .backward => x₀ - Float.ofNat i * step

/-- The ordinate after a step from the ordinate `y` along a slope. -/
def ordinate (dir : Direction) (y slope step : Float) : Float :=
  match dir with
  | .forward => y + slope * step
  | .backward => y - slope * step

/-- Does a walk make a gap where it meets the slope? -/
def skips (dir : Direction) (slope : Float) : Bool := dir = .forward && slope.isInf

/-- The distance from the start of a walk to its bound. -/
def distance (dir : Direction) (x₀ bound : Float) : Float :=
  match dir with
  | .forward => bound - x₀
  | .backward => x₀ - bound

end Direction

/-- A step of a walk. -/
structure Step where
  /-- Where the step starts and the slope is taken. -/
  origin : Point
  slope : Float
  /-- The fault that made the slope a NaN, if one did. -/
  fault? : Option Fault
  /-- Where the next step starts. -/
  target : Point
  /-- Whether the step is left out of the path. -/
  skipped : Bool

/-- What a walk follows, and how. -/
structure Walk where
  function : SlopeFunction
  direction : Direction
  start : Float
  step : Float

namespace Walk

/-- The `i`-th step of a walk, counted from one, from where the last one ended. -/
def stepFrom (w : Walk) (i : Nat) (p : Point) : Except Fault Step := do
  let (slope, fault?) ← w.function.slopeOrNaN p.x p.y
  let x := w.direction.abscissa w.start w.step i
  let skipped := w.direction.skips slope
  -- behind a gap the walk goes on at the ordinate it had
  let y := if skipped then p.y else w.direction.ordinate p.y slope w.step
  return ⟨p, slope, fault?, ⟨x, y⟩, skipped⟩

/-- The next `n` steps of a walk from the `i`-th on; `done` has the steps before them, the last one
    first. -/
def stepsFrom (w : Walk) : Nat → Nat → Point → List Step → Except Fault (List Step)
  | 0, _, _, done => .ok done.reverse
  | n + 1, i, p, done =>
    match w.stepFrom i p with
    | .error fault => .error fault
    | .ok s => stepsFrom w n (i + 1) s.target (s :: done)

end Walk

/-- The point that a step contributes to a path. -/
def Step.point? (s : Step) : Option Point := if s.skipped then none else some s.target

/-- What there is to tell about a step. -/
def Step.log (s : Step) : Log :=
  Event.ofFault? (.slopeUndefined .path s.origin.x s.origin.y) s.fault? ++
    if s.skipped then [.stepSkipped s.origin.x] else []

/-- Walk from a point towards a bound. The result is the points that are reached, without the
    start. -/
def walk (f : SlopeFunction) (dir : Direction) (start : Point) (step bound : Float) (limit : Int) :
    Report (List Point) := do
  let start ← .ofProblem (checkStart start)
  let step ← .ofProblem (checkStep step)
  let count ← .ofExcept (stepCount (dir.distance start.x bound) step limit)
  let steps ← .ofFault ((Walk.mk f dir start.x step).stepsFrom count 1 start [])
  .tellAll (steps.flatMap Step.log)
  return steps.filterMap Step.point?

end DirectionField
