import DirectionField.Walk

/-! # Paths

A path is an approximate solution through a point: a walk to the right and a walk to the left. -/

namespace DirectionField

/-- A stretch of a straight line. -/
structure Segment where
  start : Point
  stop : Point
deriving DecidableEq

/-- Both walks from a point, each in the order in which it was walked. -/
structure Path where
  start : Point
  step : Float
  forward : List Point
  backward : List Point

namespace Path

/-- All points from left to right. -/
def points (p : Path) : List Point := p.backward.reverse ++ p.start :: p.forward

/-- The segments of a walk to its points, the first from the ordinate `y`. Each starts one step
    before its end by abscissa, at the ordinate of the point before, so that a step that was left
    out shows as a gap. -/
def segmentsFrom (back : Float → Float) : Float → List Point → List Segment
  | _, [] => []
  | y, p :: ps => ⟨⟨back p.x, y⟩, p⟩ :: segmentsFrom back p.y ps

/-- A segment for every point of the walk to the right, and then of the walk to the left. -/
def segments (p : Path) : List Segment :=
  segmentsFrom (· - p.step) p.start.y p.forward ++ segmentsFrom (· + p.step) p.start.y p.backward

/-- The path through a point to both bounds of a domain. -/
def solve (f : SlopeFunction) (start : Point) (step : Float) (domain : Domain) (limit : Int) :
    Report Path := do
  let start ← .ofProblem (checkStart start)
  let step ← .ofProblem (checkStep step)
  let forward ← walk f .forward start step domain.right limit
  let backward ← walk f .backward start step domain.left limit
  .tell (.pathFound start.x start.y forward.length backward.length)
  return ⟨start, step, forward, backward⟩

/-- The start and the step that data ask for. -/
def request (start : List Datum) (step : Datum) : Except Failure (Point × Float) := do
  let start ← orFault (startOf start)
  let start ← orProblem (checkStart start)
  let step ← stepOf step
  return (start, step)

end Path

end DirectionField
