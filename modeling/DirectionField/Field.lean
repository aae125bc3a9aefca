import DirectionField.Domain
import DirectionField.Report
import DirectionField.SlopeFunction

/-! # Direction fields

A direction field is a slope at every point of a square lattice over a domain. It is sampled from a
function over the whole lattice at once where the function allows that, and point by point where it
does not or fails to. A point at which the function signals a fault has a NaN for its slope and
leaves the rest of the field alone. -/

namespace DirectionField

/-- Slopes over a lattice: `slopes[row][column]` is the slope at `xs[column]` and `ys[row]`. -/
structure Field where
  domain : Domain
  rows : Nat
  xs : Array Float
  ys : Array Float
  slopes : Array (Array Float)

namespace Field

/-- The abscissa of every point of a lattice. -/
def meshX (xs ys : Array Float) : Batch Float :=
  ⟨[ys.size, xs.size], fun index => xs.getD (index.getD 1 0) 0.0⟩

/-- The ordinate of every point of a lattice. -/
def meshY (xs ys : Array Float) : Batch Float :=
  ⟨[ys.size, xs.size], fun index => ys.getD (index.getD 0 0) 0.0⟩

/-- The elements of a batch over a lattice, row by row. -/
def tabulate (rows columns : Nat) (b : Batch Float) : Array (Array Float) :=
  ((List.range rows).map fun row =>
    ((List.range columns).map fun column => b.get [row, column]).toArray).toArray

@[simp] theorem size_tabulate (rows columns : Nat) (b : Batch Float) :
    (tabulate rows columns b).size = rows := by
  simp [tabulate]

theorem getElem_tabulate (rows columns : Nat) (b : Batch Float) (row : Nat)
    (h : row < (tabulate rows columns b).size) :
    (tabulate rows columns b)[row] =
      ((List.range columns).map fun column => b.get [row, column]).toArray := by
  simp [tabulate]

/-- The slopes at the points of a row, and what there is to tell about them. -/
def sampleRow (f : SlopeFunction) (xs : List Float) (y : Float) :
    Except Fault (List (Float × Log)) :=
  xs.mapM fun x => do
    let (v, fault?) ← f.slopeOrNaN x y
    return (v, Event.ofFault? (.slopeUndefined .field x y) fault?)

/-- The slopes at the points of a lattice, found one by one. -/
def samplePoints (f : SlopeFunction) (xs ys : Array Float) : Report (Array (Array Float)) := do
  let cells ← .ofFault (ys.toList.mapM (sampleRow f xs.toList))
  .tellAll (cells.flatMap fun row => row.flatMap (·.2))
  return (cells.map fun row => (row.map (·.1)).toArray).toArray

/-- The slopes at the points of a lattice. -/
def sampleLattice (f : SlopeFunction) (xs ys : Array Float) : Report (Array (Array Float)) :=
  match f.evaluate? with
  | none => samplePoints f xs ys
  | some evaluate =>
    match evaluate (meshX xs ys) (meshY xs ys) with
    | .ok b => return tabulate ys.size xs.size b
    | .error fault =>
      if fault.isLocal then do
        .tellAll (Event.ofFault? .wholeLatticeFailed fault)
        samplePoints f xs ys
      else .ofFault (.error fault)

/-- The number of points without a finite slope. -/
def undefinedCount (field : Field) : Nat :=
  (field.slopes.toList.flatMap Array.toList).countP fun v => !v.isFinite

/-- The slope at a row and a column; negative numbers count from the end. -/
def slopeAt (field : Field) (row column : Int) : Except Fault Float := do
  let r ← place 0 field.slopes.size row
  let slopes := field.slopes.getD r #[]
  let c ← place 1 slopes.size column
  return slopes.getD c 0.0
where
  /-- The place along an axis that an index means. -/
  place (axis size : Nat) (index : Int) : Except Fault Nat :=
    let i := if index < 0 then index + size else index
    if 0 ≤ i ∧ i < size then .ok i.toNat else .error (.indexOutOfRange index axis size)

/-- Sample a function over the lattice of a domain with a given number of rows. -/
def sample (f : SlopeFunction) (domain : Domain) (rows : Nat) : Report Field := do
  let xs := domain.abscissae rows
  let ys := domain.ordinates rows
  let slopes ← sampleLattice f xs ys
  let field : Field := ⟨domain, rows, xs, ys, slopes⟩
  .tell (.sampled rows field.undefinedCount)
  return field

/-- Sample a function over a lattice with as many rows as a datum asks for. -/
def request (f : SlopeFunction) (domain : Domain) (rows : Datum) : Report Field := do
  let rows ← .ofExcept (rowsOf rows)
  sample f domain rows

end Field

end DirectionField
