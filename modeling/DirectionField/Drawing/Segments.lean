import DirectionField.Field
import DirectionField.Path

/-! # The segments of a drawing

A direction field is drawn as a short segment through every point of its lattice. On a square
drawing all segments have the same length, whatever the aspect of the domain. A point without a
slope has a segment with NaN among its coordinates; a vertical segment stands for an infinite slope.
Only segments with finite coordinates are drawn. -/

namespace DirectionField

/-- The length of a segment as a fraction of the spacing of the lattice. -/
def defaultFill : Float := 0.9

namespace Segment

/-- Are all four coordinates finite? -/
def isFinite (s : Segment) : Bool :=
  s.start.x.isFinite && s.start.y.isFinite && s.stop.x.isFinite && s.stop.y.isFinite

/-- The segment with a given slope that is centred on a point of a lattice with `rows` rows over a
    domain of the given width and height. The angle is that of the slope on a unit square. -/
def ofSlope (lib : Elementary) (fill : Float) (rows : Nat) (width height x y slope : Float) :
    Segment :=
  let angle := lib.atan (slope * (width / height))
  let half := fill / Float.ofNat rows / 2.0
  let dx := half * lib.cos angle * width
  let dy := half * lib.sin angle * height
  ⟨⟨x - dx, y - dy⟩, ⟨x + dx, y + dy⟩⟩

end Segment

/-- The segments of a row of a field. -/
def Field.rowSegments (lib : Elementary) (fill : Float) (field : Field) (y : Float)
    (slopes : Array Float) : List Segment :=
  List.zipWith (fun x slope =>
    Segment.ofSlope lib fill field.rows field.domain.width field.domain.height x y slope)
    field.xs.toList slopes.toList

/-- The segments of a field, row by row. -/
def Field.segments (lib : Elementary) (fill : Float) (field : Field) : List Segment :=
  (List.zipWith (field.rowSegments lib fill) field.ys.toList field.slopes.toList).flatten

end DirectionField
