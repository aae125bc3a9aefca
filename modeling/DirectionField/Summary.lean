import DirectionField.Field
import DirectionField.Json
import DirectionField.Path

/-! # Summaries

A summary is a graph as data: the equation, the domain, the lattice with its slopes, and perhaps a
path. Slopes and the ordinates of a path that are not finite are null. -/

namespace DirectionField

/-- A graph as data. -/
structure Summary where
  equation : String
  /-- The typeset form of the equation, if it has one. -/
  latex : Option String
  field : Field
  path : Option Path

namespace Summary

/-- The bounds of a domain. -/
def domainJson (d : Domain) : Json :=
  .object [("left", .number d.left), ("right", .number d.right), ("lower", .number d.lower),
    ("upper", .number d.upper)]

/-- Numbers in a row. -/
def numbers (xs : Array Float) : Json := .array (xs.toList.map .number)

/-- A point of a walk. -/
def pointJson (p : Point) : Json := .array [.number p.x, .finite p.y]

/-- A path. -/
def pathJson (p : Path) : Json :=
  .object [("start", .array [.number p.start.x, .number p.start.y]), ("step", .number p.step),
    ("forward", .array (p.forward.map pointJson)), ("backward", .array (p.backward.map pointJson))]

/-- The summary as a JSON object. -/
def toJson (s : Summary) : Json :=
  .object [("equation", .text s.equation), ("latex", s.latex.elim .null .text),
    ("domain", domainJson s.field.domain), ("rows", .integer s.field.rows),
    ("xs", numbers s.field.xs), ("ys", numbers s.field.ys),
    ("slopes", .array (s.field.slopes.toList.map fun row => .array (row.toList.map .finite))),
    ("path", s.path.elim .null pathJson)]

end Summary

end DirectionField
