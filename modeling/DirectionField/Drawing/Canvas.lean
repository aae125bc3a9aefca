import DirectionField.Drawing.OutputPath
import DirectionField.Drawing.Segments

/-! # Drawings

A drawing is a list of strokes for a plotting back end to carry out: the coordinate axes where they
are in view, the segments of a field, those of a path with a mark at its start, the frame, and
finally the file. -/

namespace DirectionField

/-- Where a drawing is saved. -/
inductive Target where
  /-- A file at a path in its plain form. -/
  | file (path : String)
  /-- A new file among the temporary ones. -/
  | temporary
deriving Repr, DecidableEq

/-- The target that a request names. -/
def Target.ofRequest : Option String → Target
  | some path => .file (OutputPath.normalize path)
  | none => .temporary

/-- A single instruction to a plotting back end. -/
inductive Stroke where
  /-- Begin a figure of the given size in inches. -/
  | figure (width height : Nat)
  | horizontalLine (y : Nat) (color : String) (width : Float)
  | verticalLine (x : Nat) (color : String) (width : Float)
  | segments (lines : List Segment) (color : String) (width : Nat)
  | mark (p : Point) (shape color : String) (size : Nat)
  | horizontalLimits (left right : Float)
  | verticalLimits (lower upper : Float)
  /-- Set the ratio of the height of the drawing area to its width. -/
  | boxAspect (ratio : Nat)
  | gridLines (opacity : Float)
  | title (text : String)
  | save (target : Target) (format : String)
  /-- End the figure. -/
  | close

namespace Drawing

/-- The coordinate axes that lie within a domain. -/
def axes (d : Domain) : List Stroke :=
  (if d.lower ≤ 0.0 ∧ 0.0 ≤ d.upper then [.horizontalLine 0 "black" 1.5] else []) ++
    if d.left ≤ 0.0 ∧ 0.0 ≤ d.right then [.verticalLine 0 "black" 1.5] else []

/-- The segments of a path, if any can be drawn, and the mark at its start. -/
def pathStrokes (p : Path) : List Stroke :=
  let lines := p.segments.filter Segment.isFinite
  (if lines.isEmpty then [] else [.segments lines "red" 2]) ++ [.mark p.start "o" "red" 4]

/-- The limits of the axes, a square drawing area, and faint grid lines. -/
def frame (d : Domain) : List Stroke :=
  [.horizontalLimits d.left d.right, .verticalLimits d.lower d.upper, .boxAspect 1, .gridLines 0.3]

/-- The title; an empty one is left out. -/
def titleStrokes : Option String → List Stroke
  | none => []
  | some text => if text = "" then [] else [.title text]

/-- The drawing of a field and perhaps a path over it. -/
def strokes (lib : Elementary) (field : Field) (path : Option Path) (title : Option String)
    (target : Target) : List Stroke :=
  [.figure 6 6] ++ axes field.domain ++
    [.segments ((field.segments lib defaultFill).filter Segment.isFinite) "tab:blue" 1] ++
    (path.map pathStrokes).getD [] ++ frame field.domain ++ titleStrokes title ++
    [.save target "png", .close]

end Drawing

end DirectionField
