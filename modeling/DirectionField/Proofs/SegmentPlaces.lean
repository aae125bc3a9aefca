import Mathlib.Data.List.ProdSigma
import DirectionField.Drawing.Canvas
import DirectionField.Proofs.Except
import DirectionField.Proofs.Report

/-!
# What is drawn, place by place

The segments of a field stand row by row, one for every place of its lattice, and each depends on the
slope and the coordinates at its own place (`Field.segments_eq_map`). The segments of a path stand in the
order of its points. A drawing keeps both orders and leaves out nothing but the segments without finite
coordinates (`Drawing.strokes_show`).
-/

namespace DirectionField

/-! ## Places -/

/-- The places of a square lattice, given by row and column, row by row. -/
def places (n : Nat) : List (Nat × Nat) := List.range n ×ˢ List.range n

/-- A rectangle of `m` rows with `n` places each has `m * n` places. -/
theorem length_product_range (m n : Nat) : (List.range m ×ˢ List.range n).length = m * n := by
  rw [List.length_product, List.length_range, List.length_range]

@[simp] theorem length_places (n : Nat) : (places n).length = n * n := length_product_range n n

/-- In a rectangle of `m` rows, too, the places of the rows before come first. -/
theorem getElem?_product_range {m n row column : Nat} (hrow : row < m) (hcolumn : column < n) :
    (List.range m ×ˢ List.range n)[row * n + column]? = some (row, column) := by
  -- by the number of rows: the last row stands behind the rectangle of the others
  induction m with
  | zero => exact absurd hrow (Nat.not_lt_zero row)
  | succ m ih =>
    have hsplit : List.range (m + 1) ×ˢ List.range n =
        (List.range m ×ˢ List.range n) ++ (List.range n).map (Prod.mk m) := by
      rw [List.range_succ]
      show List.flatMap _ _ = List.flatMap _ _ ++ _
      rw [List.flatMap_append, List.flatMap_cons, List.flatMap_nil, List.append_nil]
    rw [hsplit]
    rcases Nat.lt_succ_iff_lt_or_eq.1 hrow with hlt | rfl
    · have hbound : row * n + column < m * n := by
        calc row * n + column < row * n + n := by omega
          _ = (row + 1) * n := (Nat.succ_mul row n).symm
          _ ≤ m * n := Nat.mul_le_mul_right n hlt
      rw [List.getElem?_append_left (by rw [length_product_range]; exact hbound)]
      exact ih hlt
    · rw [List.getElem?_append_right (by rw [length_product_range]; omega), length_product_range,
        Nat.add_sub_cancel_left, List.getElem?_map, List.getElem?_range hcolumn]
      rfl

/-- The place in a row and a column comes behind those of the rows before and of the columns before.
    -/
theorem getElem?_places {n row column : Nat} (hrow : row < n) (hcolumn : column < n) :
    (places n)[row * n + column]? = some (row, column) := getElem?_product_range hrow hcolumn

/-- Every index below the number of places is that of a place. -/
theorem exists_place {n i : Nat} (h : i < n * n) :
    ∃ row < n, ∃ column < n, i = row * n + column := by
  have hn : 0 < n := Nat.pos_of_ne_zero (by rintro rfl; simp at h)
  exact ⟨i / n, Nat.div_lt_of_lt_mul h, i % n, Nat.mod_lt i hn, (Nat.div_add_mod' i n).symm⟩

/-- The places are those whose row and column are below the number of rows. -/
theorem mem_places_iff {n : Nat} {place : Nat × Nat} :
    place ∈ places n ↔ place.1 < n ∧ place.2 < n := by
  unfold places
  rw [List.mem_product, List.mem_range, List.mem_range]

/-! ## Fields -/

namespace Field

/-- A field over a square lattice has a slope at each of its places. -/
structure IsSquare (field : Field) : Prop where
  size_xs : field.xs.size = field.rows
  size_ys : field.ys.size = field.rows
  size_slopes : field.slopes.size = field.rows
  size_row : ∀ slopes ∈ field.slopes, slopes.size = field.rows

/-- The slope at a place. -/
def slopeOf (field : Field) (place : Nat × Nat) : Float :=
  (field.slopes.getD place.1 #[]).getD place.2 0.0

/-- The segment through a place: it depends on the coordinates and the slope there, and on the
    number of rows and the extent of the whole. -/
def segmentAt (lib : Elementary) (fill : Float) (field : Field) (place : Nat × Nat) : Segment :=
  Segment.ofSlope lib fill field.rows field.domain.width field.domain.height
    (field.xs.getD place.2 0.0) (field.ys.getD place.1 0.0) (field.slopeOf place)

/-- Point by point, there is a slope for each point of the lattice. -/
theorem size_of_samplePoints {f : SlopeFunction} {xs ys : Array Float} {slopes : Array (Array Float)}
    (h : (samplePoints f xs ys).outcome = .ok slopes) :
    slopes.size = ys.size ∧ ∀ row ∈ slopes, row.size = xs.size := by
  unfold samplePoints at h
  rw [Report.outcome_bind, Except.bind_eq_ok_iff] at h
  obtain ⟨cells, hcells, h⟩ := h
  rw [Report.outcome_ofFault, Except.mapError_eq_ok_iff] at hcells
  cases h
  -- both counts are those of the list that is mapped, since a refused point would refuse the whole
  refine ⟨?_, fun row hrow => ?_⟩
  · rw [List.size_toArray, List.length_map, Except.length_of_mapM hcells, Array.length_toList]
  · rw [List.mem_toArray, List.mem_map] at hrow
    obtain ⟨cell, hcell, rfl⟩ := hrow
    obtain ⟨y, _, hy⟩ := Except.exists_of_mem_mapM hcells hcell
    rw [List.size_toArray, List.length_map, Except.length_of_mapM hy, Array.length_toList]

/-- However a lattice is sampled, there is a slope for each of its points. -/
theorem size_of_sampleLattice {f : SlopeFunction} {xs ys : Array Float} {slopes : Array (Array Float)}
    (h : (sampleLattice f xs ys).outcome = .ok slopes) :
    slopes.size = ys.size ∧ ∀ row ∈ slopes, row.size = xs.size := by
  unfold sampleLattice at h
  split at h
  · -- a plain callable
    exact size_of_samplePoints h
  split at h
  · next b _ =>
    cases h
    refine ⟨size_tabulate .., fun row hrow => ?_⟩
    obtain ⟨i, hi, rfl⟩ := Array.getElem_of_mem hrow
    rw [getElem_tabulate, List.size_toArray, List.length_map, List.length_range]
  split at h
  · rw [Report.outcome_bind] at h
    exact size_of_samplePoints h
  · cases h

/-- A field over the lattice of a domain with `n` rows. -/
structure IsOver (field : Field) (d : Domain) (n : Nat) : Prop extends IsSquare field where
  domain_eq : field.domain = d
  rows_eq : field.rows = n
  xs_eq : field.xs = d.abscissae n
  ys_eq : field.ys = d.ordinates n

/-- The fields that are sampled are over the lattices that are asked for. -/
theorem isOver_of_request {f : SlopeFunction} {d : Domain} {rows : Datum} {field : Field}
    (h : (request f d rows).outcome = .ok field) : ∃ n, rowsOf rows = .ok n ∧ field.IsOver d n := by
  unfold request sample at h
  simp only [Report.outcome_bind, Report.outcome_ofExcept, Except.bind_eq_ok_iff] at h
  obtain ⟨n, hrows, slopes, hslopes, _, _, h⟩ := h
  cases h
  obtain ⟨hsize, hrow⟩ := size_of_sampleLattice hslopes
  exact ⟨n, hrows, ⟨size_linspace .., size_linspace .., hsize.trans (size_linspace ..),
    fun row h => (hrow row h).trans (size_linspace ..)⟩, rfl, rfl, rfl, rfl⟩

/-- The field with another slope at a single place. -/
def withSlope (field : Field) (row column : Nat) (slope : Float) : Field :=
  { field with slopes := field.slopes.modify row (·.setIfInBounds column slope) }

/-- A field stays square when one of its slopes is replaced. -/
theorem IsSquare.withSlope {field : Field} (h : field.IsSquare) (row column : Nat) (slope : Float) :
    (field.withSlope row column slope).IsSquare where
  size_xs := h.size_xs
  size_ys := h.size_ys
  size_slopes := (Array.size_modify ..).trans h.size_slopes
  size_row slopes hslopes := by
    change slopes ∈ field.slopes.modify row (·.setIfInBounds column slope) at hslopes
    obtain ⟨i, hi, rfl⟩ := Array.getElem_of_mem hslopes
    have hrow := h.size_row _ (Array.getElem_mem (Array.size_modify ▸ hi))
    show _ = field.rows
    -- only one row is touched, and setting one of its slopes keeps its length
    rw [Array.getElem_modify]
    split
    · rw [Array.size_setIfInBounds]
      exact hrow
    · exact hrow

/-- Elsewhere, the slopes stay as they are. -/
theorem slopeOf_withSlope {field : Field} {row column : Nat} (slope : Float) {place : Nat × Nat}
    (h : place ≠ (row, column)) : (field.withSlope row column slope).slopeOf place =
      field.slopeOf place := by
  unfold slopeOf withSlope
  dsimp only
  rw [Array.getD_eq_getD_getElem?, Array.getD_eq_getD_getElem?, Array.getElem?_modify]
  by_cases hrow : row = place.1
  · -- within the row, another column is set
    have hcolumn : column ≠ place.2 := by
      rintro rfl
      exact h (by rw [hrow])
    rw [if_pos hrow, Array.getD_eq_getD_getElem?, Array.getD_eq_getD_getElem?]
    cases field.slopes[place.1]? with
    | none => rfl
    | some slopes =>
      dsimp only [Option.map_some, Option.getD_some]
      rw [Array.getElem?_setIfInBounds_ne hcolumn]
  · rw [if_neg hrow, ← Array.getD_eq_getD_getElem?, ← Array.getD_eq_getD_getElem?]

/-- Two rows of numbers, taken together, by their places. -/
theorem zipWith_eq_map_range {α β γ : Type} (f : α → β → γ) {as : Array α} {bs : Array β} {n : Nat}
    (ha : as.size = n) (hb : bs.size = n) (a : α) (b : β) :
    List.zipWith f as.toList bs.toList =
      (List.range n).map fun i => f (as.getD i a) (bs.getD i b) := by
  refine List.ext_getElem (by simp [ha, hb]) fun i hi hi' => ?_
  have hi : i < n := by simpa using hi'
  rw [List.getElem_zipWith, List.getElem_map, List.getElem_range, Array.getElem_toList,
    Array.getElem_toList, Array.getElem_eq_getD a, Array.getElem_eq_getD b]

/-- The segments of a field are those through its places, row by row. -/
theorem segments_eq_map (lib : Elementary) (fill : Float) {field : Field} (h : field.IsSquare) :
    field.segments lib fill = (places field.rows).map (field.segmentAt lib fill) := by
  unfold segments places
  rw [zipWith_eq_map_range _ h.size_ys h.size_slopes 0.0 #[]]
  show _ = List.map _ (List.flatMap _ _)
  rw [List.map_flatMap, ← List.flatMap_def]
  -- row by row: the rows of slopes are as long as the row of abscissae
  refine congrArg List.flatten (List.map_congr_left fun row hrow => ?_)
  have hrow : row < field.slopes.size := by rw [h.size_slopes]; exact List.mem_range.1 hrow
  have hsize : (field.slopes.getD row #[]).size = field.rows := by
    rw [← Array.getElem_eq_getD (h := hrow)]
    exact h.size_row _ (Array.getElem_mem hrow)
  unfold rowSegments
  rw [zipWith_eq_map_range _ h.size_xs hsize 0.0 0.0, List.map_map]
  rfl

/-- There are as many segments as places. -/
theorem length_segments (lib : Elementary) (fill : Float) {field : Field} (h : field.IsSquare) :
    (field.segments lib fill).length = field.rows * field.rows := by
  rw [segments_eq_map lib fill h, List.length_map, length_places]

/-- The segment through a place stands at its index. -/
theorem getElem?_segments (lib : Elementary) (fill : Float) {field : Field} (h : field.IsSquare)
    {row column : Nat} (hrow : row < field.rows) (hcolumn : column < field.rows) :
    (field.segments lib fill)[row * field.rows + column]? =
      some (field.segmentAt lib fill (row, column)) := by
  rw [segments_eq_map lib fill h, List.getElem?_map, getElem?_places hrow hcolumn, Option.map_some]

/-- It is made of the coordinates and the slope there. -/
theorem exists_getElem?_segments (lib : Elementary) (fill : Float) {field : Field} (h : field.IsSquare)
    {row column : Nat} (hrow : row < field.rows) (hcolumn : column < field.rows) :
    ∃ x y slopes slope, field.xs[column]? = some x ∧ field.ys[row]? = some y ∧
      field.slopes[row]? = some slopes ∧ slopes[column]? = some slope ∧
      (field.segments lib fill)[row * field.rows + column]? = some (Segment.ofSlope lib fill
        field.rows field.domain.width field.domain.height x y slope) := by
  have hx : column < field.xs.size := h.size_xs ▸ hcolumn
  have hy : row < field.ys.size := h.size_ys ▸ hrow
  have hslopes : row < field.slopes.size := h.size_slopes ▸ hrow
  have hslope : column < field.slopes[row].size :=
    h.size_row _ (Array.getElem_mem hslopes) ▸ hcolumn
  refine ⟨_, _, _, _, Array.getElem?_eq_getElem hx, Array.getElem?_eq_getElem hy,
    Array.getElem?_eq_getElem hslopes, Array.getElem?_eq_getElem hslope, ?_⟩
  rw [getElem?_segments lib fill h hrow hcolumn]
  unfold segmentAt slopeOf
  dsimp only
  rw [← Array.getElem_eq_getD (h := hx), ← Array.getElem_eq_getD (h := hy),
    ← Array.getElem_eq_getD (h := hslopes), ← Array.getElem_eq_getD (h := hslope)]

/-- A slope makes no difference to the segments through other places. -/
theorem getElem?_segments_withSlope (lib : Elementary) (fill : Float) {field : Field}
    (h : field.IsSquare) {row column : Nat} (slope : Float) {i : Nat}
    (hi : i ≠ row * field.rows + column) :
    ((field.withSlope row column slope).segments lib fill)[i]? = (field.segments lib fill)[i]? := by
  have h' := h.withSlope row column slope
  have hrows : (field.withSlope row column slope).rows = field.rows := rfl
  by_cases hlt : i < field.rows * field.rows
  · obtain ⟨r, hr, c, hc, rfl⟩ := exists_place hlt
    have hne : (r, c) ≠ (row, column) := by
      intro heq
      cases heq
      exact hi rfl
    have hother := getElem?_segments lib fill h' (hrows ▸ hr) (hrows ▸ hc)
    rw [hrows] at hother
    rw [hother, getElem?_segments lib fill h hr hc]
    unfold segmentAt
    rw [slopeOf_withSlope slope hne]
    rfl
  · -- behind the last place there is no segment in either list
    rw [List.getElem?_eq_none (by rw [length_segments lib fill h', hrows]; omega),
      List.getElem?_eq_none (by rw [length_segments lib fill h]; omega)]

end Field

/-! ## Paths -/

/-- A segment ends at the point that it leads to. -/
theorem Path.map_stop_segmentsFrom (back : Float → Float) (y : Float) (ps : List Point) :
    (segmentsFrom back y ps).map Segment.stop = ps := by
  induction ps generalizing y with
  | nil => rfl
  | cons p ps ih => rw [segmentsFrom, List.map_cons, ih]

/-- The segments of a path end at its points, those of the walk to the right first. -/
theorem Path.map_stop_segments (p : Path) :
    p.segments.map Segment.stop = p.forward ++ p.backward := by
  unfold segments
  rw [List.map_append, map_stop_segmentsFrom, map_stop_segmentsFrom]

/-! ## Strokes -/

/-- The segments that a stroke draws, if it is one that draws segments. -/
def Stroke.lines? : Stroke → Option (List Segment)
  | .segments lines _ _ => some lines
  | _ => none

/-- The point that a stroke marks, if it marks one. -/
def Stroke.marked? : Stroke → Option Point
  | .mark p _ _ _ => some p
  | _ => none

/-- A segment is finite if all of its four coordinates are. -/
theorem Segment.isFinite_iff_coordinates (s : Segment) : s.isFinite = true ↔
    s.start.x.isFinite = true ∧ s.start.y.isFinite = true ∧ s.stop.x.isFinite = true ∧
      s.stop.y.isFinite = true := by
  unfold isFinite
  simp only [Bool.and_eq_true, and_assoc]

namespace Drawing

/-- Besides the segments of the field and what belongs to the path, no stroke draws segments or
    marks a point. -/
theorem lines_marked_of_mem (d : Domain) (title : Option String) (target : Target) :
    ∀ s ∈ axes d ++ frame d ++ titleStrokes title ++ [.save target "png", .close],
      s.lines? = none ∧ s.marked? = none := by
  have htitle : ∀ s ∈ titleStrokes title, s.lines? = none ∧ s.marked? = none := by
    unfold titleStrokes
    cases title with
    | none => exact nofun
    | some text => dsimp only; split <;> simp [Stroke.lines?, Stroke.marked?]
  have haxes : ∀ s ∈ axes d, s.lines? = none ∧ s.marked? = none := by
    unfold axes
    split <;> split <;> simp [Stroke.lines?, Stroke.marked?]
  simp only [List.forall_mem_append]
  refine ⟨⟨⟨haxes, ?_⟩, htitle⟩, ?_⟩ <;> simp [frame, Stroke.lines?, Stroke.marked?]

/-- A path adds its finite segments, if there are any, and a mark in any case. -/
theorem filterMap_pathStrokes (p : Path) :
    (pathStrokes p).filterMap Stroke.lines? =
        [p.segments.filter Segment.isFinite].filter (· ≠ []) ∧
      (pathStrokes p).filterMap Stroke.marked? = [p.start] := by
  unfold pathStrokes
  dsimp only
  generalize p.segments.filter Segment.isFinite = lines
  -- the collection is left out if it is empty, and the mark never is
  cases lines with
  | nil => exact ⟨rfl, rfl⟩
  | cons s lines => exact ⟨rfl, rfl⟩

/-- Anything that only the segments of a field and the strokes of a path can have is found in a
    drawing in this order. -/
theorem filterMap_strokes {β : Type} {g : Stroke → Option β} (lib : Elementary) (field : Field)
    (path : Option Path) (title : Option String) (target : Target)
    (hfigure : g (.figure 6 6) = none)
    (hothers : ∀ s ∈ axes field.domain ++ frame field.domain ++ titleStrokes title ++
      [.save target "png", .close], g s = none) :
    (strokes lib field path title target).filterMap g =
      (g (.segments ((field.segments lib defaultFill).filter Segment.isFinite) "tab:blue" 1)).toList ++
        path.toList.flatMap fun p => (pathStrokes p).filterMap g := by
  simp only [List.forall_mem_append] at hothers
  obtain ⟨⟨⟨haxes, hframe⟩, htitle⟩, hend⟩ := hothers
  have hfield (s : Stroke) : [s].filterMap g = (g s).toList := by
    cases hs : g s <;> simp [hs]
  -- without a path there is nothing for it to add
  have hpath : ((path.map pathStrokes).getD []).filterMap g =
      path.toList.flatMap fun p => (pathStrokes p).filterMap g := by
    cases path with
    | none => rfl
    | some p => simp
  unfold strokes
  simp only [List.filterMap_append, List.filterMap_eq_nil_iff.2 haxes,
    List.filterMap_eq_nil_iff.2 hframe, List.filterMap_eq_nil_iff.2 htitle,
    List.filterMap_eq_nil_iff.2 hend, hpath, hfield, hfigure, Option.toList_none, List.nil_append,
    List.append_nil]

/-- A field over a square lattice has a segment for each place, row by row, which depends on the
    coordinates and the slope at that place, the number of rows, the fill and the extent of the
    domain. A path has a segment for each point, to which it leads. A drawing has one collection
    with the finite segments of the field and, if the path has finite segments, one with these
    behind it, both in their order; the start of a path is marked in any case. -/
theorem strokes_show (lib : Elementary) {field : Field} (h : field.IsSquare) (path : Option Path)
    (title : Option String) (target : Target) :
    (∀ fill, (field.segments lib fill).length = field.rows * field.rows ∧
      (∀ row < field.rows, ∀ column < field.rows, ∃ x y slopes slope,
        field.xs[column]? = some x ∧ field.ys[row]? = some y ∧ field.slopes[row]? = some slopes ∧
        slopes[column]? = some slope ∧
        (field.segments lib fill)[row * field.rows + column]? = some (Segment.ofSlope lib fill
          field.rows field.domain.width field.domain.height x y slope)) ∧
      ∀ row column slope i, i ≠ row * field.rows + column →
        ((field.withSlope row column slope).segments lib fill)[i]? =
          (field.segments lib fill)[i]?) ∧
    (∀ p : Path, p.segments.length = p.forward.length + p.backward.length ∧
      ∀ k : Nat, p.segments[k]?.map Segment.stop = (p.forward ++ p.backward)[k]?) ∧
    (strokes lib field path title target).filterMap Stroke.lines? =
      (field.segments lib defaultFill).filter Segment.isFinite ::
        (path.toList.map fun p => p.segments.filter Segment.isFinite).filter (· ≠ []) ∧
    (strokes lib field path title target).filterMap Stroke.marked? = path.toList.map Path.start := by
  have hothers := lines_marked_of_mem field.domain title target
  -- the field, place by place; the path, point by point; and the two collections of a drawing
  refine ⟨fun fill => ⟨field.length_segments lib fill h, fun row hrow column hcolumn => ?_,
    fun row column slope i hi => field.getElem?_segments_withSlope lib fill h slope hi⟩,
    fun p => ⟨?_, fun k => ?_⟩, ?_, ?_⟩
  · exact Field.exists_getElem?_segments lib fill h hrow hcolumn
  · rw [← List.length_append, ← p.map_stop_segments, List.length_map]
  · rw [← p.map_stop_segments, List.getElem?_map]
  · rw [filterMap_strokes lib field path title target rfl fun s hs => (hothers s hs).1]
    cases path with
    | none => rfl
    | some p =>
      rw [Option.toList_some, List.flatMap_singleton, (filterMap_pathStrokes p).1]
      rfl
  · rw [filterMap_strokes lib field path title target rfl fun s hs => (hothers s hs).2]
    cases path with
    | none => rfl
    | some p =>
      rw [Option.toList_some, List.flatMap_singleton, (filterMap_pathStrokes p).2]
      rfl

/-- The square from `-1` to `1` with an undefined and an infinite slope, and a path with a gap in
    front of its second point and an infinite third one. -/
theorem strokes_show_gap :
    ∃ d, Domain.ofBounds (-1.0) 1.0 (-1.0) 1.0 = .ok d ∧
      let field : Field := ⟨d, 2, #[-1.0, 1.0], #[-1.0, 1.0], #[#[0.0, 0.0 / 0.0], #[1.0 / 0.0, 1.0]]⟩
      let path : Path := ⟨⟨-1.0, 0.0⟩, 0.5, [⟨-0.5, 1.0⟩, ⟨0.5, 1.5⟩, ⟨1.0, 1.0 / 0.0⟩], []⟩
      field.IsSquare ∧
        (strokes .native field (some path) none .temporary).filterMap Stroke.lines? =
          [(field.segments .native defaultFill).filter Segment.isFinite,
            [⟨⟨-1.0, 0.0⟩, ⟨-0.5, 1.0⟩⟩, ⟨⟨0.0, 1.0⟩, ⟨0.5, 1.5⟩⟩]] := by
  let d : Domain := ⟨-1.0, 1.0, -1.0, 1.0, by decide +kernel, by decide +kernel, by decide +kernel⟩
  refine ⟨d, rfl, ?_⟩
  intro field path
  have h : field.IsSquare := ⟨rfl, rfl, rfl, by simp [field]⟩
  have hpath : path.segments.filter Segment.isFinite =
      [⟨⟨-1.0, 0.0⟩, ⟨-0.5, 1.0⟩⟩, ⟨⟨0.0, 1.0⟩, ⟨0.5, 1.5⟩⟩] := by decide +kernel
  refine ⟨h, (strokes_show .native h (some path) none .temporary).2.2.1.trans ?_⟩
  rw [Option.toList_some, List.map_singleton, hpath]
  rfl

end Drawing

end DirectionField
