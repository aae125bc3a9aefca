import DirectionField.Field
import DirectionField.Proofs.Elementwise
import DirectionField.Proofs.Report

/-!
# Sampling at once and point by point

A field is the same whether its equation is evaluated over the whole lattice or at every point. Both
ways lead to `Field.cells`, the slope of every point by itself: point by point because a local fault
stays with its point, and at once because an elementwise evaluation that succeeds has the slopes of
the points, and one that fails is done again point by point.
-/

namespace DirectionField

/-! ## Cells -/

/-- The slope at a point, or a NaN where there is none. -/
def SlopeFunction.cell (f : SlopeFunction) (x y : Float) : Float :=
  match f.slope x y with
  | .ok slope => slope
  | .error _ => 0.0 / 0.0

/-- At every point, the function has a slope or a local fault. -/
def SlopeFunction.IsSettled (f : SlopeFunction) : Prop :=
  ∀ x y, Settles (fun _ => True) (f.slope x y)

/-- The slope of every point of a lattice by itself, row by row. -/
def Field.cells (f : SlopeFunction) (xs ys : Array Float) : Array (Array Float) :=
  (ys.toList.map fun y => (xs.toList.map fun x => f.cell x y).toArray).toArray

/-- If all faults are local, a point has its slope or a NaN, and sampling goes on. -/
theorem SlopeFunction.IsSettled.slopeOrNaN_eq {f : SlopeFunction} (hf : f.IsSettled) (x y : Float) :
    ∃ fault?, f.slopeOrNaN x y = .ok (f.cell x y, fault?) := by
  have h := hf x y
  unfold slopeOrNaN cell
  cases hs : f.slope x y with
  | ok slope => exact ⟨none, rfl⟩
  | error fault =>
    rw [hs] at h
    have hlocal : fault.isLocal = true := h
    dsimp only
    rw [if_pos hlocal]
    exact ⟨some fault, rfl⟩

namespace Field

/-! ## Point by point -/

/-- A row is sampled point by point. -/
theorem exists_sampleRow {f : SlopeFunction} (hf : f.IsSettled) (xs : List Float) (y : Float) :
    ∃ row, sampleRow f xs y = .ok row ∧
      (row.map (·.1)).toArray = (xs.map fun x => f.cell x y).toArray := by
  have hcell : ∀ x, ∃ c : Float × Log, ((f.slopeOrNaN x y).bind fun p =>
      .ok (p.1, Event.ofFault? (.slopeUndefined .field x y) p.2)) = .ok c ∧ c.1 = f.cell x y := by
    intro x
    obtain ⟨fault?, h⟩ := hf.slopeOrNaN_eq x y
    rw [h]
    exact ⟨_, rfl, rfl⟩
  obtain ⟨row, hrow, hmap⟩ := Except.exists_mapM_eq_ok hcell xs
  exact ⟨row, hrow, by rw [hmap]⟩

/-- Point by point, every point gets its own slope. -/
theorem outcome_samplePoints {f : SlopeFunction} (hf : f.IsSettled) (xs ys : Array Float) :
    (samplePoints f xs ys).outcome = .ok (cells f xs ys) := by
  obtain ⟨rows, hrows, hmap⟩ := Except.exists_mapM_eq_ok (exists_sampleRow hf xs.toList) ys.toList
  unfold samplePoints cells
  rw [Report.outcome_bind, Report.outcome_ofFault, hrows, ← hmap]
  rfl

/-! ## At once -/

/-- A row and a column make an index of the mesh. -/
theorem inside_mesh {rows columns row column : Nat} (hr : row < rows) (hc : column < columns) :
    Batch.Inside [row, column] [rows, columns] := .cons hr (.cons hc .nil)

/-- A batch that has the slopes of the points at its indices is laid out as the cells. -/
theorem tabulate_eq_cells {f : SlopeFunction} {xs ys : Array Float} {b : Batch Float}
    (h : ∀ row (hr : row < ys.size) column (hc : column < xs.size),
      b.get [row, column] = f.cell xs[column] ys[row]) :
    tabulate ys.size xs.size b = cells f xs ys := by
  unfold tabulate cells
  congr 1
  refine List.ext_getElem (by simp) fun row hr hr' => ?_
  have hrow : row < ys.size := by simpa using hr
  rw [List.getElem_map, List.getElem_map, List.getElem_range, Array.getElem_toList]
  congr 1
  refine List.ext_getElem (by simp) fun column hc hc' => ?_
  have hcolumn : column < xs.size := by simpa using hc
  rw [List.getElem_map, List.getElem_map, List.getElem_range, Array.getElem_toList]
  exact h row hrow column hcolumn

/-- Over the whole lattice, every point gets its own slope too: if the equation cannot be evaluated
    at once, it is sampled point by point. -/
theorem outcome_sampleLattice {eq : Equation} (hv : eq.vocabulary.IsElementwise)
    (xs ys : Array Float) :
    (sampleLattice eq.toSlopeFunction xs ys).outcome = .ok (cells eq.toSlopeFunction xs ys) := by
  have hpoints := outcome_samplePoints (f := eq.toSlopeFunction) (eq.settles_slope hv) xs ys
  have hshape : Batch.commonShape? (meshX xs ys).shape (meshY xs ys).shape =
      some [ys.size, xs.size] := (Batch.Fits.refl _).commonShape?_eq
  have hsettles := eq.settles_evaluate hv hshape
  have heval : eq.toSlopeFunction.evaluate? = some eq.evaluate := rfl
  -- an equation is always asked for the whole lattice first
  unfold sampleLattice
  rw [heval]
  dsimp only
  cases he : eq.evaluate (meshX xs ys) (meshY xs ys) with
  | error fault =>
    rw [he] at hsettles
    have hlocal : fault.isLocal = true := hsettles
    dsimp only
    -- a local fault of the whole says nothing about the points, which are then asked one by one
    rw [if_pos hlocal, Report.outcome_bind, hpoints]
    rfl
  | ok b =>
    rw [he] at hsettles
    obtain ⟨_, hvalue⟩ := hsettles
    refine congrArg Except.ok (tabulate_eq_cells fun row hr column hc => ?_)
    have hi := inside_mesh hr hc
    have hx : (meshX xs ys).pick [row, column] = xs[column] := by
      rw [Batch.pick_of_inside hi]
      exact (Array.getElem_eq_getD 0.0).symm
    have hy : (meshY xs ys).pick [row, column] = ys[row] := by
      rw [Batch.pick_of_inside hi]
      exact (Array.getElem_eq_getD 0.0).symm
    have hslope := hvalue [row, column] hi
    rw [hx, hy] at hslope
    have hcell : eq.toSlopeFunction.slope xs[column] ys[row] = .ok (b.get [row, column]) := hslope
    unfold SlopeFunction.cell
    rw [hcell]

/-! ## Fields -/

/-- A field is made of the slopes that sampling gives. -/
theorem outcome_sample {f : SlopeFunction} {d : Domain} {n : Nat} {slopes : Array (Array Float)}
    (h : (sampleLattice f (d.abscissae n) (d.ordinates n)).outcome = .ok slopes) :
    (sample f d n).outcome = .ok ⟨d, n, d.abscissae n, d.ordinates n, slopes⟩ := by
  show (sampleLattice f (d.abscissae n) (d.ordinates n) >>= _ : Report Field).outcome = _
  rw [Report.outcome_bind, h]
  rfl

/-- With enough rows, what is asked for is sampled. -/
theorem outcome_request {f : SlopeFunction} {d : Domain} {n : Nat} (hn : 2 ≤ n)
    {slopes : Array (Array Float)}
    (h : (sampleLattice f (d.abscissae n) (d.ordinates n)).outcome = .ok slopes) :
    (request f d (.integer n)).outcome =
      .ok ⟨d, n, d.abscissae n, d.ordinates n, slopes⟩ := by
  unfold request
  rw [Report.outcome_bind, Report.outcome_ofExcept, rowsOf_natCast hn]
  exact outcome_sample h

/-- Over an elementwise vocabulary, an equation has the same field whether it is evaluated over the
    whole lattice or hidden behind a function that can only be asked for one slope at a time. Each
    slope is that of its own point, or a NaN where that point by itself has a local fault. -/
theorem request_eq_pointwise {v : Vocabulary Meaning} (hv : v.IsElementwise) {text : String}
    {eq : Equation} (h : Equation.compile v text = .ok eq) (d : Domain) (n : Nat) (hn : 2 ≤ n) :
    ∃ field : Field,
      (request eq.toSlopeFunction d (.integer n)).outcome = .ok field ∧
      (request eq.toSlopeFunction.pointwise d (.integer n)).outcome = .ok field ∧
      field.domain = d ∧ field.rows = n ∧
      field.xs = d.abscissae n ∧ field.ys = d.ordinates n ∧
      field.slopes.size = n ∧ (∀ row ∈ field.slopes, row.size = n) ∧
      ∀ (row column : Nat) (x y : Float), field.ys[row]? = some y → field.xs[column]? = some x →
        ∃ slope, (field.slopes[row]?.bind fun slopes => slopes[column]?) = some slope ∧
          (eq.slope x y = .ok slope ∨
            ∃ fault, eq.slope x y = .error fault ∧ fault.isLocal = true ∧ slope.isNaN = true) := by
  have hv' : eq.vocabulary.IsElementwise := Equation.vocabulary_of_compile h ▸ hv
  have hsettled : eq.toSlopeFunction.IsSettled := eq.settles_slope hv'
  have hwhole := outcome_sampleLattice hv' (d.abscissae n) (d.ordinates n)
  have hpoints := outcome_samplePoints hsettled (d.abscissae n) (d.ordinates n)
  -- both ways lead to the cells
  refine ⟨⟨d, n, d.abscissae n, d.ordinates n, cells eq.toSlopeFunction (d.abscissae n)
    (d.ordinates n)⟩, outcome_request hn hwhole, outcome_request hn hpoints, rfl, rfl, rfl, rfl,
    ?_, ?_, ?_⟩
  · simp [cells, Domain.ordinates]
  · intro row hrow
    simp only [cells, List.mem_toArray, List.mem_map] at hrow
    obtain ⟨y, _, rfl⟩ := hrow
    simp [Domain.abscissae]
  · intro row column x y hy hx
    refine ⟨eq.toSlopeFunction.cell x y, ?_, ?_⟩
    · simp only [cells, List.getElem?_toArray, List.getElem?_map, Array.getElem?_toList, hy, hx,
        Option.map_some, Option.bind_some]
    · have hxy := hsettled x y
      unfold SlopeFunction.cell
      cases hs : eq.toSlopeFunction.slope x y with
      | ok slope => exact .inl hs
      | error fault =>
        rw [hs] at hxy
        -- the fault of a point leaves a NaN
        have hnan : (0.0 / 0.0 : Float).isNaN = true := by decide +kernel
        exact .inr ⟨fault, hs, hxy, hnan⟩

/-- A function that can only be asked for one number at a time, and has no value at zero. -/
def inverse : Meaning
  | [.real ⟨[], get⟩] =>
    if get [] == 0.0 then .error (.raised .divisionByZero "division by zero")
    else .ok (.ofFloat (1.0 / get []))
  | _ => .error (.raised .type "only one number at a time")

/-- The inverse works element by element. -/
theorem inverse_isElementwise : inverse.IsElementwise 1 where
  scalar xs hlen := by
    obtain ⟨x, rfl⟩ := List.length_eq_one_iff.1 hlen
    show Settles _ (if x == 0.0 then _ else _)
    by_cases h : (x == 0.0) = true
    · rw [if_pos h]; rfl
    · rw [if_neg h]; exact ⟨1.0 / x, rfl⟩
  batch bs hlen := by
    obtain ⟨⟨shape, get⟩, rfl⟩ := List.length_eq_one_iff.1 hlen
    -- only a single value is inverted, and a whole array is refused
    cases shape with
    | cons n shape => rfl
    | nil =>
      show Settles _ (if get [] == 0.0 then _ else _)
      by_cases h : (get [] == 0.0) = true
      · rw [if_pos h]; rfl
      · rw [if_neg h]
        refine ⟨.scalar (1.0 / get []), rfl, rfl, fun index _ => ?_⟩
        show (if get [] == 0.0 then _ else _) = _
        rw [if_neg h]
        rfl

/-- The field of `inverse(x - 1) * y` over the unit square: it cannot be sampled at once, and has no
    slopes at the right edge. -/
theorem request_inverse_eq_pointwise :
    let v : Vocabulary Meaning := ⟨[⟨"inverse", 1, inverse, ""⟩], by simp⟩
    let d : Domain := ⟨0.0, 1.0, 0.0, 1.0, by decide +kernel, by decide +kernel, by decide +kernel⟩
    ∃ eq field, Equation.compile v "inverse(x - 1) * y" = .ok eq ∧
      (request eq.toSlopeFunction d (.integer 3)).outcome = .ok field ∧
      (request eq.toSlopeFunction.pointwise d (.integer 3)).outcome = .ok field := by
  intro v d
  -- the only entry is the inverse
  have hv : v.IsElementwise := by
    intro e he
    rw [List.mem_singleton.1 he]
    exact inverse_isElementwise
  cases h : Equation.compile v "inverse(x - 1) * y" with
  | error failure =>
    have hok : (Equation.compile v "inverse(x - 1) * y").isOk = true := by decide +kernel
    rw [h] at hok
    cases hok
  | ok eq =>
    obtain ⟨field, hwhole, hpoints, _⟩ := request_eq_pointwise hv h d 3 (by decide)
    exact ⟨eq, field, rfl, hwhole, hpoints⟩

end Field

end DirectionField
