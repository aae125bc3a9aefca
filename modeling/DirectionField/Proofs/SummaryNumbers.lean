import DirectionField.CommandLine.Run
import DirectionField.Main
import DirectionField.Proofs.JsonText
import DirectionField.Proofs.LatticeSpan
import DirectionField.Proofs.SessionStep
import DirectionField.Proofs.WalkOutcome

/-!
# The numbers that a summary shows

A summary shows slopes and the ordinates of a path as null where they are not finite; the bounds of a
domain and the start and the step of a path are checked to be finite. The coordinates of the lattice
and the abscissae of the path (`Summary.coordinates`) are shown as they are computed.
`CommandLine.summary_isStrict_iff` says that a printed summary is strict JSON if and only if these are
finite, and that they are not over a domain so wide or high that its extent is infinite.
-/

namespace DirectionField

namespace Field

/-- A field that is asked for is over a lattice of its domain with at least two rows. -/
theorem lattice_of_request {f : SlopeFunction} {d : Domain} {rows : Datum} {field : Field}
    (h : (request f d rows).outcome = .ok field) :
    field.domain = d ∧ ∃ n, leastRows ≤ n ∧ field.xs = d.abscissae n ∧ field.ys = d.ordinates n := by
  unfold request sample at h
  simp only [Report.outcome_bind, Report.outcome_ofExcept, Except.bind_eq_ok_iff] at h
  obtain ⟨n, hn, slopes, _, _, _, h⟩ := h
  cases h
  exact ⟨rfl, n, leastRows_le_of_rowsOf hn, rfl, rfl⟩

end Field

/-! ## Summaries -/

namespace Summary

/-- The numbers that are shown as they are computed: the coordinates of the lattice and the
    abscissae of the path. -/
def coordinates (s : Summary) : List Float :=
  s.field.xs.toList ++ s.field.ys.toList ++
    s.path.elim [] fun p => (p.forward ++ p.backward).map Point.x

section NotFinite

variable {x : Float}

/-- What is not finite is none of the finite numbers. -/
theorem ne_of_isFinite (hx : x.isFinite = false) {y : Float} (hy : y.isFinite = true) : x ≠ y := by
  rintro rfl
  rw [hx] at hy
  cases hy

/-- Numbers that are not finite are left out where `null` may stand. -/
theorem not_mem_numbers_finite (hx : x.isFinite = false) (y : Float) :
    x ∉ (Json.finite y).numbers := by
  simp only [Json.mem_numbers_finite, not_and]
  exact fun h hy => ne_of_isFinite hx hy h

/-- The bounds of a domain are finite. -/
theorem not_mem_numbers_domainJson (hx : x.isFinite = false) (d : Domain) :
    x ∉ (domainJson d).numbers := by
  have h := d.finite
  simp only [List.all_cons, List.all_nil, Bool.and_true, Bool.and_eq_true] at h
  obtain ⟨hleft, hright, hlower, hupper⟩ := h
  simp [domainJson, ne_of_isFinite hx hleft, ne_of_isFinite hx hright, ne_of_isFinite hx hlower,
    ne_of_isFinite hx hupper]

/-- Of a point, the abscissa is printed as it is. -/
theorem mem_numbers_pointJson_iff (hx : x.isFinite = false) (q : Point) :
    x ∈ (pointJson q).numbers ↔ x = q.x := by
  simp [pointJson, not_mem_numbers_finite hx]

/-- Of a path, the abscissae are printed as they are. Its start and its step are finite. -/
theorem mem_numbers_pathJson_iff (hx : x.isFinite = false) {p : Path}
    (h : CanWalk p.start p.step) :
    x ∈ (pathJson p).numbers ↔ x ∈ (p.forward ++ p.backward).map Point.x := by
  obtain ⟨⟨hstartX, hstartY⟩, hstep, _⟩ := h
  simp [pathJson, ne_of_isFinite hx hstartX, ne_of_isFinite hx hstartY, ne_of_isFinite hx hstep,
    mem_numbers_pointJson_iff hx, eq_comm]

/-- If its path starts well, the numbers in a summary that are not finite are those of its
    coordinates. -/
theorem mem_numbers_toJson_iff (hx : x.isFinite = false) {s : Summary}
    (hpath : ∀ p, s.path = some p → CanWalk p.start p.step) :
    x ∈ s.toJson.numbers ↔ x ∈ s.coordinates := by
  -- texts hold no numbers
  have hlatex : x ∉ (s.latex.elim Json.null .text).numbers := by
    cases s.latex <;> simp
  have hpathJson : x ∈ (s.path.elim Json.null pathJson).numbers ↔
      x ∈ s.path.elim [] fun p => (p.forward ++ p.backward).map Point.x := by
    cases hp : s.path with
    | none => simp
    | some p => exact mem_numbers_pathJson_iff hx (hpath p hp)
  unfold coordinates
  simp [toJson, numbers, hlatex, not_mem_numbers_domainJson hx, not_mem_numbers_finite hx,
    hpathJson]

end NotFinite

end Summary

/-! ## Runs -/

namespace CommandLine

variable {lib : Elementary} {env : PlottingEnvironment} {argv : List String} {s : Summary}

/-- What is traced over the graph of a session is the path through its own start. Where there should
    be one and is none, the command ends otherwise than with a summary. -/
theorem Arguments.tracePath_cases (args : Arguments) {session : Session} {g : Snapshot}
    (hg : session.snapshot = some g) :
    (∃ path, (args.tracePath session).2 = .ok path ∧ ∀ p, path = some p →
      (Path.solve g.equation.toSlopeFunction p.start p.step g.domain session.limit).outcome =
        .ok p) ∨
    ∃ ending, (args.tracePath session).2 = .error ending ∧ ∀ s, ending ≠ .summarized s := by
  unfold tracePath
  cases args.initialText with
  | none => exact .inl ⟨none, rfl, fun _ h => (nomatch h)⟩
  | some text =>
    dsimp only
    cases Input.point (.text text) with
    | error failure =>
      cases failure with
      | problem p => exact .inr ⟨_, rfl, fun _ h => (nomatch h)⟩
      | fault fault => exact .inr ⟨_, rfl, fun _ h => (nomatch h)⟩
    | ok start =>
      dsimp only
      rcases Session.trace_cases session start.x start.y (.text args.step) with
        ⟨g', path, hg', _, hsolve, hanswer, _⟩ | ⟨_, _, _, _, _, hanswer, _⟩ |
        ⟨_, _, _, _, _, hanswer, _⟩ | ⟨_, hanswer, _⟩
      · rw [hanswer]
        cases hg.symm.trans hg'
        refine .inl ⟨some path, rfl, fun p hp => ?_⟩
        cases hp
        exact (Session.pathOver_eq_ok hsolve).2
      -- no other answer leads to a summary
      · rw [hanswer]
        exact .inr ⟨_, rfl, fun _ h => (nomatch h)⟩
      · rw [hanswer]
        exact .inr ⟨_, rfl, fun _ h => (nomatch h)⟩
      · rw [hanswer]
        exact .inr ⟨_, rfl, fun _ h => (nomatch h)⟩

/-- A summary has the field of the graph and the path that was traced. -/
theorem Arguments.present_summarized {args : Arguments} {g : Snapshot} {path : Option Path}
    (h : args.present lib env g path = .summarized s) : s.field = g.field ∧ s.path = path := by
  unfold present at h
  split at h
  · cases h
    exact ⟨rfl, rfl⟩
  · split at h
    · cases h
    · cases h

/-- A summary shows the graph that input fields ask for and, if it shows a path, the one over that
    graph through its own start. -/
structure Shows (lib : Elementary) (s : Summary) (i : Session.Inputs) (g : Snapshot) : Prop where
  graph : g.Shows (.standard lib) i
  field_eq : s.field = g.field
  path_solves : ∀ p, s.path = some p →
    (Path.solve g.equation.toSlopeFunction p.start p.step g.domain stepLimit).outcome = .ok p

/-- A summary shows a snapshot of the inputs. -/
theorem Arguments.graph_summarized {args : Arguments} {text : String}
    (h : (args.graph lib env text).ending = .summarized s) : ∃ i g, Shows lib s i g := by
  unfold graph at h
  dsimp only at h
  have hcases := Session.graph_cases (.new (.standard lib) stepLimit) text args.domain args.range
    args.rows
  dsimp only at hcases
  -- the reply to the request is all that is looked at
  generalize (Session.new (.standard lib) stepLimit).graph text args.domain args.range args.rows =
    reply at h hcases
  rcases hcases with ⟨g, hg, hanswer, hsession⟩ | ⟨_, _, hanswer, _⟩ | ⟨_, _, hanswer, _⟩
  · -- only a request that was answered with a graph ends in a summary
    have hshows :=
      (Session.attempt_eq_ok_iff _ ⟨text, args.domain, args.range, args.rows⟩ g).1 hg
    have hsnapshot : reply.session.snapshot = some g := by rw [hsession]
    have hlimit : reply.session.limit = stepLimit := by rw [hsession]; rfl
    simp only [hanswer, hsnapshot] at h
    rcases args.tracePath_cases hsnapshot with ⟨path, htrace, hsolves⟩ | ⟨ending, htrace, hending⟩
    · rw [htrace] at h
      rw [hlimit] at hsolves
      obtain ⟨hfield, hpath⟩ := present_summarized h
      exact ⟨_, g, hshows, hfield, hpath ▸ hsolves⟩
    · rw [htrace] at h
      exact absurd h (hending s)
  · simp only [hanswer] at h
    cases h
  · simp only [hanswer] at h
    cases h

/-- A command line leads to a summary only of a graph that it asks for. -/
theorem run_summarized (h : (run lib env argv).ending = .summarized s) :
    ∃ i g, Shows lib s i g := by
  unfold run at h
  split at h
  · cases h
  · cases h
  · next args _ =>
    unfold Arguments.perform at h
    split at h
    · cases h
    · split at h
      · cases h
      · exact Arguments.graph_summarized h

/-- Finite coordinates are those of a domain with a finite width and height. -/
theorem Shows.extent_isFinite {i : Session.Inputs} {g : Snapshot} (h : Shows lib s i g)
    (hall : ∀ x ∈ s.coordinates, x.isFinite = true) :
    s.field.domain.width.isFinite = true ∧ s.field.domain.height.isFinite = true := by
  obtain ⟨_, _, hfield⟩ := h.graph.field
  obtain ⟨hdomain, n, hn, hxs, hys⟩ := Field.lattice_of_request hfield
  simp only [Summary.coordinates, h.field_eq, List.forall_mem_append, Array.mem_toList_iff] at hall
  obtain ⟨⟨hx, hy⟩, _⟩ := hall
  rw [h.field_eq, hdomain]
  rw [hxs] at hx
  rw [hys] at hy
  exact ⟨isFinite_extent_of_linspace hn hx, isFinite_extent_of_linspace hn hy⟩

/-- The numbers in a printed summary that are not finite are exactly those of its coordinates, so
    that the line is strict JSON, with no name of such a number outside its strings, if and only if
    the coordinates are finite. They are not over a domain whose width or height is infinite. -/
theorem summary_isStrict_iff (h : (run lib env argv).ending = .summarized s)
    (temporaryPath : String) :
    (run lib env argv).ending.output temporaryPath = [s.toJson.render] ∧
      (∀ x : Float, x.isFinite = false → (x ∈ s.toJson.numbers ↔ x ∈ s.coordinates)) ∧
      (s.toJson.IsStrict ↔ ∀ x ∈ s.coordinates, x.isFinite = true) ∧
      (¬ Json.NamesNonfinite s.toJson.render ↔ ∀ x ∈ s.coordinates, x.isFinite = true) ∧
      ((∀ x ∈ s.coordinates, x.isFinite = true) →
        s.field.domain.width.isFinite = true ∧ s.field.domain.height.isFinite = true) := by
  obtain ⟨i, g, hshows⟩ := run_summarized h
  have hmem (x : Float) (hx : x.isFinite = false) : x ∈ s.toJson.numbers ↔ x ∈ s.coordinates :=
    Summary.mem_numbers_toJson_iff hx fun p hp => by
      obtain ⟨hwalk, _⟩ := Path.solve_eq_ok_iff.1 (hshows.path_solves p hp)
      exact hwalk
  -- numbers that contain no others that are not finite are finite if the others are
  have hfinite {l l' : List Float} (hsub : ∀ x, x.isFinite = false → x ∈ l → x ∈ l')
      (hl' : ∀ x ∈ l', x.isFinite = true) : ∀ x ∈ l, x.isFinite = true := by
    intro x hx
    by_contra hnot
    exact hnot (hl' x (hsub x (Bool.eq_false_iff.2 hnot) hx))
  have hstrict : s.toJson.IsStrict ↔ ∀ x ∈ s.coordinates, x.isFinite = true :=
    ⟨hfinite fun x hx => (hmem x hx).2, hfinite fun x hx => (hmem x hx).1⟩
  refine ⟨by rw [h]; rfl, hmem, hstrict, ?_, hshows.extent_isFinite⟩
  rw [Json.namesNonfinite_render_iff, not_not, hstrict]

/-- The summary of a graph of `x` with four slopes is strict JSON. -/
theorem summary_isStrict_small :
    ∃ s, (run .native noPlotting ["x", "--rows", "2", "--json"]).ending = .summarized s ∧
      s.toJson.IsStrict ∧ ¬ Json.NamesNonfinite s.toJson.render := by
  have hfinite : (match (run .native noPlotting ["x", "--rows", "2", "--json"]).ending with
      | .summarized s => s.coordinates.all Float.isFinite
      | _ => false) = true := by
    decide +kernel
  cases h : (run .native noPlotting ["x", "--rows", "2", "--json"]).ending with
  | summarized s =>
    rw [h] at hfinite
    obtain ⟨_, _, hstrict, hnames, _⟩ := summary_isStrict_iff h ""
    have hall := List.all_eq_true.1 hfinite
    exact ⟨s, rfl, hstrict.2 hall, hnames.2 hall⟩
  | _ => rw [h] at hfinite; cases hfinite

/-- A wide step from near the right bound of a wide domain leaves the finite numbers. -/
theorem summary_overflows :
    let argv := ["0", "--domain=-1,1.7e308", "--rows", "2", "--initial", "1.6e308,0", "--step",
      "1e308", "--json"]
    ∃ s, (run .native noPlotting argv).ending = .summarized s ∧
      ¬ s.toJson.IsStrict ∧ Json.NamesNonfinite s.toJson.render := by
  intro argv
  -- some number of the summary is not finite
  have hfinite : (match (run .native noPlotting argv).ending with
      | .summarized s => s.toJson.numbers.all Float.isFinite
      | _ => true) = false := by
    decide +kernel
  cases h : (run .native noPlotting argv).ending with
  | summarized s =>
    rw [h] at hfinite
    have hnot : ¬ s.toJson.IsStrict := by
      unfold Json.IsStrict
      rw [← List.all_eq_true, Bool.not_eq_true]
      exact hfinite
    exact ⟨s, rfl, hnot, (Json.namesNonfinite_render_iff _).2 hnot⟩
  | _ => rw [h] at hfinite; cases hfinite

end CommandLine

end DirectionField
