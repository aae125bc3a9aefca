import DirectionField.Proofs.Report
import DirectionField.Proofs.WalkOutcome
import DirectionField.Session

/-!
# What one request does to a session

`Session.graph_cases` and `Session.trace_cases` say everything that a request to graph and a request
to trace can do: the answer, and the session after it. Whatever holds along a whole run of requests
is derived from these two, and from `Session.attempt_eq_ok_iff` and `Session.pathOver_eq_ok`, which
say what the graph and the path are when there is one.
-/

namespace DirectionField

/-! ## Graphs -/

/-- The texts in the input fields of a request to graph. -/
structure Session.Inputs where
  equation : String
  domain : String
  range : String
  rows : String

/-- A graph shows what the input fields ask for: the equation compiled, the rectangle with proper
    bounds, and the slopes over a lattice with the number of rows. -/
structure Snapshot.Shows (vocabulary : Vocabulary Meaning) (i : Session.Inputs) (g : Snapshot) :
    Prop where
  equation : Equation.compile vocabulary i.equation = .ok g.equation
  domain : Input.domain (.text i.domain) (.text i.range) = .ok g.domain
  finite : ∀ bound ∈ [g.domain.left, g.domain.right, g.domain.lower, g.domain.upper], bound.isFinite
  left_lt_right : g.domain.left < g.domain.right
  lower_lt_upper : g.domain.lower < g.domain.upper
  field : ∃ rows : Int, Input.rowCount (.text i.rows) = .ok rows ∧
    (Field.request g.equation.toSlopeFunction g.domain (.integer rows)).outcome = .ok g.field

namespace Session

/-- Validation reads the row count and the domain. -/
theorem validate_eq_ok_iff (domainField rangeField rowsField : String) (rows : Int) (d : Domain) :
    validate domainField rangeField rowsField = .ok (rows, d) ↔
      Input.rowCount (.text rowsField) = .ok rows ∧
        Input.domain (.text domainField) (.text rangeField) = .ok d := by
  unfold validate
  simp only [Except.bind_eq_ok_iff, Except.pure_eq_ok_iff]
  constructor
  · rintro ⟨rows', hrows, d', hd, h⟩
    cases h
    exact ⟨hrows, hd⟩
  · rintro ⟨hrows, hd⟩
    exact ⟨rows, hrows, d, hd, rfl⟩

/-- An attempt ends in a graph if and only if that is what the input fields ask for. -/
theorem attempt_eq_ok_iff (s : Session) (i : Inputs) (g : Snapshot) :
    (s.attempt i.equation i.domain i.range i.rows).outcome = .ok g ↔ g.Shows s.vocabulary i := by
  unfold attempt
  constructor
  · intro h
    -- an attempt that ends in a graph has not failed at any of its three stages
    cases hv : validate i.domain i.range i.rows with
    | error failure => rw [hv] at h; cases h
    | ok p =>
      obtain ⟨rows, d⟩ := p
      obtain ⟨hrows, hd⟩ := (validate_eq_ok_iff ..).1 hv
      rw [hv] at h
      cases hc : Equation.compile s.vocabulary i.equation with
      | error failure => simp only [hc] at h; cases h
      | ok eq =>
        simp only [hc] at h
        cases hf : (Field.request eq.toSlopeFunction d (.integer rows)).outcome with
        | error failure => rw [hf] at h; cases h
        | ok field =>
          rw [hf] at h
          cases h
          exact ⟨hc, hd, List.all_eq_true.1 d.finite, d.left_lt_right, d.lower_lt_upper, rows,
            hrows, hf⟩
  · intro h
    obtain ⟨rows, hrows, hfield⟩ := h.field
    have hv := (validate_eq_ok_iff ..).2 ⟨hrows, h.domain⟩
    simp only [hv, h.equation, hfield]
    rfl

/-- How an attempt ends depends on the session only through its vocabulary. -/
theorem attempt_outcome_congr (s s' : Session) (h : s.vocabulary = s'.vocabulary)
    (equation domainField rangeField rowsField : String) :
    (s.attempt equation domainField rangeField rowsField).outcome =
      (s'.attempt equation domainField rangeField rowsField).outcome := by
  unfold attempt
  rw [h]
  cases validate domainField rangeField rowsField with
  | error failure => rfl
  | ok p =>
    obtain ⟨rows, d⟩ := p
    dsimp only
    cases Equation.compile s'.vocabulary equation with
    | error failure => rfl
    | ok eq => rfl

/-- A request to graph replaces the graph and drops the path, or records why it fails and keeps
    both, or passes a fault on. -/
theorem graph_cases (s : Session) (equation domainField rangeField rowsField : String) :
    let reply := s.graph equation domainField rangeField rowsField
    let attempt := s.attempt equation domainField rangeField rowsField
    (∃ g, attempt.outcome = .ok g ∧ reply.answer = .ok true ∧
      reply.session = { s with
        phase := .ready, snapshot := some g, path := none, error := none, hasCompiled := true }) ∨
    (∃ p, attempt.outcome = .error (.problem p) ∧ reply.answer = .ok false ∧
      reply.session = { s with phase := .failed, error := some p.message, hasCompiled := false }) ∨
    (∃ fault, attempt.outcome = .error (.fault fault) ∧ reply.answer = .error fault.passedOn ∧
      reply.session = { s with phase := attempt.phase, error := none, hasCompiled := false }) := by
  unfold graph
  dsimp only
  cases h : (s.attempt equation domainField rangeField rowsField).outcome with
  | ok g => exact .inl ⟨g, rfl, rfl, rfl⟩
  | error failure =>
    cases failure with
    | problem p => exact .inr (.inl ⟨p, rfl, rfl, rfl⟩)
    | fault fault => exact .inr (.inr ⟨fault, rfl, rfl, rfl⟩)

/-! ## Paths -/

/-- A path over a graph starts in its domain and is the one through its start with its step. -/
theorem pathOver_eq_ok {g : Snapshot} {limit : Int} {x y : Float} {stepField : Datum} {path : Path}
    (h : (pathOver g limit x y stepField).outcome = .ok path) :
    g.domain.contains path.start.x path.start.y = true ∧
      (Path.solve g.equation.toSlopeFunction path.start path.step g.domain limit).outcome =
        .ok path := by
  unfold pathOver at h
  simp only [Report.outcome_bind, Except.bind_eq_ok_iff] at h
  obtain ⟨step, _, h⟩ := h
  by_cases hin : g.domain.contains x y = true
  · rw [if_pos hin] at h
    obtain ⟨_, hstart, hstep, _⟩ := Path.solve_eq_ok_iff.1 h
    rw [hstart, hstep]
    exact ⟨hin, h⟩
  · rw [if_neg hin] at h
    cases h

/-- A request to trace records a path, or why there is none, or passes a fault on. It never touches
    the graph. -/
theorem trace_cases (s : Session) (x y : Float) (stepField : Datum) :
    let reply := s.trace x y stepField
    (∃ g path, s.snapshot = some g ∧ s.hasCompiled = true ∧
      (pathOver g s.limit x y stepField).outcome = .ok path ∧ reply.answer = .ok (some path) ∧
      reply.session = { s with phase := .ready, path := some path, error := none }) ∨
    (∃ g p, s.snapshot = some g ∧ s.hasCompiled = true ∧
      (pathOver g s.limit x y stepField).outcome = .error (.problem p) ∧ reply.answer = .ok none ∧
      reply.session = { s with error := some p.message }) ∨
    (∃ g fault, s.snapshot = some g ∧ s.hasCompiled = true ∧
      (pathOver g s.limit x y stepField).outcome = .error (.fault fault) ∧
      reply.answer = .error fault.passedOn ∧ reply.session = s) ∨
    ((s.snapshot = none ∨ s.hasCompiled = false) ∧ reply.answer = .ok none ∧
      reply.session = { s with error := some nothingGraphed }) := by
  unfold trace
  dsimp only
  -- there has to be a snapshot, and the last graph has to have been compiled
  cases hs : s.snapshot with
  | none => exact .inr (.inr (.inr ⟨.inl rfl, rfl, rfl⟩))
  | some g =>
    cases hc : s.hasCompiled with
    | false => exact .inr (.inr (.inr ⟨.inr rfl, rfl, rfl⟩))
    | true =>
      dsimp only
      cases ho : (pathOver g s.limit x y stepField).outcome with
      | ok path => exact .inl ⟨g, path, rfl, rfl, ho, rfl, rfl⟩
      | error failure =>
        cases failure with
        | problem p => exact .inr (.inl ⟨g, p, rfl, rfl, ho, rfl, rfl⟩)
        | fault fault => exact .inr (.inr (.inl ⟨g, fault, rfl, rfl, ho, rfl, rfl⟩))

end Session

end DirectionField
