import DirectionField.Proofs.SessionStep

/-!
# A session is what its requests and answers make of it

`Session.Reached` is a run: a new session has come to a state by some requests, each with its answer.
Histories are written with the latest request first. `Session.Records` says what every part of a
session has to be after a history in which every request was answered; it holds of a new session, and
no request breaks it.
-/

namespace DirectionField.Session

/-- A request to a session, with the answer. -/
inductive Exchange where
  | graph (inputs : Inputs) (answer : Except Fault Bool)
  | trace (x y : Float) (stepField : Datum) (answer : Except Fault (Option Path))

namespace Exchange

/-- Was there an answer, and not a fault? -/
def isAnswered : Exchange → Bool
  | .graph _ answer => answer.isOk
  | .trace _ _ _ answer => answer.isOk

/-- The answer to a request to graph. -/
def graphAnswer? : Exchange → Option Bool
  | .graph _ (.ok answer) => some answer
  | _ => none

/-- The input fields of a request to graph that succeeded. -/
def graphed? : Exchange → Option Inputs
  | .graph inputs (.ok true) => some inputs
  | _ => none

/-- The path that a request to trace found. -/
def path? : Exchange → Option Path
  | .trace _ _ _ (.ok path) => path
  | _ => none

/-- Did the request bring about what it asks for? -/
def succeeded (e : Exchange) : Bool := e.graphed?.isSome || e.path?.isSome

end Exchange

/-- The session of a vocabulary and a limit has come to a state by a history. -/
inductive Reached (vocabulary : Vocabulary Meaning) (limit : Int) :
    List Exchange → Session → Prop where
  | new : Reached vocabulary limit [] (.new vocabulary limit)
  | graph {history s} (h : Reached vocabulary limit history s) (i : Inputs) :
      Reached vocabulary limit
        (.graph i (s.graph i.equation i.domain i.range i.rows).answer :: history)
        (s.graph i.equation i.domain i.range i.rows).session
  | trace {history s} (h : Reached vocabulary limit history s) (x y : Float) (stepField : Datum) :
      Reached vocabulary limit (.trace x y stepField (s.trace x y stepField).answer :: history)
        (s.trace x y stepField).session

/-! ## What a history says -/

/-- The answer to the last request to graph, if there was one. -/
def lastAnswer? (history : List Exchange) : Option Bool := history.findSome? Exchange.graphAnswer?

/-- The input fields of the last graph that succeeded. -/
def lastGraphed? (history : List Exchange) : Option Inputs := history.findSome? Exchange.graphed?

/-- The last path since the last graph that succeeded. -/
def lastPath? (history : List Exchange) : Option Path :=
  (history.takeWhile fun e => e.graphed?.isNone).findSome? Exchange.path?

/-- The phase in which a session rests after the last request to graph. -/
def restingPhase : Option Bool → Phase
  | none => .idle
  | some true => .ready
  | some false => .failed

/-- Why a session refuses a request, if it does. -/
def objection? (s : Session) : Exchange → Option String
  | .graph i _ =>
    match (s.attempt i.equation i.domain i.range i.rows).outcome with
    | .error (.problem p) => some p.message
    | _ => none
  | .trace x y stepField _ =>
    match s.snapshot, s.hasCompiled with
    | some g, true =>
      match (pathOver g s.limit x y stepField).outcome with
      | .error (.problem p) => some p.message
      | _ => none
    | _, _ => some nothingGraphed

/-- Without a graph, or with one that is not the latest asked for, nothing is traced. -/
theorem objection?_of_no_graph {s : Session} (h : s.snapshot = none ∨ s.hasCompiled = false)
    (x y : Float) (stepField : Datum) {answer : Except Fault (Option Path)} :
    s.objection? (.trace x y stepField answer) = some nothingGraphed := by
  rcases h with h | h
  · simp only [objection?, h]
  · cases hg : s.snapshot with
    | none => simp only [objection?, hg]
    | some g => simp only [objection?, hg, h]

/-- The state of a session is what its history dictates. -/
structure Records (vocabulary : Vocabulary Meaning) (limit : Int) (history : List Exchange)
    (s : Session) : Prop where
  vocabulary_eq : s.vocabulary = vocabulary
  limit_eq : s.limit = limit
  /-- There is a graph if and only if a request to graph succeeded. -/
  snapshot_isSome : s.snapshot.isSome = (lastGraphed? history).isSome
  /-- The graph shows what the last of those requests asked for. -/
  snapshot_shows : ∀ g, s.snapshot = some g →
    ∃ i, lastGraphed? history = some i ∧ g.Shows vocabulary i
  /-- The path is the last one that was found over this graph. -/
  path_eq : s.path = lastPath? history
  /-- The path is the solution over this graph from a point in its domain. -/
  path_solves : ∀ path, s.path = some path → ∃ g, s.snapshot = some g ∧
    g.domain.contains path.start.x path.start.y = true ∧
    (Path.solve g.equation.toSlopeFunction path.start path.step g.domain limit).outcome = .ok path
  hasCompiled_iff : s.hasCompiled = true ↔ lastAnswer? history = some true
  phase_eq : s.phase = restingPhase (lastAnswer? history)
  /-- There is no error if and only if no request was made or the latest one succeeded. -/
  error_none_iff : s.error = none ↔ ∀ e, history.head? = some e → e.succeeded = true
  /-- An error says why the latest request was refused. -/
  error_eq : s.error = history.head?.bind s.objection?

variable {vocabulary : Vocabulary Meaning} {limit : Int} {history : List Exchange} {s : Session}

namespace Records

/-! ## Steps -/

/-- A new session has nothing on record. -/
theorem new (vocabulary : Vocabulary Meaning) (limit : Int) :
    Records vocabulary limit [] (.new vocabulary limit) where
  vocabulary_eq := rfl
  limit_eq := rfl
  snapshot_isSome := rfl
  snapshot_shows _ h := nomatch h
  path_eq := rfl
  path_solves _ h := nomatch h
  hasCompiled_iff := ⟨fun h => (nomatch h), fun h => (nomatch h)⟩
  phase_eq := rfl
  error_none_iff := ⟨fun _ _ h => (nomatch h), fun _ => rfl⟩
  error_eq := rfl

/-- A request to graph that is answered leaves a session as its history dictates. -/
theorem graph (h : Records vocabulary limit history s) (i : Inputs)
    (ha : (s.graph i.equation i.domain i.range i.rows).answer.isOk = true) :
    Records vocabulary limit
      (.graph i (s.graph i.equation i.domain i.range i.rows).answer :: history)
      (s.graph i.equation i.domain i.range i.rows).session := by
  rcases graph_cases s i.equation i.domain i.range i.rows with
    ⟨g, hg, hanswer, hs⟩ | ⟨p, hp, hanswer, hs⟩ | ⟨fault, hf, hanswer, hs⟩
  · -- the graph is replaced, and no path over the new one is known yet
    have hshows : g.Shows vocabulary i := h.vocabulary_eq ▸ (attempt_eq_ok_iff s i g).1 hg
    rw [hanswer, hs]
    exact {
      vocabulary_eq := h.vocabulary_eq
      limit_eq := h.limit_eq
      snapshot_isSome := rfl
      snapshot_shows := by
        intro g' hg'
        cases hg'
        exact ⟨i, rfl, hshows⟩
      path_eq := rfl
      path_solves := fun path hpath => nomatch hpath
      hasCompiled_iff := ⟨fun _ => rfl, fun _ => rfl⟩
      phase_eq := rfl
      error_none_iff := ⟨fun _ e he => by cases he; rfl, fun _ => rfl⟩
      error_eq := by
        -- the objection is asked of the new session, which has the old vocabulary
        have hout := attempt_outcome_congr s { s with
          phase := .ready, snapshot := some g, path := none, error := none, hasCompiled := true }
          rfl i.equation i.domain i.range i.rows
        simp only [List.head?_cons, Option.bind_some, objection?, ← hout, hg] }
  · -- the graph and the path stay, and what the history says about them too
    rw [hanswer, hs]
    exact {
      vocabulary_eq := h.vocabulary_eq
      limit_eq := h.limit_eq
      snapshot_isSome := h.snapshot_isSome
      snapshot_shows := h.snapshot_shows
      path_eq := h.path_eq
      path_solves := h.path_solves
      hasCompiled_iff := ⟨fun hc => (nomatch hc), fun hc => (nomatch hc)⟩
      phase_eq := rfl
      error_none_iff := ⟨fun he => (nomatch he), fun he => (nomatch he _ rfl)⟩
      error_eq := by
        have hout := attempt_outcome_congr s { s with
          phase := .failed, error := some p.message, hasCompiled := false }
          rfl i.equation i.domain i.range i.rows
        simp only [List.head?_cons, Option.bind_some, objection?, ← hout, hp] }
  · rw [hanswer] at ha
    cases ha

/-- A request to trace that is refused changes nothing but the error. -/
theorem refused_trace {x y : Float} {stepField : Datum} {message : String}
    (h : Records vocabulary limit history s)
    (hm : s.objection? (.trace x y stepField (.ok none)) = some message) :
    Records vocabulary limit (.trace x y stepField (.ok none) :: history)
      { s with error := some message } where
  vocabulary_eq := h.vocabulary_eq
  limit_eq := h.limit_eq
  snapshot_isSome := h.snapshot_isSome
  snapshot_shows := h.snapshot_shows
  path_eq := h.path_eq
  path_solves := h.path_solves
  hasCompiled_iff := h.hasCompiled_iff
  phase_eq := h.phase_eq
  error_none_iff := ⟨fun he => (nomatch he), fun he => (nomatch he _ rfl)⟩
  error_eq := hm.symm

/-- A request to trace that is answered leaves a session as its history dictates. -/
theorem trace (h : Records vocabulary limit history s) (x y : Float) (stepField : Datum)
    (ha : (s.trace x y stepField).answer.isOk = true) :
    Records vocabulary limit (.trace x y stepField (s.trace x y stepField).answer :: history)
      (s.trace x y stepField).session := by
  rcases trace_cases s x y stepField with
    ⟨g, path, hg, hc, hp, hanswer, hs⟩ | ⟨g, p, hg, hc, hp, hanswer, hs⟩ |
    ⟨g, fault, hg, hc, hp, hanswer, hs⟩ | ⟨hno, hanswer, hs⟩
  · -- the latest graph asked for is there, so the session rests in the same phase as before
    have hsolve := pathOver_eq_ok hp
    rw [h.limit_eq] at hsolve
    have hlast : lastAnswer? history = some true := h.hasCompiled_iff.1 hc
    rw [hanswer, hs]
    exact {
      vocabulary_eq := h.vocabulary_eq
      limit_eq := h.limit_eq
      snapshot_isSome := h.snapshot_isSome
      snapshot_shows := h.snapshot_shows
      path_eq := rfl
      path_solves := by
        intro path' hpath
        cases hpath
        exact ⟨g, hg, hsolve⟩
      hasCompiled_iff := h.hasCompiled_iff
      phase_eq := by
        show Phase.ready = restingPhase (lastAnswer? history)
        rw [hlast]
        rfl
      error_none_iff := ⟨fun _ e he => by cases he; rfl, fun _ => rfl⟩
      error_eq := by simp only [List.head?_cons, Option.bind_some, objection?, hg, hc, hp] }
  · -- no path was found
    rw [hanswer, hs]
    exact h.refused_trace (by simp only [objection?, hg, hc, hp])
  · rw [hanswer] at ha
    cases ha
  · -- there is nothing to trace over
    rw [hanswer, hs]
    exact h.refused_trace (objection?_of_no_graph hno x y stepField)

end Records

/-! ## Runs -/

/-- Answered or not, no request changes the vocabulary, and a graph is made with it. -/
theorem Reached.vocabulary_eq (h : Reached vocabulary limit history s) :
    s.vocabulary = vocabulary ∧ ∀ g, s.snapshot = some g → g.equation.vocabulary = vocabulary := by
  -- request by request; only one that succeeds changes the snapshot, and it compiles with this
  -- vocabulary
  induction h with
  | new => exact ⟨rfl, fun _ hg => (nomatch hg)⟩
  | @graph _ s' _ i ih =>
    rcases graph_cases s' i.equation i.domain i.range i.rows with
      ⟨g, hg, _, hs⟩ | ⟨p, _, _, hs⟩ | ⟨fault, _, _, hs⟩
    · rw [hs]
      refine ⟨ih.1, fun g' hg' => ?_⟩
      cases hg'
      have hshows := (attempt_eq_ok_iff s' i g).1 hg
      rw [Equation.vocabulary_of_compile hshows.equation, ih.1]
    · rw [hs]
      exact ih
    · rw [hs]
      exact ih
  | @trace _ s' _ x y stepField ih =>
    rcases trace_cases s' x y stepField with
      ⟨_, _, _, _, _, _, hs⟩ | ⟨_, _, _, _, _, _, hs⟩ | ⟨_, _, _, _, _, _, hs⟩ | ⟨_, _, hs⟩
    · rw [hs]; exact ih
    · rw [hs]; exact ih
    · rw [hs]; exact ih
    · rw [hs]; exact ih

/-- After any requests that were all answered, in any order, a session is what the requests and the
    answers dictate. -/
theorem Reached.records (h : Reached vocabulary limit history s)
    (ha : ∀ e ∈ history, e.isAnswered = true) : Records vocabulary limit history s := by
  -- an answered history is one request in front of an answered history
  induction h with
  | new => exact Records.new vocabulary limit
  | graph _ i ih =>
    have hrest := ih fun e he => ha e (List.mem_cons_of_mem _ he)
    exact hrest.graph i (ha _ List.mem_cons_self)
  | trace _ x y stepField ih =>
    have hrest := ih fun e he => ha e (List.mem_cons_of_mem _ he)
    exact hrest.trace x y stepField (ha _ List.mem_cons_self)

/-- A graph of `x` over the unit square, and then the path through its center. -/
theorem records_graph_trace :
    let i : Inputs := ⟨"x", "0, 1", "0, 1", "2"⟩
    let graphed := (new .empty 10).graph i.equation i.domain i.range i.rows
    let traced := graphed.session.trace 0.5 0.5 (.real 0.25)
    (graphed.answer.isOk = true ∧ traced.answer.isOk = true) ∧
      Records .empty 10 [.trace 0.5 0.5 (.real 0.25) traced.answer, .graph i graphed.answer]
        traced.session := by
  intro i graphed traced
  have hanswered : graphed.answer.isOk = true ∧ traced.answer.isOk = true := by decide +kernel
  refine ⟨hanswered, Reached.records (.trace (.graph .new i) 0.5 0.5 (.real 0.25)) ?_⟩
  intro e he
  rcases List.mem_cons.1 he with rfl | he
  · exact hanswered.2
  · rw [List.mem_singleton.1 he]
    exact hanswered.1

end DirectionField.Session
