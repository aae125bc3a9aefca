import DirectionField.Field
import DirectionField.Input
import DirectionField.Path

/-! # Sessions

A session answers two kinds of request: to graph an equation over a domain, and to trace the path
through a point over the latest graph. It keeps the last graph that succeeded, the path over it, and
the reason why the latest request failed. A request that fails with a `Problem` is recorded and
leaves the graph and the path as they were; a `Fault` is passed on to the caller, and the session
stays in the phase in which it was met. -/

namespace DirectionField

/-- Everything that is known about a graph. -/
structure Snapshot where
  equation : Equation
  domain : Domain
  field : Field

/-- What a session knows. -/
structure Session where
  vocabulary : Vocabulary Meaning
  /-- The most steps of a walk. -/
  limit : Int
  phase : Phase
  /-- The last graph that succeeded. -/
  snapshot : Option Snapshot
  /-- The last path over that graph. -/
  path : Option Path
  /-- Why the latest request failed. -/
  error : Option String
  /-- Whether the latest request to graph succeeded. -/
  hasCompiled : Bool

/-- A session after a request, what happened, and the answer to the request. -/
structure Reply (α : Type) where
  session : Session
  log : Log
  answer : Except Fault α

/-- How far a request to graph came: the phase in which it ended. -/
structure Attempt where
  phase : Phase
  log : Log
  outcome : Except Failure Snapshot

namespace Session

/-- A session without a graph. -/
def new (vocabulary : Vocabulary Meaning) (limit : Int) : Session :=
  ⟨vocabulary, limit, .idle, none, none, none, false⟩

/-- The row count and the domain in the fields of a request. -/
def validate (domainField rangeField rowsField : String) : Except Failure (Int × Domain) := do
  let rows ← Input.rowCount (.text rowsField)
  let domain ← Input.domain (.text domainField) (.text rangeField)
  return (rows, domain)

/-- Validate the fields, compile the equation and sample the field, in this order. -/
def attempt (s : Session) (equation domainField rangeField rowsField : String) : Attempt :=
  let log : Log := [.graphing equation domainField rangeField rowsField, .entered s.phase .validating]
  match validate domainField rangeField rowsField with
  | .error failure => ⟨.validating, log, .error failure⟩
  | .ok (rows, domain) =>
    let log := log ++ [.entered .validating .parsing]
    match Equation.compile s.vocabulary equation with
    | .error failure => ⟨.parsing, log, .error failure⟩
    | .ok eq =>
      let log := log ++ [eq.compiledEvent, .entered .parsing .computing]
      let report := Field.request eq.toSlopeFunction domain (.integer rows)
      ⟨.computing, log ++ report.log, report.outcome.map fun field => ⟨eq, domain, field⟩⟩

/-- Graph an equation. The answer is whether that succeeded. -/
def graph (s : Session) (equation domainField rangeField rowsField : String) : Reply Bool :=
  let a := s.attempt equation domainField rangeField rowsField
  match a.outcome with
  | .ok snapshot =>
    let s' := { s with
      phase := .ready, snapshot := some snapshot, path := none, error := none, hasCompiled := true }
    let events : Log := [.entered a.phase .ready,
      .graphed snapshot.equation.canonical snapshot.field.undefinedCount]
    ⟨s', a.log ++ events, .ok true⟩
  | .error (.problem p) =>
    let s' := { s with phase := .failed, error := some p.message, hasCompiled := false }
    ⟨s', a.log ++ [.entered a.phase .failed, .refused p.kind p.message], .ok false⟩
  | .error (.fault fault) =>
    -- a fault is not recorded, but the request has begun
    ⟨{ s with phase := a.phase, error := none, hasCompiled := false }, a.log, .error fault.passedOn⟩

/-- The width of a step that a request to trace asks for. A number is taken as it is, and anything
    else is read as the text of an input field. -/
def stepField : Datum → Except Failure Float
  | .real step => .ok step
  | d => do
    let text ← orFault d.display
    Input.step (.text text)

/-- The path through a point of a graph. -/
def pathOver (g : Snapshot) (limit : Int) (x y : Float) (stepField : Datum) : Report Path := do
  let step ← .ofExcept (Session.stepField stepField)
  if g.domain.contains x y then
    Path.solve g.equation.toSlopeFunction ⟨x, y⟩ step g.domain limit
  else
    .ofProblem (.error (.startOutside x y))

/-- Why a request to trace is refused while there is no graph. -/
def nothingGraphed : String := "nothing has been graphed yet"

/-- Trace the path through a point over the latest graph. The answer is the path, if there is
    one. -/
def trace (s : Session) (x y : Float) (stepField : Datum) : Reply (Option Path) :=
  match s.snapshot, s.hasCompiled with
  | some g, true =>
    let report := pathOver g s.limit x y stepField
    match report.outcome with
    | .ok path =>
      let events : Log := [.entered s.phase .pathComputed, .entered .pathComputed .ready]
      ⟨{ s with phase := .ready, path := some path, error := none }, report.log ++ events,
        .ok (some path)⟩
    | .error (.problem p) =>
      ⟨{ s with error := some p.message }, report.log ++ [.refused p.kind p.message], .ok none⟩
    | .error (.fault fault) => ⟨s, report.log, .error fault.passedOn⟩
  | _, _ =>
    ⟨{ s with error := some nothingGraphed }, [.traceIgnored nothingGraphed], .ok none⟩

end Session

end DirectionField
