import DirectionField.EquationError
import DirectionField.Fault
import DirectionField.Number.Text

/-! # Problems

A problem is a reason, meant for the user, why a request cannot be carried out. Each has a kind, by
which it is announced, and a wording. An operation that can meet faults as well fails with a
`Failure`, which is one or the other.

What a problem shows of integers and of other data is text already, so that every problem has a
wording. A text that cannot be had makes a fault of the problem where it is met
(`Failure.ofWorded`). -/

namespace DirectionField

/-- The kinds of problem. -/
inductive Problem.Kind where
  | inputFormat
  | equation
  | gridSize
  | stepSize
  | domain
  | evaluation
  | stepCount
  /-- What an implementation of a function reports under a name of its own. -/
  | reported (name : String)
deriving Repr, DecidableEq

/-- The name of a kind in the log. -/
def Problem.Kind.name : Problem.Kind → String
  | .inputFormat => "InputFormatError"
  | .equation => "ParseError"
  | .gridSize => "InvalidGridSize"
  | .stepSize => "InvalidStepSize"
  | .domain => "InvalidDomain"
  | .evaluation => "EvaluationError"
  | .stepCount => "StepCountExceeded"
  | .reported name => name

/-- Why a request cannot be carried out. Literals and the texts of integers show what was given. -/
inductive Problem where
  | notANumber (label literal : String)
  | notAPair (label literal : String)
  | notAnInteger (literal : String)
  | equation (message : String) (position : Option Nat)
  | rowsNotAnInteger (literal : String)
  | tooFewRows (minimum : Nat) (rows : String)
  | stepNotANumber (literal : String)
  | stepNotPositive (step : Float)
  | boundsNotFinite (left right lower upper : Float)
  | domainNotIncreasing (left right : Float)
  | rangeNotIncreasing (lower upper : Float)
  | startNotFinite (x y : Float)
  | distanceNotFinite (distance : Float)
  | startOutside (x y : Float)
  | tooManySteps (count : String) (step : Float) (limit : String)
  | reported (name message : String)

namespace Problem

/-- The kind of a problem. -/
def kind : Problem → Kind
  | .notANumber .. | .notAPair .. | .notAnInteger _ => .inputFormat
  | .equation .. => .equation
  | .rowsNotAnInteger _ | .tooFewRows .. => .gridSize
  | .stepNotANumber _ | .stepNotPositive _ => .stepSize
  | .boundsNotFinite .. | .domainNotIncreasing .. | .rangeNotIncreasing .. => .domain
  | .startNotFinite .. | .distanceNotFinite _ | .startOutside .. => .evaluation
  | .tooManySteps .. => .stepCount
  | .reported name _ => .reported name

/-- Numbers in parentheses. -/
def tuple (xs : List Float) : String := "(" ++ ", ".intercalate (xs.map NumberText.plain) ++ ")"

/-- The wording of a problem. -/
def message : Problem → String
  | .notANumber label literal =>
    "Could not parse " ++ label ++ ": " ++ literal ++ " is not a number"
  | .notAPair label literal =>
    "Could not parse " ++ label ++ ": expected two comma-separated numbers, got " ++ literal
  | .notAnInteger literal => "Could not parse row count: " ++ literal ++ " is not an integer"
  | .equation message none => message
  | .equation message (some position) => message ++ " (at position " ++ toString position ++ ")"
  | .rowsNotAnInteger literal => "slope line count must be an integer, got " ++ literal
  | .tooFewRows minimum rows =>
    "slope line count must be at least " ++ toString minimum ++ ", got " ++ rows
  | .stepNotANumber literal => "step size must be a number, got " ++ literal
  | .stepNotPositive step =>
    "step size must be a finite number > 0, got " ++ NumberText.plain step
  | .boundsNotFinite left right lower upper =>
    "bounds must be finite, got " ++ tuple [left, right, lower, upper]
  | .domainNotIncreasing left right =>
    "domain right " ++ tuple [right] ++ " must exceed left " ++ tuple [left]
  | .rangeNotIncreasing lower upper =>
    "range upper " ++ tuple [upper] ++ " must exceed lower " ++ tuple [lower]
  | .startNotFinite x y => "initial point must be finite, got " ++ tuple [x, y]
  | .distanceNotFinite distance =>
    "bound must be finite, got distance " ++ NumberText.plain distance
  | .startOutside x y =>
    "initial point " ++ tuple [x, y] ++ " lies outside the graphed domain"
  | .tooManySteps count step limit =>
    count ++ " steps needed with step size " ++ NumberText.plain step ++ "; the limit is " ++ limit
  | .reported _ message => message

end Problem

/-- Why an operation came to no result. -/
inductive Failure where
  | problem (p : Problem)
  | fault (f : Fault)

namespace Failure

/-- A fault as a failure; what an implementation reports is a problem. -/
def ofFault : Fault → Failure
  | .reported name message => .problem (.reported name message)
  | f => .fault f

/-- A problem that has been put into words, or the fault that the attempt to word it signals. -/
def ofWorded : Except Fault Problem → Failure
  | .ok p => .problem p
  | .error f => .ofFault f

/-- What is wrong with an equation, reported. -/
def ofEquationError (e : EquationError) : Failure :=
  .ofWorded (e.cause.message.map (.equation · e.position))

end Failure

/-- An outcome that can be a problem, as one that can be any failure. -/
def orProblem {α : Type} (r : Except Problem α) : Except Failure α := r.mapError .problem

/-- An outcome that can be a fault, as one that can be any failure. -/
def orFault {α : Type} (r : Except Fault α) : Except Failure α := r.mapError .ofFault

end DirectionField
