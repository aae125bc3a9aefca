import DirectionField.Problem
import DirectionField.Text.Quoted

/-! # Events

What the operations have to tell besides their results. An event has a level, an origin and a
wording; a log is the list of the events of an operation in the order in which they happened. -/

namespace DirectionField

/-- How much an event matters. -/
inductive Level where
  | debug
  | info
  | warning
deriving Repr, DecidableEq

/-- The name of a level in the log. -/
def Level.name : Level → String
  | .debug => "DEBUG"
  | .info => "INFO"
  | .warning => "WARNING"

/-- The level of a given name. -/
def Level.ofName? (name : String) : Option Level :=
  if name = "WARNING" then some .warning
  else if name = "INFO" then some .info
  else if name = "DEBUG" then some .debug
  else none

/-- The rank of a level; what matters more ranks higher. -/
def Level.rank : Level → Nat
  | .debug => 0
  | .info => 1
  | .warning => 2

/-- The part of the program that an event comes from. -/
inductive Origin where
  | session
  | equation
  | field
  | path
deriving Repr, DecidableEq

/-- The name of an origin in the log. -/
def Origin.name : Origin → String
  | .session => "slope_field.session"
  | .equation => "slope_field.compiler.equation"
  | .field => "slope_field.solver.grid"
  | .path => "slope_field.solver.euler"

/-- Where a session stands. -/
inductive Phase where
  | idle
  | validating
  | parsing
  | computing
  | ready
  | pathComputed
  | failed
deriving Repr, DecidableEq

/-- The name of a phase. -/
def Phase.name : Phase → String
  | .idle => "idle"
  | .validating => "validating"
  | .parsing => "parsing"
  | .computing => "computing"
  | .ready => "ready"
  | .pathComputed => "path_computed"
  | .failed => "failed"

/-- Something that happened. -/
inductive Event where
  /-- A session is asked to graph an equation. -/
  | graphing (equation domain range rows : String)
  /-- A session goes from one phase to another. -/
  | entered (old new : Phase)
  /-- A request to a session fails. -/
  | refused (kind : Problem.Kind) (message : String)
  /-- A request to trace a path comes while there is no graph. -/
  | traceIgnored (message : String)
  /-- An equation is compiled. -/
  | compiled (text canonical : String)
  /-- A graph is complete. -/
  | graphed (canonical : String) (undefined : Nat)
  /-- An equation cannot be evaluated over a whole lattice. -/
  | wholeLatticeFailed (message : String)
  /-- An equation has no slope at a point. -/
  | slopeUndefined (origin : Origin) (x y : Float) (message : String)
  /-- A lattice of slopes is complete. -/
  | sampled (rows undefined : Nat)
  /-- A step of a forward walk is left out. -/
  | stepSkipped (x : Float)
  /-- Both walks of a path are complete. -/
  | pathFound (x y : Float) (forward backward : Nat)

namespace Event

/-- How much an event matters. -/
def level : Event → Level
  | .graphing .. | .graphed .. => .info
  | .refused .. | .traceIgnored _ => .warning
  | _ => .debug

/-- The part of the program that an event comes from. -/
def origin : Event → Origin
  | .compiled .. => .equation
  | .wholeLatticeFailed _ | .sampled .. => .field
  | .slopeUndefined origin .. => origin
  | .stepSkipped _ | .pathFound .. => .path
  | _ => .session

/-- A point in a log line. -/
def pointText (x y : Float) : String :=
  "(" ++ NumberText.compact x ++ ", " ++ NumberText.compact y ++ ")"

/-- The wording of an event. -/
def message : Event → String
  | .graphing equation domain range rows =>
    "Graphing y'=" ++ equation ++ " on x=[" ++ domain ++ "] and y=[" ++ range ++ "] with " ++ rows ++
      " slope lines per row"
  | .entered old new => "session " ++ old.name ++ " -> " ++ new.name
  | .refused kind message => kind.name ++ ": " ++ message
  | .traceIgnored message => "trace ignored: " ++ message
  | .compiled text canonical => "compiled " ++ Text.quote text ++ " as " ++ canonical
  | .graphed canonical undefined =>
    "graphed " ++ canonical ++ " (" ++ toString undefined ++ " undefined slopes)"
  | .wholeLatticeFailed message =>
    "vectorised evaluation failed, sampling per cell: " ++ message
  | .slopeUndefined _ x y message => "slope undefined at " ++ pointText x y ++ ": " ++ message
  | .sampled rows undefined =>
    "computed " ++ toString rows ++ "x" ++ toString rows ++ " slope grid (" ++ toString undefined ++
      " undefined)"
  | .stepSkipped x => "skipping forward step at x=" ++ NumberText.compact x ++
      ": infinite derivative"
  | .pathFound x y forward backward =>
    "euler path from " ++ pointText x y ++ ": " ++ toString forward ++ " forward, " ++
      toString backward ++ " backward points"

/-- The event that tells about a fault in its own words. A fault without words is not told about. -/
def ofFault? (event : String → Event) (fault? : Option Fault) : List Event :=
  fault?.toList.filterMap fun fault => fault.message.toOption.map event

/-- An event as a line of the log. -/
def line (e : Event) : String := e.level.name ++ ":" ++ e.origin.name ++ ":" ++ e.message

end Event

/-- What happened during an operation, in order. -/
abbrev Log := List Event

/-- The lines of the events that matter at least as much as a level. -/
def Log.lines (log : Log) (least : Level) : List String :=
  (log.filter fun e => least.rank ≤ e.level.rank).map Event.line

end DirectionField
