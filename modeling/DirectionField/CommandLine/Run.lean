import DirectionField.CommandLine.Arguments
import DirectionField.Drawing.Backend
import DirectionField.Drawing.Canvas
import DirectionField.Form.Latex
import DirectionField.Form.OfExpr
import DirectionField.Session
import DirectionField.Summary

/-! # Carrying out a command

A command lists the functions, or graphs one equation, perhaps traces a path over the graph, and
shows the result as JSON or as a drawing. Nothing is printed here: a run is the log and the way in
which the command ends (`Ending`), from which the texts and the exit code follow. -/

namespace DirectionField.CommandLine

/-- How a command ends. -/
inductive Ending where
  | help
  | misused (e : UsageError)
  /-- The request cannot be carried out, for a reason meant for the user. -/
  | failed (reason : String)
  | broken (fault : Fault)
  | listed (lines : List String)
  | summarized (s : Summary)
  /-- There is a drawing; the way it is announced depends on whether the user named the file. -/
  | drawn (strokes : List Stroke) (target : Target) (named : Bool)

/-- A command that has been carried out. -/
structure Run where
  log : Log
  /-- How much an event has to matter in order to be shown. -/
  level : Level
  ending : Ending

namespace Ending

/-- The exit code of a command. -/
def exitCode : Ending → UInt8
  | .misused _ => 2
  | .failed _ | .broken _ => 1
  | .help | .listed _ | .summarized _ | .drawn .. => 0

/-- What a command that ends early has to say about it. -/
def complaint? : Ending → Option String
  | .misused e => some ("slope-field: error: " ++ e.message)
  | .failed reason => some ("Error: " ++ reason)
  | .broken fault => some fault.text
  | .help | .listed _ | .summarized _ | .drawn .. => none

/-- The lines that a command prints, where `temporaryPath` is the path of a temporary file. -/
def output (temporaryPath : String) : Ending → List String
  | .listed lines => lines
  | .summarized s => [s.toJson.render]
  | .drawn _ target named =>
    let path := match target with
      | .file path => path
      | .temporary => temporaryPath
    [if named then "✔ Slope field written to " ++ path else path]
  | .help | .misused _ | .failed _ | .broken _ => []

end Ending

/-- The lines of the log that a run shows. -/
def Run.logLines (r : Run) : List String := r.log.lines r.level

namespace Arguments

/-- The equation of the demonstration. -/
def demoEquation : String := "sin x + y"

/-- The initial point of the demonstration. -/
def demoInitial : String := "0.0,0.0"

/-- The equation that is asked for. -/
def equationText (args : Arguments) : Except String String :=
  match args.equation, args.demo with
  | some _, true => .error "'equation' cannot be combined with --demo."
  | some text, false => .ok text
  | none, true => .ok demoEquation
  | none, false => .error "an equation is required unless using --demo or --list-functions."

/-- The initial point that is asked for, if any. -/
def initialText (args : Arguments) : Option String :=
  args.initial.or (if args.demo then some demoInitial else none)

/-- The path that is asked for over the graph of a session, if any, and what happened on the way. -/
def tracePath (args : Arguments) (s : Session) : Log × Except Ending (Option Path) :=
  match args.initialText with
  | none => ([], .ok none)
  | some text =>
    match Input.point (.text text) with
    | .error (.problem p) => ([], .error (.failed p.message))
    | .error (.fault fault) => ([], .error (.broken fault))
    | .ok start =>
      let reply := s.trace start.x start.y (.text args.step)
      (reply.log,
        match reply.answer with
        | .error fault => .error (.broken fault)
        | .ok (some path) => .ok (some path)
        | .ok none => .error (.failed (reply.session.error.getD "")))

/-- Show a graph and perhaps a path over it. -/
def present (args : Arguments) (lib : Elementary) (env : PlottingEnvironment) (g : Snapshot)
    (path : Option Path) : Ending :=
  if args.json then
    let latex := (Form.ofExpr g.equation.tree).toOption.bind (·.latex.toOption)
    .summarized ⟨g.equation.text, latex, g.field, path⟩
  else
    match env.choose with
    | .error fault => .broken fault
    | .ok _ =>
      let target := Target.ofRequest args.out
      let title := "y' = " ++ g.equation.text
      .drawn (Drawing.strokes lib g.field path (some title) target) target (args.out.getD "" ≠ "")

/-- Graph an equation and show the result. -/
def graph (args : Arguments) (lib : Elementary) (env : PlottingEnvironment) (text : String) : Run :=
  let session := Session.new (.standard lib) stepLimit
  let reply := session.graph text args.domain args.range args.rows
  match reply.answer, reply.session.snapshot with
  | .error fault, _ => ⟨reply.log, args.level, .broken fault⟩
  | .ok true, some g =>
    let (log, path) := args.tracePath reply.session
    ⟨reply.log ++ log, args.level,
      match path with
      | .error ending => ending
      | .ok path => args.present lib env g path⟩
  | .ok _, _ => ⟨reply.log, args.level, .failed (reply.session.error.getD "")⟩

/-- Carry out what a command line asks for. -/
def perform (args : Arguments) (lib : Elementary) (env : PlottingEnvironment) : Run :=
  if args.listFunctions then ⟨[], args.level, .listed (Vocabulary.standard lib).help⟩
  else
    match args.equationText with
    | .error reason => ⟨[], args.level, .failed reason⟩
    | .ok text => args.graph lib env text

end Arguments

/-- Carry out a command line. -/
def run (lib : Elementary) (env : PlottingEnvironment) (argv : List String) : Run :=
  match parse argv with
  | .error e => ⟨[], .warning, .misused e⟩
  | .ok .help => ⟨[], .warning, .help⟩
  | .ok (.run args) => args.perform lib env

end DirectionField.CommandLine
