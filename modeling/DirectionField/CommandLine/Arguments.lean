import DirectionField.CommandLine.Words
import DirectionField.Event

/-! # The arguments of a command

What the words of a command line ask for. The first word that is neither a switch nor its value is
the equation; there must be no other. A switch that is given twice has its last value. -/

namespace DirectionField.CommandLine

/-- What a command line asks for. The texts of fields are as they are given. -/
structure Arguments where
  equation : Option String
  demo : Bool
  domain : String
  range : String
  rows : String
  initial : Option String
  step : String
  out : Option String
  json : Bool
  preview : Bool
  listFunctions : Bool
  level : Level
deriving Repr, DecidableEq

/-- What an empty command line asks for. -/
def Arguments.initially : Arguments where
  equation := none
  demo := false
  domain := "-1.0,1.0"
  range := "-1.0,1.0"
  rows := "10"
  initial := none
  step := "0.1"
  out := none
  json := false
  preview := false
  listFunctions := false
  level := .warning

/-- A command line that can be carried out. -/
inductive Request where
  /-- Show how the command is used. -/
  | help
  | run (args : Arguments)
deriving Repr, DecidableEq

/-- What is known after some of the words. -/
structure Progress where
  args : Arguments
  /-- Whether the last word was taken for the equation. -/
  justTaken : Bool
  /-- The words that have no place, the last one first. -/
  surplus : List String
deriving Repr, DecidableEq

namespace Progress

/-- Nothing is known yet. -/
def start : Progress := ⟨.initially, false, []⟩

/-- Take a word that is neither a switch nor a value. -/
def take (p : Progress) (text : String) : Progress :=
  if p.args.equation.isSome then { p with justTaken := false, surplus := text :: p.surplus }
  else { p with args := { p.args with equation := some text }, justTaken := true }

/-- Put a word aside. -/
def putAside (p : Progress) (text : String) : Progress :=
  { p with justTaken := false, surplus := text :: p.surplus }

/-- Take the word that ends the switches. It has a place beside the equation only. -/
def takeSeparator (p : Progress) (text : String) : Progress :=
  if p.args.equation.isSome ∧ ¬p.justTaken then p.putAside text else { p with justTaken := false }

/-- Take a switch without a value. -/
def turnOn (p : Progress) (s : Switch) : Progress :=
  let args := match s with
    | .demo => { p.args with demo := true }
    | .json => { p.args with json := true }
    | .preview => { p.args with preview := true }
    | .listFunctions => { p.args with listFunctions := true }
    | _ => p.args
  { p with args, justTaken := false }

/-- The names of the levels that may be asked for. -/
def levelNames : List String := [Level.warning, .info, .debug].map Level.name

/-- Take a switch with its value. -/
def assign (p : Progress) (s : Switch) (value : String) : Except UsageError Progress := do
  let args ← match s with
    | .domain => pure { p.args with domain := value }
    | .range => pure { p.args with range := value }
    | .rows => pure { p.args with rows := value }
    | .initial => pure { p.args with initial := some value }
    | .step => pure { p.args with step := value }
    | .out => pure { p.args with out := some value }
    | .logLevel =>
      match Level.ofName? value with
      | some level => pure { p.args with level }
      | none => throw (.invalidChoice s value levelNames)
    | _ => pure p.args
  return { p with args, justTaken := false }

/-- The command line is complete. -/
def finish (p : Progress) : Except UsageError Request :=
  if p.surplus.isEmpty then .ok (.run p.args) else .error (.unrecognized p.surplus.reverse)

end Progress

/-- The meaning of characters behind the short word for help: more short words, of which help is the
    only one. A value has no place there. -/
def shortHelp : List Char → Except UsageError Request
  | [] => .ok .help
  | 'h' :: more => shortHelp more
  | '=' :: value => .error (.ignoredValue .help (String.ofList value))
  | '-' :: more => .error (.ignoredValue .help (String.ofList ('-' :: more)))
  | _ => .ok .help

/-- Go through the words from left to right. -/
def Progress.follow (p : Progress) : List Word → Except UsageError Request
  | [] => p.finish
  | ⟨.argument, text⟩ :: rest => (p.take text).follow rest
  | ⟨.separator, text⟩ :: rest => (p.takeSeparator text).follow rest
  | ⟨.unknown, text⟩ :: rest => (p.putAside text).follow rest
  | ⟨.shortHelp more, _⟩ :: _ => shortHelp more
  | ⟨.switch s (some value), _⟩ :: rest =>
    if s.takesValue then do
      let p ← p.assign s value
      p.follow rest
    else .error (.ignoredValue s value)
  | [⟨.switch s none, _⟩] =>
    if s.takesValue then .error (.missingValue s)
    else if s = .help then .ok .help
    else (p.turnOn s).finish
  | ⟨.switch s none, _⟩ :: next :: rest =>
    if s.takesValue then
      if next.kind = .argument then do
        let p ← p.assign s next.text
        p.follow rest
      else .error (.missingValue s)
    else if s = .help then .ok .help
    else (p.turnOn s).follow (next :: rest)

/-- What a command line asks for. -/
def parse (argv : List String) : Except UsageError Request := do
  let ws ← words argv
  Progress.start.follow ws

end DirectionField.CommandLine
