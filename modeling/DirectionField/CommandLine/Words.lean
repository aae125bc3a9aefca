import DirectionField.Text.Digit
import DirectionField.Text.Quoted

/-! # The words of a command line

A command line is a row of words. A word that starts with a hyphen is a switch, unless it is a
hyphen alone, looks like a negative number, or holds a space; behind the word `--` there are no more
switches. A switch may be shortened as long as only one starts so, and its value may stand behind an
equals sign. -/

namespace DirectionField.CommandLine

/-- The switches. -/
inductive Switch where
  | help
  | demo
  | domain
  | range
  | rows
  | initial
  | step
  | out
  | json
  | preview
  | listFunctions
  | logLevel
deriving Repr, DecidableEq

namespace Switch

/-- All switches, in the order in which they are listed. -/
def all : List Switch :=
  [.help, .demo, .domain, .range, .rows, .initial, .step, .out, .json, .preview, .listFunctions,
    .logLevel]

/-- The word that stands for a switch. -/
def word : Switch → String
  | .help => "--help"
  | .demo => "--demo"
  | .domain => "--domain"
  | .range => "--range"
  | .rows => "--rows"
  | .initial => "--initial"
  | .step => "--step"
  | .out => "--out"
  | .json => "--json"
  | .preview => "--preview"
  | .listFunctions => "--list-functions"
  | .logLevel => "--log-level"

/-- A switch as a message names it; help has a short word too. -/
def label : Switch → String
  | .help => "-h/--help"
  | s => s.word

/-- Does the switch have a value? -/
def takesValue : Switch → Bool
  | .domain | .range | .rows | .initial | .step | .out | .logLevel => true
  | .help | .demo | .json | .preview | .listFunctions => false

end Switch

/-- Why a command line is refused. -/
inductive UsageError where
  | ambiguous (word : String) (matching : List Switch)
  | missingValue (s : Switch)
  | ignoredValue (s : Switch) (value : String)
  | invalidChoice (s : Switch) (value : String) (choices : List String)
  | unrecognized (words : List String)
deriving Repr, DecidableEq

/-- The wording of a refusal. -/
def UsageError.message : UsageError → String
  | .ambiguous word matching =>
    "ambiguous option: " ++ word ++ " could match " ++ ", ".intercalate (matching.map Switch.word)
  | .missingValue s => "argument " ++ s.label ++ ": expected one argument"
  | .ignoredValue s value =>
    "argument " ++ s.label ++ ": ignored explicit argument " ++ Text.quote value
  | .invalidChoice s value choices =>
    "argument " ++ s.label ++ ": invalid choice: " ++ Text.quote value ++ " (choose from " ++
      ", ".intercalate (choices.map Text.quote) ++ ")"
  | .unrecognized words => "unrecognized arguments: " ++ " ".intercalate words

/-- What a word of a command line is. -/
inductive WordKind where
  /-- A switch, with the value behind its equals sign if there is one. -/
  | switch (s : Switch) (value : Option String)
  /-- The short word for help with more characters behind it. -/
  | shortHelp (more : List Char)
  /-- A word that looks like a switch but is none. -/
  | unknown
  /-- The word that ends the switches. -/
  | separator
  /-- Any other word. -/
  | argument
deriving Repr, DecidableEq

/-- A word and what it is. -/
structure Word where
  kind : WordKind
  text : String
deriving Repr, DecidableEq

/-- A word up to its first equals sign, and what stands behind that. -/
def splitValue (cs : List Char) : List Char × Option String :=
  match cs.dropWhile (· ≠ '=') with
  | [] => (cs, none)
  | _ :: value => (cs.takeWhile (· ≠ '='), some (String.ofList value))

/-- Does a word look like a negative number: a hyphen and digits, perhaps with a point before the
    last of them? A line feed at the end is overlooked. -/
def looksNegative : List Char → Bool
  | '-' :: cs =>
    let cs := if cs.getLast? = some '\n' then cs.dropLast else cs
    match cs.dropWhile Text.isDigit with
    | [] => !cs.isEmpty
    | '.' :: fraction => !fraction.isEmpty && fraction.all Text.isDigit
    | _ => false
  | _ => false

/-- A word that starts with a hyphen and is no switch. -/
def strayKind (cs : List Char) : WordKind :=
  if looksNegative cs ∨ ' ' ∈ cs then .argument else .unknown

/-- What a word is before the end of the switches. A whole word comes before a shortened one. -/
def classify (text : String) : Except UsageError WordKind :=
  match text.toList with
  | '-' :: second :: rest =>
    let cs := '-' :: second :: rest
    let (front, value) := splitValue cs
    if front = ['-', 'h'] then .ok (.switch .help value)
    else if second = '-' then
      -- a whole switch wins over those that it is the start of
      match Switch.all.find? (·.word.toList = front) with
      | some s => .ok (.switch s value)
      | none =>
        match Switch.all.filter (front.isPrefixOf ·.word.toList) with
        | [] => .ok (strayKind cs)
        | [s] => .ok (.switch s value)
        | several => .error (.ambiguous text several)
    else if second = 'h' then .ok (.shortHelp rest)
    else .ok (strayKind cs)
  | _ => .ok .argument

/-- The words of a command line with what they are. -/
def words : List String → Except UsageError (List Word)
  | [] => .ok []
  | text :: texts =>
    if text = "--" then .ok (⟨.separator, text⟩ :: texts.map (⟨.argument, ·⟩))
    else do
      let kind ← classify text
      let rest ← words texts
      return ⟨kind, text⟩ :: rest

end DirectionField.CommandLine
