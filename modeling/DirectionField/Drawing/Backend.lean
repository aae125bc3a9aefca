import DirectionField.Fault

/-! # Choosing a plotting back end

The plotting library may draw to files only (`Agg`) or to a window as well (`TkAgg`). If it is set to
neither, one is chosen: the window where there is a display or the user prefers it, and the file
otherwise or where the window cannot be had. -/

namespace DirectionField

/-- What the choice depends on. -/
structure PlottingEnvironment where
  /-- Whether the plotting library is there at all. -/
  available : Bool
  /-- The back end that is set, if it can be found out. -/
  current : Option String
  /-- Why the back end with a window cannot be had, if it cannot. -/
  windowFailure : Option String
  /-- The name of the display, if there is one. -/
  display : Option String
  /-- The back end that the user prefers, if any. -/
  preferred : Option String

/-- A warning and its category. -/
structure PlottingWarning where
  category : String
  message : String
deriving Repr, DecidableEq

/-- The back ends that are tried, in order, and the warnings on the way. -/
structure BackendChoice where
  tried : List String
  warnings : List PlottingWarning
deriving Repr, DecidableEq

namespace PlottingEnvironment

/-- The text with ASCII letters in lower case. -/
def lowerCase (s : String) : String := String.ofList (s.toList.map Char.toLower)

/-- Is the back end set to one of the two? -/
def isSettled (env : PlottingEnvironment) : Bool :=
  ["agg", "tkagg"].contains (lowerCase (env.current.getD ""))

/-- Is a back end with a window wanted? -/
def prefersWindow (env : PlottingEnvironment) : Bool :=
  env.display.getD "" ≠ "" || lowerCase (env.preferred.getD "") = "tkagg"

/-- The warning that there is no window. -/
def noWindow (reason : String) : PlottingWarning :=
  ⟨"RuntimeWarning", "Preferred GUI backend 'TkAgg' unavailable; falling back to 'Agg': " ++ reason⟩

/-- Choose a back end. -/
def choose (env : PlottingEnvironment) : Except Fault BackendChoice :=
  if !env.available then
    .error (.raised .other
      "matplotlib is required to render slope fields. Install it or use --json.")
  else if env.isSettled then .ok ⟨[], []⟩
  else if env.prefersWindow then
    match env.windowFailure with
    | none => .ok ⟨["TkAgg"], []⟩
    | some reason => .ok ⟨["TkAgg", "Agg"], [noWindow reason]⟩
  else .ok ⟨["Agg"], []⟩

end PlottingEnvironment

end DirectionField
