/-! # Output paths

A path is written in its plain form: without empty components, without components that are a single
point, and without a slash at its end. Two leading slashes are kept, more than two are as good as
one, and a path without components is the point. -/

namespace DirectionField.OutputPath

/-- The parts of a text between its slashes. -/
def components : List Char → List (List Char)
  | [] => [[]]
  | c :: cs =>
    if c = '/' then [] :: components cs
    else
      match components cs with
      | [] => [[c]]
      | part :: parts => (c :: part) :: parts

/-- The slashes that a path starts with in its plain form. -/
def root (cs : List Char) : List Char :=
  match (cs.takeWhile (· = '/')).length with
  | 0 => []
  | 2 => ['/', '/']
  | _ => ['/']

/-- The plain form of a path. -/
def normalize (path : String) : String :=
  let cs := path.toList
  let parts := (components cs).filter fun part => part ≠ [] ∧ part ≠ ['.']
  let plain := root cs ++ ['/'].intercalate parts
  String.ofList (if plain = [] then ['.'] else plain)

end DirectionField.OutputPath
