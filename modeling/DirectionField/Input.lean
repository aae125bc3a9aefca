import DirectionField.Domain

/-! # Input fields

The fields of a request as a user fills them in: a number, a pair of numbers between which a comma
stands, a row count. Blanks around a number are of no account. A refusal names the field by its
label and shows what was in it. -/

namespace DirectionField.Input

/-- The number in a field. -/
def number (label : String) (d : Datum) : Except Failure Float := do
  let text ← orFault d.display
  match readFloat? (Text.trim text) with
  | some x => .ok x
  | none => .error (.ofWorded (d.literal.map (.notANumber label)))

/-- The parts of a text between its commas; there is one part more than there are commas. -/
def commaParts : List Char → List (List Char)
  | [] => [[]]
  | c :: cs =>
    if c = ',' then [] :: commaParts cs
    else
      match commaParts cs with
      | [] => [[c]]
      | part :: parts => (c :: part) :: parts

/-- The two texts on both sides of the only comma of a field; neither is blank. -/
def pair (label : String) (d : Datum) : Except Failure (String × String) := do
  let text ← orFault d.display
  let refusal : Failure := .ofWorded (d.literal.map (.notAPair label))
  match (commaParts text.toList).map (Text.trimBy Text.isBlank) with
  | [a, b] => if a = [] ∨ b = [] then .error refusal else .ok (String.ofList a, String.ofList b)
  | _ => .error refusal

/-- The two numbers in a field. -/
def bounds (label : String) (d : Datum) : Except Failure (Float × Float) := do
  let (a, b) ← pair label d
  let low ← number label (.text a)
  let high ← number label (.text b)
  return (low, high)

/-- The rectangle whose bounds are in two fields. -/
def domain (domainField rangeField : Datum) : Except Failure Domain := do
  let (left, right) ← bounds "domain" domainField
  let (lower, upper) ← bounds "range" rangeField
  orProblem (Domain.ofBounds left right lower upper)

/-- The integer in a field. -/
def rowCount (d : Datum) : Except Failure Int := do
  let text ← orFault d.display
  match integerDigits? (Text.trimBy Text.isBlank text.toList) with
  | none => .error (.ofWorded (d.literal.map .notAnInteger))
  | some (sign, ds) =>
    if NumberText.digitLimit < ds.length then
      .error (.fault (.tooManyDigits NumberText.digitLimit ds.length))
    else
      let n : Int := Text.digitsValue ds
      .ok (if sign = some '-' then -n else n)

/-- The width of a step in a field. -/
def step (d : Datum) : Except Failure Float := number "step size" d

/-- The point in a field. -/
def point (d : Datum) : Except Failure Point := do
  let (x, y) ← bounds "initial point" d
  return ⟨x, y⟩

end DirectionField.Input
