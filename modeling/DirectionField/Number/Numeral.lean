import DirectionField.Number.Decimal
import DirectionField.Text.Blank
import DirectionField.Text.Digit

/-! # Numerals

A numeral is what stands for a number in an equation: decimal digits with at most one point, and an
optional exponent. `Numeral.split?` takes the longest numeral off the front of a text, and
`Numeral.text` gives it back unchanged. Input fields allow more around a numeral — a sign, blanks at
the ends, single underscores between digits — and the words for infinity and not-a-number:
`readFloat?` and `integerDigits?` read those. -/

namespace DirectionField

/-- The exponent of a numeral: its letter, an optional sign, and its digits. -/
structure Numeral.Exponent where
  letter : Char
  sign : Option Char
  digits : List Char
deriving Repr, DecidableEq

/-- An unsigned number in base ten, with its digits as they are written. -/
structure Numeral where
  /-- The digits before the point. -/
  whole : List Char
  /-- The digits after the point, if there is one. -/
  fraction : Option (List Char)
  exponent : Option Numeral.Exponent
deriving Repr, DecidableEq

namespace Numeral

/-- The exponent as it is written. -/
def Exponent.text (e : Exponent) : List Char := e.letter :: (e.sign.toList ++ e.digits)

/-- The numeral as it is written. -/
def text (n : Numeral) : List Char :=
  n.whole ++ (n.fraction.elim [] ('.' :: ·)) ++ (n.exponent.elim [] Exponent.text)

/-- Take a sign off the front. -/
def splitSign : List Char → Option Char × List Char
  | [] => (none, [])
  | c :: cs => if c = '+' ∨ c = '-' then (some c, cs) else (none, c :: cs)

/-- Take an exponent off the front. It is complete or not there: an `e` without digits after it
    belongs to what follows. -/
def splitExponent : List Char → Option Exponent × List Char
  | [] => (none, [])
  | c :: cs =>
    let (sign, rest) := splitSign cs
    let ds := rest.takeWhile Text.isDigit
    if (c = 'e' ∨ c = 'E') ∧ ds ≠ [] then (some ⟨c, sign, ds⟩, rest.dropWhile Text.isDigit)
    else (none, c :: cs)

/-- Take the digits before and after a point off the front; there is at least one digit. -/
def splitDigits? (cs : List Char) : Option (List Char × Option (List Char) × List Char) :=
  let whole := cs.takeWhile Text.isDigit
  match cs.dropWhile Text.isDigit with
  | '.' :: rest =>
    let fraction := rest.takeWhile Text.isDigit
    if whole = [] ∧ fraction = [] then none
    else some (whole, some fraction, rest.dropWhile Text.isDigit)
  | rest => if whole = [] then none else some (whole, none, rest)

/-- Take a numeral off the front of a text. -/
def split? (cs : List Char) : Option (Numeral × List Char) :=
  (splitDigits? cs).map fun (whole, fraction, rest) =>
    let (exponent, rest) := splitExponent rest
    (⟨whole, fraction, exponent⟩, rest)

/-- The power of ten that an exponent stands for. -/
def Exponent.value (e : Exponent) : Int :=
  if e.sign = some '-' then -(Text.digitsValue e.digits) else Text.digitsValue e.digits

/-- The exact number that a numeral stands for. -/
def decimal (n : Numeral) : Decimal :=
  let fraction := n.fraction.getD []
  ⟨Text.digitsValue (n.whole ++ fraction), n.exponent.elim 0 Exponent.value - fraction.length⟩

/-- The `Float` nearest to the number that a numeral stands for. -/
def value (n : Numeral) : Float := n.decimal.toFloat false

/-! ## What the split leaves -/

theorem text_splitSign (cs : List Char) :
    (splitSign cs).1.toList ++ (splitSign cs).2 = cs := by
  cases cs with
  | nil => rfl
  | cons c cs => by_cases h : c = '+' ∨ c = '-' <;> simp [splitSign, h]

theorem text_splitExponent (cs : List Char) :
    (splitExponent cs).1.elim [] Exponent.text ++ (splitExponent cs).2 = cs := by
  cases cs with
  | nil => rfl
  | cons c cs =>
    by_cases h : (c = 'e' ∨ c = 'E') ∧ (splitSign cs).2.takeWhile Text.isDigit ≠ []
    · have hs := text_splitSign cs
      simp only [splitExponent, if_pos h, Option.elim_some, Exponent.text, List.cons_append,
        List.append_assoc, List.takeWhile_append_dropWhile, hs]
    · simp only [splitExponent, if_neg h, Option.elim_none, List.nil_append]

theorem text_splitDigits? {cs whole fraction rest}
    (h : splitDigits? cs = some (whole, fraction, rest)) :
    whole ++ fraction.elim [] ('.' :: ·) ++ rest = cs := by
  unfold splitDigits? at h
  have hcs := List.takeWhile_append_dropWhile (p := Text.isDigit) (l := cs)
  split at h
  · rename_i r hr
    dsimp only at h
    split at h
    · exact absurd h (by simp)
    · obtain ⟨rfl, rfl, rfl⟩ := by simpa using h
      rw [hr] at hcs
      simpa using hcs
  · dsimp only at h
    split at h
    · exact absurd h (by simp)
    · obtain ⟨rfl, rfl, rfl⟩ := by simpa using h
      simp

/-- Splitting loses nothing: the numeral and the rest make up the text. -/
theorem text_append_of_split? {cs n rest} (h : split? cs = some (n, rest)) :
    n.text ++ rest = cs := by
  unfold split? at h
  obtain ⟨⟨whole, fraction, tail⟩, hd, he⟩ := Option.map_eq_some_iff.1 h
  obtain ⟨rfl, rfl⟩ := by simpa using he
  have h1 := text_splitDigits? hd
  have h2 := text_splitExponent tail
  simp only [text, List.append_assoc, h2]
  simpa using h1

theorem splitDigits?_ne_nil {cs whole fraction rest}
    (h : splitDigits? cs = some (whole, fraction, rest)) :
    whole ++ fraction.elim [] ('.' :: ·) ≠ [] := by
  unfold splitDigits? at h
  split at h
  · dsimp only at h
    split at h
    · exact absurd h (by simp)
    · obtain ⟨rfl, rfl, rfl⟩ := by simpa using h
      simp
  · dsimp only at h
    split at h
    · exact absurd h (by simp)
    · rename_i hne
      obtain ⟨rfl, rfl, rfl⟩ := by simpa using h
      simpa only [Option.elim_none, List.append_nil] using hne

/-- A numeral is never empty, so splitting one off makes a text shorter. -/
theorem length_lt_of_split? {cs n rest} (h : split? cs = some (n, rest)) :
    rest.length < cs.length := by
  have happ := text_append_of_split? h
  unfold split? at h
  obtain ⟨⟨whole, fraction, tail⟩, hd, he⟩ := Option.map_eq_some_iff.1 h
  obtain ⟨rfl, rfl⟩ := by simpa using he
  have hne := List.length_pos_iff.2 (splitDigits?_ne_nil hd)
  have hlen := congrArg List.length happ
  simp only [text, List.length_append] at hlen hne
  omega

end Numeral

/-! ## Numbers in input fields -/

/-- Remove the underscores of a number, each of which stands between two digits. -/
def dropSeparators? : List Char → Option (List Char)
  | [] => some []
  | [c] => if c = '_' then none else some [c]
  | c :: '_' :: d :: cs =>
    if Text.isDigit c && Text.isDigit d then (dropSeparators? (d :: cs)).map (c :: ·) else none
  | c :: cs => if c = '_' then none else (dropSeparators? cs).map (c :: ·)

/-- The blanks that may surround a number. -/
def isNumberBlank (c : Char) : Bool := Text.isPlainBlank c || Text.isWideBlank c

/-- The magnitude of an unsigned number: a numeral, or a word in any mixture of cases. -/
def readMagnitude? (cs : List Char) : Option Nat :=
  let word := cs.map Char.toLower
  if word = "inf".toList ∨ word = "infinity".toList then some infinityBits
  else
    match Numeral.split? cs with
    | some (n, []) => some n.decimal.toBits
    | _ => none

/-- The number that a text stands for, with blanks around it, a sign, and single underscores between
    its digits. -/
def readFloat? (s : String) : Option Float := do
  let cs ← dropSeparators? (Text.trimBy isNumberBlank s.toList)
  let (sign, rest) := Numeral.splitSign cs
  if rest.map Char.toLower = "nan".toList then
    some (0.0 / 0.0)
  else
    (readMagnitude? rest).map (floatOfMagnitude (sign = some '-'))

/-- The digits of an integer after its optional sign, if the text is nothing else. -/
def integerDigits? (cs : List Char) : Option (Option Char × List Char) :=
  let (sign, ds) := Numeral.splitSign cs
  if ds ≠ [] ∧ ds.all Text.isDigit then some (sign, ds) else none

end DirectionField
