import DirectionField.Expr.Basic
import DirectionField.Number.Text

/-! # The canonical text of an expression

Every operator is in parentheses with its operands, a call has its arguments in parentheses, a
constant is its name, and a number is written as an integer if it is one below `1e16`, otherwise in
the fewest digits that read back. The text is itself an equation. -/

namespace DirectionField.Expr

/-- A number in an expression. -/
def literalText (v : Float) : List Char :=
  match (Binary.ofFloat? v).bind Binary.toInt? with
  | some n => if v.abs < 1e16 then (toString n).toList else (NumberText.plain v).toList
  | none => (NumberText.plain v).toList

mutual

/-- The canonical text, as characters. -/
def canonicalChars : Expr → List Char
  | .literal v => literalText v
  | .var v => v.name.toList
  | .signed s e => '(' :: s.char :: (canonicalChars e ++ [')'])
  | .binary op l r =>
    '(' :: (canonicalChars l ++ [' ', op.char, ' '] ++ canonicalChars r ++ [')'])
  | .call name [] => name.toList
  | .call name (e :: es) =>
    name.toList ++ '(' :: (canonicalChars e ++ canonicalArguments es ++ [')'])

/-- The arguments after the first, each behind a comma and a space. -/
def canonicalArguments : List Expr → List Char
  | [] => []
  | e :: es => ',' :: ' ' :: (canonicalChars e ++ canonicalArguments es)

end

/-- The text of an expression with every grouping made explicit. -/
def canonical (e : Expr) : String := String.ofList (canonicalChars e)

end DirectionField.Expr
