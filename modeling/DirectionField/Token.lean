import DirectionField.EquationError
import DirectionField.Number.Numeral

/-! # Tokens

The text of an equation is a row of tokens with blanks before, between and after them. A token is
the longest numeral, name or symbol at its place. `Token.scan` cuts a text into its tokens, or finds
the first character that is neither blank nor the start of a token. -/

namespace DirectionField

/-- The tokens that are a single mark. The caret is a token without a use in the grammar, so that it
    can be refused with advice. -/
inductive Symbol where
  | plus
  | minus
  | times
  | slash
  | opening
  | closing
  | comma
  | caret
deriving Repr, DecidableEq

/-- The character that writes a symbol. -/
def Symbol.char : Symbol → Char
  | .plus => '+'
  | .minus => '-'
  | .times => '*'
  | .slash => '/'
  | .opening => '('
  | .closing => ')'
  | .comma => ','
  | .caret => '^'

/-- The symbol that a character writes. -/
def Symbol.ofChar? (c : Char) : Option Symbol :=
  match c with
  | '+' => some .plus
  | '-' => some .minus
  | '*' => some .times
  | '/' => some .slash
  | '(' => some .opening
  | ')' => some .closing
  | ',' => some .comma
  | '^' => some .caret
  | _ => none

@[simp] theorem Symbol.ofChar?_char (s : Symbol) : Symbol.ofChar? s.char = some s := by
  cases s <;> rfl

/-- What a token is. -/
inductive Lexeme where
  | number (n : Numeral)
  | name (cs : List Char)
  | symbol (s : Symbol)
deriving Repr, DecidableEq

/-- A token as it is written. -/
def Lexeme.chars : Lexeme → List Char
  | .number n => n.text
  | .name cs => cs
  | .symbol s => [s.char]

/-- A lexeme at its place in the text. -/
structure Token where
  lexeme : Lexeme
  /-- The number of characters before the token. -/
  pos : Nat
deriving Repr, DecidableEq

/-- Can a name start with the character? -/
def isNameStart (c : Char) : Bool := c.isAlpha || c == '_'

/-- Can a name go on with the character? -/
def isNamePart (c : Char) : Bool := isNameStart c || c.isDigit

/-- The longest lexeme at the front of a text. -/
def Lexeme.read? (cs : List Char) : Option Lexeme :=
  match Numeral.split? cs, cs with
  | some (n, _), _ => some (.number n)
  | none, [] => none
  | none, c :: _ =>
    if isNameStart c then some (.name (cs.takeWhile isNamePart))
    else (Symbol.ofChar? c).map .symbol

namespace Token

/-- The token as text. -/
def text (t : Token) : String := String.ofList t.lexeme.chars

/-- The tokens of the text from position `pos` on, after its next `skip` characters, which belong to
    a token that has been read. -/
def scanFrom (pos : Nat) : Nat → List Char → Except EquationError (List Token)
  | _, [] => .ok []
  | skip + 1, _ :: cs => scanFrom (pos + 1) skip cs
  | 0, c :: cs =>
    if Text.isBlank c then scanFrom (pos + 1) 0 cs
    else
      match Lexeme.read? (c :: cs) with
      | none => .error ⟨.unexpectedCharacter c, some pos⟩
      | some lexeme => do
        let tokens ← scanFrom (pos + 1) (lexeme.chars.length - 1) cs
        return ⟨lexeme, pos⟩ :: tokens

/-- The tokens of a text. -/
def scan (text : String) : Except EquationError (List Token) := scanFrom 0 0 text.toList

/-- What stands in the row that a text is cut into: a token, or the end of the text. -/
inductive Item where
  | token (t : Token)
  | stop (pos : Nat)
deriving Repr, DecidableEq

/-- The item as text; there is none at the end. -/
def Item.text : Item → String
  | .token t => t.text
  | .stop _ => ""

/-- The number of characters before the item. -/
def Item.pos : Item → Nat
  | .token t => t.pos
  | .stop pos => pos

/-- The row that a text is cut into: its tokens, and its end behind them. -/
def row (text : String) : Except EquationError (List Item) := do
  let tokens ← scan text
  return tokens.map .token ++ [.stop text.length]

end Token

end DirectionField
