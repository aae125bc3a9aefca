import DirectionField.Expr.Basic
import DirectionField.Problem
import DirectionField.Token
import DirectionField.Vocabulary.Signature

/-! # Expressions from tokens

The grammar of equations, from the loosest binding to the tightest:

```text
expression := term (("+" | "-") term)*
term       := unary (("*" | "/") unary)*
unary      := ("+" | "-") unary | primary
primary    := number | "x" | "y" | "(" expression ")" | call
call       := name "(" [expression ("," expression)*] ")" | name unary | name
```

A name that is not followed by a parenthesis takes the next operand as its only argument if it can
take arguments at all, so `sin x + 1` is `sin(x) + 1` and `sin 2*x` is `sin(2) * x`; otherwise it is
a constant.

Signs, parentheses and applications nest to a limited depth. A reader of operands is therefore built
from the reader for operands one level deeper (`operandReader`), and recursion is on the number of
levels that are left. -/

namespace DirectionField

/-- How many tokens an equation may have. -/
def tokenLimit : Nat := 400

/-- How many signs, parentheses and applications may be open at once. -/
def nestingLimit : Nat := 100

/-- What takes a phrase off the front of a row of tokens. -/
abbrev Reader (α : Type) := List Token → Except EquationError (α × List Token)

/-- The operator between terms that a lexeme writes. -/
def BinaryOp.additive? : Lexeme → Option BinaryOp
  | .symbol .plus => some .add
  | .symbol .minus => some .subtract
  | _ => none

/-- The operator between factors that a lexeme writes. -/
def BinaryOp.multiplicative? : Lexeme → Option BinaryOp
  | .symbol .times => some .multiply
  | .symbol .slash => some .divide
  | _ => none

/-- The sign that a lexeme writes. -/
def Sign.ofLexeme? : Lexeme → Option Sign
  | .symbol .plus => some .plus
  | .symbol .minus => some .minus
  | _ => none

/-- Can an operand start with the lexeme? A caret, a comma or an operator between operands
    cannot. -/
def Lexeme.startsOperand : Lexeme → Bool
  | .number _ | .name _ | .symbol .opening | .symbol .plus | .symbol .minus => true
  | _ => false

namespace EquationError

/-- The error for a row of tokens that does not go on as it should; `stop` is the length of the
    text. -/
def unexpectedAt (stop : Nat) (expected : Expected) : List Token → EquationError
  | [] => ⟨.unexpectedEnd, some stop⟩
  | t :: _ =>
    if t.lexeme = .symbol .caret then ⟨.caret, some t.pos⟩
    else ⟨.unexpected t.text expected, some t.pos⟩

end EquationError

namespace Expr

/-- Read up to `n` operators with an operand after each, and let them associate to the left. -/
def chainFrom (op? : Lexeme → Option BinaryOp) (operand : Reader Expr) : Nat → Expr → Reader Expr
  | 0, e, tokens => .ok (e, tokens)
  | _ + 1, e, [] => .ok (e, [])
  | n + 1, e, t :: tokens =>
    match op? t.lexeme with
    | none => .ok (e, t :: tokens)
    | some op => do
      let (e', rest) ← operand tokens
      chainFrom op? operand n (.binary op e e') rest

/-- Read operands with operators between them. There are no more operators than tokens. -/
def chain (op? : Lexeme → Option BinaryOp) (operand : Reader Expr) : Reader Expr := fun tokens => do
  let (e, rest) ← operand tokens
  chainFrom op? operand rest.length e rest

/-- Read a term, whose factors `operand` reads. -/
def term (operand : Reader Expr) : Reader Expr := chain BinaryOp.multiplicative? operand

/-- Read an expression, whose innermost operands `operand` reads. -/
def expression (operand : Reader Expr) : Reader Expr := chain BinaryOp.additive? (term operand)

/-- Go on with a phrase that is nested in the token `t`, if there is a level left for it. -/
def nested {α β : Type} (deeper : Option (Reader α)) (t : Token) (phrase : Reader α → Reader β) :
    Reader β := fun tokens =>
  match deeper with
  | none => .error ⟨.tooDeep, some t.pos⟩
  | some reader => phrase reader tokens

/-- Read an expression and the parenthesis that closes `start`. -/
def untilClosing (stop : Nat) (start : Token) (operand : Reader Expr) : Reader Expr :=
  fun tokens => do
    let (e, rest) ← expression operand tokens
    match rest with
    | [] => .error ⟨.missingClosing, some start.pos⟩
    | t :: rest' =>
      if t.lexeme = .symbol .closing then .ok (e, rest')
      else .error (.unexpectedAt stop .closing rest)

/-- Read at least one and at most `n + 1` arguments and the parenthesis that closes `start`. -/
def argumentsFrom (stop : Nat) (start : Token) (operand : Reader Expr) : Nat → Reader (List Expr)
  | 0, tokens => do
    let (e, rest) ← untilClosing stop start operand tokens
    return ([e], rest)
  | n + 1, tokens => do
    let (e, rest) ← expression operand tokens
    match rest with
    | [] => .error ⟨.missingClosing, some start.pos⟩
    | t :: rest' =>
      if t.lexeme = .symbol .comma then do
        let (es, rest'') ← argumentsFrom stop start operand n rest'
        return (e :: es, rest'')
      else if t.lexeme = .symbol .closing then .ok ([e], rest')
      else .error (.unexpectedAt stop .commaOrClosing rest)

/-- Read the arguments of a call and the parenthesis that closes `start`. There may be none, and
    there are no more arguments than tokens. -/
def arguments (stop : Nat) (start : Token) (operand : Reader Expr) : Reader (List Expr)
  | [] => argumentsFrom stop start operand 0 []
  | t :: tokens =>
    if t.lexeme = .symbol .closing then .ok ([], tokens)
    else argumentsFrom stop start operand tokens.length (t :: tokens)

variable (sig : Signature) (stop : Nat)

/-- Read what the name `name`, written by the token `t`, is applied to. -/
def application (deeper : Option (Reader Expr)) (t : Token) (name : String) : Reader (List Expr) :=
  fun tokens =>
    let juxtaposed := sig.isCallable name && tokens.head?.any (·.lexeme.startsOperand)
    match tokens with
    | start :: rest =>
      if start.lexeme = .symbol .opening then
        nested deeper t (arguments stop start) rest
      else if juxtaposed then
        nested deeper t (fun operand tokens => do
          let (e, rest) ← operand tokens
          return ([e], rest)) tokens
      else if sig.accepts name 0 then .ok ([], tokens)
      else .error ⟨.needsArgument name, some t.pos⟩
    | [] =>
      if sig.accepts name 0 then .ok ([], tokens)
      else .error ⟨.needsArgument name, some t.pos⟩

/-- Read the rest of a call of `name`, which the token `t` writes. -/
def callOf (deeper : Option (Reader Expr)) (t : Token) (name : String) : Reader Expr :=
  fun tokens =>
    if sig.knows name then do
      let (args, rest) ← application sig stop deeper t name tokens
      if sig.accepts name args.length then
        return (.call name args, rest)
      else
        .error ⟨.argumentCount name (sig.arities name) args.length, some t.pos⟩
    else .error ⟨.unknownName name, some t.pos⟩

/-- Read the rest of what starts with a name, which the token `t` writes. -/
def named (deeper : Option (Reader Expr)) (t : Token) (name : String) : Reader Expr :=
  fun tokens =>
    match Variable.ofName? name with
    | some v =>
      if tokens.head?.any (·.lexeme = .symbol .opening) then
        .error ⟨.variableCalled name, some t.pos⟩
      else .ok (.var v, tokens)
    | none => callOf sig stop deeper t name tokens

/-- Read an operand without a sign. -/
def primary (deeper : Option (Reader Expr)) : Reader Expr
  | [] => .error (.unexpectedAt stop .anything [])
  | t :: tokens =>
    match t.lexeme with
    | .number n => .ok (.literal n.value, tokens)
    | .name cs => named sig stop deeper t (String.ofList cs) tokens
    | .symbol .opening => nested deeper t (untilClosing stop t) tokens
    | .symbol _ => .error (.unexpectedAt stop .anything (t :: tokens))

/-- Read an operand, with `deeper` for the operands that are nested in it. -/
def unary (deeper : Option (Reader Expr)) : Reader Expr
  | [] => primary sig stop deeper []
  | t :: tokens =>
    match Sign.ofLexeme? t.lexeme with
    | some s =>
      nested deeper t (fun operand tokens => do
        let (e, rest) ← operand tokens
        return (.signed s e, rest)) tokens
    | none => primary sig stop deeper (t :: tokens)

/-- Read an operand that may nest `levels` deep. -/
def operandReader : Nat → Reader Expr
  | 0 => unary sig stop none
  | levels + 1 => unary sig stop (some (operandReader levels))

/-- The expression that a whole row of tokens writes. -/
def ofTokens (tokens : List Token) : Except EquationError Expr :=
  match tokens[tokenLimit]? with
  | some t => .error ⟨.tooLong tokenLimit, some t.pos⟩
  | none =>
    if tokens.isEmpty then .error ⟨.empty, none⟩
    else do
      let (e, rest) ← expression (operandReader sig stop nestingLimit) tokens
      match rest with
      | [] => .ok e
      | t :: _ =>
        if t.lexeme = .symbol .closing then .error ⟨.unbalancedClosing, some t.pos⟩
        else .error (.unexpectedAt stop .anything rest)

/-- The expression that a text writes, or what is wrong with the text. -/
def parse (text : String) : Except EquationError Expr := do
  let tokens ← Token.scan text
  ofTokens sig text.length tokens

/-- The expression that a text writes. What is wrong with any other text is reported, which takes
    words for it. -/
def read (text : String) : Except Failure Expr := (parse sig text).mapError .ofEquationError

end Expr

end DirectionField
