import DirectionField.Expr.OfTokens
import DirectionField.Vocabulary.Basic

/-!
# The grammar of equations

The grammar that `Expr.parse` reads, as a relation between lexemes and expressions. Every rule of the
grammar is a constructor of `Derives`, and operators associate to the left because the rules for them
are left-recursive. Which rule applies to a name depends on the lexeme after it, so a derivation is
stated for a row of lexemes together with what follows it: `Derives sig phrase depth ls rest` says
that the lexemes of `ls` in front of `rest` write `phrase`.

`depth` is the greatest number of signs, parenthesized groups and applications that are open at any
place of the derivation.
-/

namespace DirectionField

/-- The symbol that writes an operator. -/
def BinaryOp.symbol : BinaryOp → Symbol
  | .add => .plus
  | .subtract => .minus
  | .multiply => .times
  | .divide => .slash

/-- Does the operator stand between terms? The others stand between the factors of a term. -/
def BinaryOp.isAdditive : BinaryOp → Bool
  | .add | .subtract => true
  | .multiply | .divide => false

/-- The symbol that writes a sign. -/
def Sign.symbol : Sign → Symbol
  | .plus => .plus
  | .minus => .minus

/-- Does a name that can take arguments, and has no parenthesis behind it, apply to an operand that
    starts with the lexeme? -/
def Lexeme.startsArgument : Lexeme → Bool
  | .number _ | .name _ | .symbol .plus | .symbol .minus => true
  | _ => false

/-- The lexemes of a row of tokens. -/
def Token.lexemes (tokens : List Token) : List Lexeme := tokens.map Token.lexeme

/-- What a row of lexemes can be read as. -/
inductive Phrase where
  | expression (e : Expr)
  | term (e : Expr)
  | unary (e : Expr)
  | primary (e : Expr)
  | call (e : Expr)
  /-- The arguments of a call from behind the opening parenthesis on, with the closing one. -/
  | arguments (es : List Expr)
  /-- At least one argument, without the closing parenthesis. -/
  | list (es : List Expr)

/-- The lexemes in front of `rest` write a phrase. -/
inductive Derives (sig : Signature) : Phrase → Nat → List Lexeme → List Lexeme → Prop where
  /-- `expression := term` -/
  | expression_term {e d ls rest} (h : Derives sig (.term e) d ls rest) :
      Derives sig (.expression e) d ls rest
  /-- `expression := expression ("+" | "-") term` -/
  | expression_binary {op l r d d' ls mid rest} (hop : BinaryOp.isAdditive op)
      (hl : Derives sig (.expression l) d ls (.symbol op.symbol :: mid))
      (hr : Derives sig (.term r) d' mid rest) :
      Derives sig (.expression (.binary op l r)) (max d d') ls rest
  /-- `term := unary` -/
  | term_unary {e d ls rest} (h : Derives sig (.unary e) d ls rest) :
      Derives sig (.term e) d ls rest
  /-- `term := term ("*" | "/") unary` -/
  | term_binary {op l r d d' ls mid rest} (hop : ¬ BinaryOp.isAdditive op)
      (hl : Derives sig (.term l) d ls (.symbol op.symbol :: mid))
      (hr : Derives sig (.unary r) d' mid rest) :
      Derives sig (.term (.binary op l r)) (max d d') ls rest
  /-- `unary := ("+" | "-") unary` -/
  | unary_signed {s e d ls rest} (h : Derives sig (.unary e) d ls rest) :
      Derives sig (.unary (.signed s e)) (d + 1) (.symbol s.symbol :: ls) rest
  /-- `unary := primary` -/
  | unary_primary {e d ls rest} (h : Derives sig (.primary e) d ls rest) :
      Derives sig (.unary e) d ls rest
  /-- `primary := number` -/
  | primary_number {n rest} :
      Derives sig (.primary (.literal n.value)) 0 (.number n :: rest) rest
  /-- `primary := "x" | "y"`, where no parenthesis follows -/
  | primary_variable {v rest} (hnext : rest.head? ≠ some (.symbol .opening)) :
      Derives sig (.primary (.var v)) 0 (.name v.name.toList :: rest) rest
  /-- `primary := "(" expression ")"` -/
  | primary_group {e d ls rest}
      (h : Derives sig (.expression e) d ls (.symbol .closing :: rest)) :
      Derives sig (.primary e) (d + 1) (.symbol .opening :: ls) rest
  /-- `primary := call` -/
  | primary_call {e d ls rest} (h : Derives sig (.call e) d ls rest) :
      Derives sig (.primary e) d ls rest
  /-- `call := name "(" [expression ("," expression)*] ")"` -/
  | call_arguments {name es d ls rest} (hvar : ∀ v, Variable.name v ≠ name)
      (harity : es.length ∈ sig.arities name) (h : Derives sig (.arguments es) d ls rest) :
      Derives sig (.call (.call name es)) (d + 1)
        (.name name.toList :: .symbol .opening :: ls) rest
  /-- `call := name unary`, where the name can take arguments -/
  | call_unary {name e d l ls rest} (hvar : ∀ v, Variable.name v ≠ name)
      (hcallable : ∃ n ∈ sig.arities name, 0 < n) (hnext : Lexeme.startsArgument l)
      (harity : 1 ∈ sig.arities name) (h : Derives sig (.unary e) d (l :: ls) rest) :
      Derives sig (.call (.call name [e])) (d + 1) (.name name.toList :: l :: ls) rest
  /-- `call := name`, where neither of the other rules for a name applies -/
  | call_constant {name rest} (hvar : ∀ v, Variable.name v ≠ name)
      (hparen : rest.head? ≠ some (.symbol .opening))
      (hnext : (∃ n ∈ sig.arities name, 0 < n) → ∀ l, rest.head? = some l → ¬ l.startsArgument)
      (harity : 0 ∈ sig.arities name) :
      Derives sig (.call (.call name [])) 0 (.name name.toList :: rest) rest
  /-- `arguments := ")"` -/
  | arguments_none {rest} : Derives sig (.arguments []) 0 (.symbol .closing :: rest) rest
  /-- `arguments := list ")"` -/
  | arguments_list {es d ls rest} (h : Derives sig (.list es) d ls (.symbol .closing :: rest)) :
      Derives sig (.arguments es) d ls rest
  /-- `list := expression` -/
  | list_one {e d ls rest} (h : Derives sig (.expression e) d ls rest) :
      Derives sig (.list [e]) d ls rest
  /-- `list := expression "," list` -/
  | list_cons {e es d d' ls mid rest}
      (h : Derives sig (.expression e) d ls (.symbol .comma :: mid))
      (hs : Derives sig (.list es) d' mid rest) :
      Derives sig (.list (e :: es)) (max d d') ls rest

end DirectionField
