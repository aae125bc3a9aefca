import DirectionField.Expr.OfTokens
import DirectionField.Proofs.Except

/-!
# Tokens in other places

The grammar looks at the lexemes of tokens and never at their places, which it only quotes in errors. So
a reader that meets the same tokens in other places reads the same phrase and leaves the same tokens,
again in the other places, or it fails for the same cause where the same token is now (`Reader.Moves`).
One lemma for each rule of the grammar keeps this, up to whole equations (`Expr.ofTokens_move`).
-/

namespace DirectionField

/-- The token in another place. -/
def Token.move (f : Nat → Nat) (t : Token) : Token := ⟨t.lexeme, f t.pos⟩

@[simp] theorem Token.lexeme_move (f : Nat → Nat) (t : Token) : (t.move f).lexeme = t.lexeme := rfl

/-- The next token is asked for its lexeme only. -/
theorem Token.any_head?_move (f : Nat → Nat) (p : Lexeme → Bool) (tokens : List Token) :
    (tokens.map (move f)).head?.any (fun t => p t.lexeme) =
      tokens.head?.any fun t => p t.lexeme := by
  cases tokens with
  | nil => rfl
  | cons t tokens => rfl

namespace EquationError

/-- The error in another place. -/
def move (f : Nat → Nat) (e : EquationError) : EquationError := ⟨e.cause, e.position.map f⟩

/-- An unexpected token is reported where it is now, and the end of the text where that is now. -/
theorem move_unexpectedAt (f : Nat → Nat) (stop : Nat) (expected : Expected) (tokens : List Token) :
    unexpectedAt (f stop) expected (tokens.map (Token.move f)) =
      (unexpectedAt stop expected tokens).move f := by
  cases tokens with
  | nil => rfl
  | cons t tokens =>
    rw [List.map_cons, unexpectedAt, unexpectedAt, Token.lexeme_move]
    split
    · rfl
    · rfl

end EquationError

/-! ## Readers -/

/-- What comes of reading a phrase if the tokens are in other places. -/
def Reader.moved {α : Type} (f : Nat → Nat) :
    Except EquationError (α × List Token) → Except EquationError (α × List Token)
  | .ok (a, rest) => .ok (a, rest.map (Token.move f))
  | .error e => .error (e.move f)

/-- In front of the moved tokens, `read'` comes to what `read` comes to in front of the tokens. -/
def Reader.Moves {α : Type} (f : Nat → Nat) (read read' : Reader α) : Prop :=
  ∀ tokens, read' (tokens.map (Token.move f)) = moved f (read tokens)

variable {f : Nat → Nat} {stop : Nat}

/-- A phrase is moved if its first part is, and what comes behind it. -/
theorem Reader.Moves.bind {α β : Type} {read read' : Reader α} (h : Moves f read read')
    {next next' : α × List Token → Except EquationError (β × List Token)}
    (hnext : ∀ a rest, next' (a, rest.map (Token.move f)) = moved f (next (a, rest)))
    (tokens : List Token) :
    (read' (tokens.map (Token.move f)) >>= next') = moved f (read tokens >>= next) := by
  rw [h tokens]
  cases read tokens with
  | error e => rfl
  | ok p => exact hnext p.1 p.2

/-- A phrase that is made of another one is moved with it. -/
theorem Reader.Moves.map {α β : Type} {read read' : Reader α} (h : Moves f read read') (g : α → β) :
    Moves f (fun tokens => do let (a, rest) ← read tokens; return (g a, rest))
      (fun tokens => do let (a, rest) ← read' tokens; return (g a, rest)) :=
  h.bind fun _ _ => rfl

namespace Expr

variable {operand operand' : Reader Expr}

/-! ### Operators -/

/-- A chain goes round once for each operator, and these are the same. -/
theorem chainFrom_moves (op? : Lexeme → Option BinaryOp) (h : Reader.Moves f operand operand')
    (n : Nat) (e : Expr) : Reader.Moves f (chainFrom op? operand n e) (chainFrom op? operand' n e) := by
  -- by the bound of the loop, which is the number of tokens and so the same
  induction n generalizing e with
  | zero => exact fun _ => rfl
  | succ n ih =>
    intro tokens
    cases tokens with
    | nil => rfl
    | cons t tokens =>
      rw [List.map_cons, chainFrom, chainFrom, Token.lexeme_move]
      cases op? t.lexeme with
      | none => rfl
      | some op => exact h.bind (fun e' rest => ih _ rest) tokens

/-- A chain is moved with its operands. -/
theorem chain_moves (op? : Lexeme → Option BinaryOp) (h : Reader.Moves f operand operand') :
    Reader.Moves f (chain op? operand) (chain op? operand') :=
  h.bind fun e rest => by
    -- there are as many tokens as before
    dsimp only
    rw [List.length_map]
    exact chainFrom_moves op? h rest.length e rest

/-- Terms are chains of operands, and expressions are chains of terms. -/
theorem expression_moves (h : Reader.Moves f operand operand') :
    Reader.Moves f (expression operand) (expression operand') :=
  chain_moves _ (chain_moves _ h)

/-! ### Parentheses and arguments -/

variable (start : Token)

/-- A missing parenthesis is reported where the opening one is now. -/
theorem untilClosing_moves (h : Reader.Moves f operand operand') :
    Reader.Moves f (untilClosing stop start operand)
      (untilClosing (f stop) (start.move f) operand') :=
  (expression_moves h).bind fun e rest => by
    cases rest with
    | nil => rfl
    | cons t rest =>
      dsimp only
      -- the token behind the expression is the closing one, or it is unexpected
      rw [List.map_cons]
      dsimp only
      rw [Token.lexeme_move]
      split
      · rfl
      · exact congrArg Except.error (EquationError.move_unexpectedAt f stop _ (t :: rest))

/-- Arguments are moved with their operands, comma by comma. -/
theorem argumentsFrom_moves (h : Reader.Moves f operand operand') (n : Nat) :
    Reader.Moves f (argumentsFrom stop start operand n)
      (argumentsFrom (f stop) (start.move f) operand' n) := by
  induction n with
  | zero => exact (untilClosing_moves start h).map fun e => [e]
  | succ n ih =>
    refine (expression_moves h).bind fun e rest => ?_
    cases rest with
    | nil => rfl
    | cons t rest =>
      dsimp only
      rw [List.map_cons]
      dsimp only
      rw [Token.lexeme_move]
      split
      · exact ih.map (e :: ·) rest
      split
      · rfl
      · exact congrArg Except.error (EquationError.move_unexpectedAt f stop _ (t :: rest))

/-- An argument list is moved with its operands, the empty one as well. -/
theorem arguments_moves (h : Reader.Moves f operand operand') :
    Reader.Moves f (arguments stop start operand) (arguments (f stop) (start.move f) operand') := by
  intro tokens
  cases tokens with
  | nil => exact argumentsFrom_moves start h 0 []
  | cons t tokens =>
    rw [List.map_cons, arguments, arguments, Token.lexeme_move, List.length_map]
    split
    · rfl
    · exact argumentsFrom_moves start h tokens.length (t :: tokens)

/-! ### Operands -/

variable {sig : Signature} {deeper deeper' : Option (Reader Expr)} {t : Token}

/-- A phrase is too deep at the same token, wherever that is. -/
theorem nested_moves {α β : Type} {deeper deeper' : Option (Reader α)}
    {phrase phrase' : Reader α → Reader β} (t : Token)
    (hdeeper : Option.Rel (Reader.Moves f) deeper deeper')
    (hphrase : ∀ read read', Reader.Moves f read read' → Reader.Moves f (phrase read) (phrase' read')) :
    Reader.Moves f (nested deeper t phrase) (nested deeper' (t.move f) phrase') := by
  cases hdeeper with
  | none => exact fun _ => rfl
  | some hread => exact hphrase _ _ hread

variable (hdeeper : Option.Rel (Reader.Moves f) deeper deeper')

include hdeeper

/-- Whether a name is applied to a list, to an operand or to nothing is told by the next lexeme. -/
theorem application_moves (t : Token) (name : String) :
    Reader.Moves f (application sig stop deeper t name)
      (application sig (f stop) deeper' (t.move f) name) := by
  intro tokens
  unfold application
  dsimp only
  rw [Token.any_head?_move f Lexeme.startsOperand]
  -- the name decides with the next lexeme, which is settled before the tokens are looked at
  generalize (sig.isCallable name && tokens.head?.any (·.lexeme.startsOperand)) = juxtaposed
  cases tokens with
  | nil =>
    rw [List.map_nil]
    dsimp only
    split
    · rfl
    · rfl
  | cons start rest =>
    rw [List.map_cons]
    dsimp only
    rw [Token.lexeme_move]
    split
    · exact nested_moves t hdeeper (fun _ _ h => arguments_moves start h) rest
    split
    · exact nested_moves t hdeeper (fun _ _ h => h.map fun e => [e]) (start :: rest)
    split
    · rfl
    · rfl

/-- An unknown name and a wrong number of arguments are reported where the name is now. -/
theorem callOf_moves (t : Token) (name : String) :
    Reader.Moves f (callOf sig stop deeper t name) (callOf sig (f stop) deeper' (t.move f) name) := by
  intro tokens
  unfold callOf
  split
  · refine (application_moves hdeeper t name).bind (fun args rest => ?_) tokens
    dsimp only
    split
    · rfl
    · rfl
  · rfl

/-- A variable and a call are told apart by the name alone. -/
theorem named_moves (t : Token) (name : String) :
    Reader.Moves f (named sig stop deeper t name) (named sig (f stop) deeper' (t.move f) name) := by
  intro tokens
  unfold named
  rw [Token.any_head?_move f (· = .symbol .opening)]
  split
  · split
    · rfl
    · rfl
  · exact callOf_moves hdeeper t name tokens

/-- A primary is told by the lexeme in front. -/
theorem primary_moves :
    Reader.Moves f (primary sig stop deeper) (primary sig (f stop) deeper') := by
  intro tokens
  cases tokens with
  | nil => rfl
  | cons t tokens =>
    rw [List.map_cons, primary, primary, Token.lexeme_move]
    split
    · rfl
    · exact named_moves hdeeper t _ tokens
    · exact nested_moves t hdeeper (fun _ _ h => untilClosing_moves t h) tokens
    · exact congrArg Except.error (EquationError.move_unexpectedAt f stop _ (t :: tokens))

/-- An operand is moved with what is nested in it. -/
theorem unary_moves : Reader.Moves f (unary sig stop deeper) (unary sig (f stop) deeper') := by
  have hprimary : Reader.Moves f (primary sig stop deeper) (primary sig (f stop) deeper') :=
    primary_moves hdeeper
  intro tokens
  cases tokens with
  | nil => exact hprimary []
  | cons t tokens =>
    rw [List.map_cons, unary, unary, Token.lexeme_move]
    cases Sign.ofLexeme? t.lexeme with
    | some s => exact nested_moves t hdeeper (fun _ _ h => h.map (Expr.signed s)) tokens
    | none => exact hprimary (t :: tokens)

omit hdeeper

/-- On every level, operands are moved. -/
theorem operandReader_moves (levels : Nat) :
    Reader.Moves f (operandReader sig stop levels) (operandReader sig (f stop) levels) := by
  -- without a level left there is no reader on either side, and below there are two that agree
  induction levels with
  | zero => exact unary_moves .none
  | succ levels ih => exact unary_moves (.some ih)

/-! ## Whole equations -/

/-- The same tokens in other places write the same expression, or they are refused for the same
    cause at what is the place of the same token there. -/
theorem ofTokens_move (sig : Signature) (f : Nat → Nat) (stop : Nat) (tokens : List Token) :
    ofTokens sig (f stop) (tokens.map (Token.move f)) =
      (ofTokens sig stop tokens).mapError (EquationError.move f) := by
  have hread : expression (operandReader sig (f stop) nestingLimit) (tokens.map (Token.move f)) =
      Reader.moved f (expression (operandReader sig stop nestingLimit) tokens) :=
    expression_moves (operandReader_moves nestingLimit) tokens
  unfold ofTokens
  rw [List.getElem?_map, List.isEmpty_map, hread]
  -- a row that is too long is refused at the token behind the limit
  cases tokens[tokenLimit]? with
  | some t => rfl
  | none =>
    dsimp only [Option.map_none]
    split
    · rfl
    · cases expression (operandReader sig stop nestingLimit) tokens with
      | error e => rfl
      | ok p =>
        obtain ⟨e, rest⟩ := p
        cases rest with
        | nil => rfl
        | cons t rest =>
          -- what is left over is refused as a whole, by the token in front
          show (if (t.move f).lexeme = .symbol .closing then _ else _) =
            Except.mapError _ (if t.lexeme = .symbol .closing then _ else _)
          rw [Token.lexeme_move]
          split
          · rfl
          · exact congrArg Except.error (EquationError.move_unexpectedAt f stop _ (t :: rest))

end Expr

end DirectionField
