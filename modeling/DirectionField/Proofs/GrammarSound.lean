import DirectionField.Proofs.Except
import DirectionField.Proofs.Grammar

/-!
# What a reader accepts, the grammar derives

Every reader of `Expr.OfTokens` is built from the reader of operands, so its soundness is stated
relative to that of operands: `SoundReader sig levels phrase r` says that whatever `r` takes off the
front of a row of tokens has a derivation with at most `levels` open levels. The main statement is
`operandReader_sound`, by induction on the number of levels that are left.
-/

namespace DirectionField

/-! ## Symbols and lexemes -/

/-- The operators of a sum are the symbols that the grammar has there. -/
theorem BinaryOp.additive?_eq_some_iff (l : Lexeme) (op : BinaryOp) :
    BinaryOp.additive? l = some op ↔ op.isAdditive = true ∧ l = .symbol op.symbol := by
  rcases l with n | cs | s
  · cases op <;> simp [additive?]
  · cases op <;> simp [additive?]
  · cases s <;> cases op <;> simp [additive?, isAdditive, symbol]

/-- The operators of a term are those that a sum does not have. -/
theorem BinaryOp.multiplicative?_eq_some_iff (l : Lexeme) (op : BinaryOp) :
    BinaryOp.multiplicative? l = some op ↔ ¬ op.isAdditive = true ∧ l = .symbol op.symbol := by
  rcases l with n | cs | s
  · cases op <;> simp [multiplicative?]
  · cases op <;> simp [multiplicative?]
  · cases s <;> cases op <;> simp [multiplicative?, isAdditive, symbol]

/-- A sign is read from its symbol only. -/
theorem Sign.ofLexeme?_eq_some_iff (l : Lexeme) (s : Sign) :
    Sign.ofLexeme? l = some s ↔ l = .symbol s.symbol := by
  rcases l with n | cs | t
  · cases s <;> simp [ofLexeme?]
  · cases s <;> simp [ofLexeme?]
  · cases t <;> cases s <;> simp [ofLexeme?, symbol]

/-- A lexeme can start an operand if it can start an argument or is a parenthesis. -/
theorem Lexeme.startsOperand_iff (l : Lexeme) :
    l.startsOperand = true ↔ l.startsArgument = true ∨ l = .symbol .opening := by
  rcases l with n | cs | s
  · simp [startsOperand, startsArgument]
  · simp [startsOperand, startsArgument]
  · cases s <;> simp [startsOperand, startsArgument]

@[simp] theorem Token.lexemes_nil : Token.lexemes [] = [] := rfl

@[simp] theorem Token.lexemes_cons (t : Token) (ts : List Token) :
    Token.lexemes (t :: ts) = t.lexeme :: Token.lexemes ts := rfl

@[simp] theorem Token.length_lexemes (ts : List Token) :
    (Token.lexemes ts).length = ts.length := List.length_map _

namespace Signature

variable (sig : Signature) (name : String)

theorem accepts_iff (n : Nat) : sig.accepts name n = true ↔ n ∈ sig.arities name := by
  simp [accepts]

theorem isCallable_iff : sig.isCallable name = true ↔ ∃ n ∈ sig.arities name, 0 < n := by
  simp [isCallable]

/-- A name with an arity is known. -/
theorem knows_of_mem {n : Nat} (h : n ∈ sig.arities name) : sig.knows name = true := by
  cases ha : sig.arities name with
  | nil => rw [ha] at h; cases h
  | cons a as => simp [knows, ha]

end Signature

/-- A name is that of a variable if it is the one it is written with. -/
theorem Variable.ofName?_eq_some_iff (name : String) (v : Variable) :
    Variable.ofName? name = some v ↔ v.name = name := by
  constructor
  · intro h
    unfold ofName? at h
    split at h
    · next hx => cases h; exact hx.symm
    · split at h
      · next hy => cases h; exact hy.symm
      · cases h
  · rintro rfl
    exact Variable.ofName?_name v

/-- All other names are those of functions and constants. -/
theorem Variable.ofName?_eq_none_iff (name : String) :
    Variable.ofName? name = none ↔ ∀ v, Variable.name v ≠ name := by
  constructor
  · intro h v hv
    rw [(Variable.ofName?_eq_some_iff name v).2 hv] at h
    cases h
  · intro h
    cases hv : Variable.ofName? name with
    | none => rfl
    | some v => exact absurd ((Variable.ofName?_eq_some_iff name v).1 hv) (h v)

/-! ## Chains and lists -/

/-- Whatever the reader takes off the front has a derivation with at most `levels` open levels. -/
def SoundReader {α : Type} (sig : Signature) (levels : Nat) (phrase : α → Phrase)
    (r : Reader α) : Prop :=
  ∀ tokens a rest, r tokens = .ok (a, rest) →
    ∃ d ≤ levels, Derives sig (phrase a) d (Token.lexemes tokens) (Token.lexemes rest)

namespace Expr

variable {sig : Signature} {levels stop : Nat} {start : Token} {operand : Reader Expr}

/-- A property of an expression and of the tokens after it that reading one more operand keeps holds
    after a chain if it holds before it. -/
theorem chainFrom_induction {op? : Lexeme → Option BinaryOp} {motive : Expr → List Token → Prop}
    (step : ∀ e t tokens op e' rest, motive e (t :: tokens) → op? t.lexeme = some op →
      operand tokens = .ok (e', rest) → motive (.binary op e e') rest)
    {n : Nat} {e e' : Expr} {tokens rest : List Token} (hm : motive e tokens)
    (h : chainFrom op? operand n e tokens = .ok (e', rest)) : motive e' rest := by
  induction n generalizing e tokens with
  | zero => cases h; exact hm
  | succ n ih =>
    cases tokens with
    | nil => cases h; exact hm
    | cons t tokens =>
      unfold chainFrom at h
      -- the loop stops where no operator follows, and otherwise goes round once more
      cases hop : op? t.lexeme with
      | none => simp only [hop] at h; cases h; exact hm
      | some op =>
        simp only [hop, Except.bind_eq_ok_iff] at h
        obtain ⟨⟨e₁, rest₁⟩, hr, h⟩ := h
        exact ih (step e t tokens op e₁ rest₁ hm hop hr) h

/-- A chain starts with an operand and goes on with operators and operands. -/
theorem chain_eq_ok_iff (op? : Lexeme → Option BinaryOp) (operand : Reader Expr)
    (tokens : List Token) (r : Expr × List Token) :
    chain op? operand tokens = .ok r ↔ ∃ e rest, operand tokens = .ok (e, rest) ∧
      chainFrom op? operand rest.length e rest = .ok r := by
  unfold chain
  rw [Except.bind_eq_ok_iff]
  exact ⟨fun ⟨⟨e, rest⟩, h, h'⟩ => ⟨e, rest, h, h'⟩, fun ⟨e, rest, h, h'⟩ => ⟨(e, rest), h, h'⟩⟩

/-- What is read as a term has a derivation as a term. -/
theorem term_sound (hs : SoundReader sig levels .unary operand) :
    SoundReader sig levels .term (term operand) := by
  intro tokens e rest h
  obtain ⟨e₀, rest₀, h₀, h⟩ := (chain_eq_ok_iff ..).1 h
  -- what has been read so far is a term, which the rule for operators takes as its left operand
  refine chainFrom_induction (motive := fun e rest => ∃ d ≤ levels,
    Derives sig (.term e) d (Token.lexemes tokens) (Token.lexemes rest)) ?_ ?_ h
  · intro l t mid op r rest ⟨d, hd, hl⟩ hop hr
    obtain ⟨hmul, ht⟩ := (BinaryOp.multiplicative?_eq_some_iff _ _).1 hop
    obtain ⟨d', hd', hr⟩ := hs _ _ _ hr
    rw [Token.lexemes_cons, ht] at hl
    exact ⟨max d d', Nat.max_le.2 ⟨hd, hd'⟩, .term_binary hmul hl hr⟩
  · obtain ⟨d, hd, h₀⟩ := hs _ _ _ h₀
    exact ⟨d, hd, .term_unary h₀⟩

/-- What is read as an expression has a derivation as an expression. -/
theorem expression_sound (hs : SoundReader sig levels .unary operand) :
    SoundReader sig levels .expression (expression operand) := by
  intro tokens e rest h
  obtain ⟨e₀, rest₀, h₀, h⟩ := (chain_eq_ok_iff ..).1 h
  -- the same with terms for operands, which associates to the left, too
  refine chainFrom_induction (motive := fun e rest => ∃ d ≤ levels,
    Derives sig (.expression e) d (Token.lexemes tokens) (Token.lexemes rest)) ?_ ?_ h
  · intro l t mid op r rest ⟨d, hd, hl⟩ hop hr
    obtain ⟨hadd, ht⟩ := (BinaryOp.additive?_eq_some_iff _ _).1 hop
    obtain ⟨d', hd', hr⟩ := term_sound hs _ _ _ hr
    rw [Token.lexemes_cons, ht] at hl
    exact ⟨max d d', Nat.max_le.2 ⟨hd, hd'⟩, .expression_binary hadd hl hr⟩
  · obtain ⟨d, hd, h₀⟩ := term_sound hs _ _ _ h₀
    exact ⟨d, hd, .expression_term h₀⟩

/-- What is read up to a closing parenthesis is an expression with that parenthesis behind it. -/
theorem untilClosing_sound (hs : SoundReader sig levels .unary operand) {tokens rest : List Token}
    {e : Expr} (h : untilClosing stop start operand tokens = .ok (e, rest)) :
    ∃ d ≤ levels, Derives sig (.expression e) d (Token.lexemes tokens)
      (.symbol .closing :: Token.lexemes rest) := by
  unfold untilClosing at h
  rw [Except.bind_eq_ok_iff] at h
  obtain ⟨⟨e₁, rest₁⟩, hr, h⟩ := h
  obtain ⟨d, hd, hr⟩ := expression_sound hs _ _ _ hr
  -- the text ends, or the parenthesis is there, or something else is refused
  cases rest₁ with
  | nil => cases h
  | cons t rest₁ =>
    dsimp only at h
    split at h
    · next ht =>
      cases h
      rw [Token.lexemes_cons, ht] at hr
      exact ⟨d, hd, hr⟩
    · cases h

/-- What is read up to a closing parenthesis, comma by comma, is a list of expressions. -/
theorem argumentsFrom_sound (hs : SoundReader sig levels .unary operand) {n : Nat}
    {tokens rest : List Token} {es : List Expr}
    (h : argumentsFrom stop start operand n tokens = .ok (es, rest)) :
    ∃ d ≤ levels, Derives sig (.list es) d (Token.lexemes tokens)
      (.symbol .closing :: Token.lexemes rest) := by
  -- induction on the bound of the loop over the arguments
  induction n generalizing tokens es with
  | zero =>
    unfold argumentsFrom at h
    rw [Except.bind_eq_ok_iff] at h
    obtain ⟨⟨e, rest₁⟩, hr, h⟩ := h
    cases h
    obtain ⟨d, hd, hr⟩ := untilClosing_sound hs hr
    exact ⟨d, hd, .list_one hr⟩
  | succ n ih =>
    unfold argumentsFrom at h
    rw [Except.bind_eq_ok_iff] at h
    obtain ⟨⟨e, rest₁⟩, hr, h⟩ := h
    obtain ⟨d, hd, hr⟩ := expression_sound hs _ _ _ hr
    cases rest₁ with
    | nil => cases h
    | cons t rest₁ =>
      dsimp only at h
      split at h
      · -- a comma: the rest of the list is read by the loop
        next ht =>
        rw [Except.bind_eq_ok_iff] at h
        obtain ⟨⟨es', rest₂⟩, hrec, h⟩ := h
        cases h
        obtain ⟨d', hd', hes⟩ := ih hrec
        rw [Token.lexemes_cons, ht] at hr
        exact ⟨max d d', Nat.max_le.2 ⟨hd, hd'⟩, .list_cons hr hes⟩
      · -- a closing parenthesis: this was the last argument
        split at h
        · next ht =>
          cases h
          rw [Token.lexemes_cons, ht] at hr
          exact ⟨d, hd, .list_one hr⟩
        · cases h

/-- An argument list is empty, or a list of expressions. -/
theorem arguments_sound (hs : SoundReader sig levels .unary operand) :
    SoundReader sig levels .arguments (arguments stop start operand) := by
  intro tokens es rest h
  cases tokens with
  | nil =>
    rw [arguments] at h
    obtain ⟨d, hd, h⟩ := argumentsFrom_sound hs h
    exact ⟨d, hd, .arguments_list h⟩
  | cons t tokens =>
    rw [arguments] at h
    split at h
    · next ht =>
      cases h
      rw [Token.lexemes_cons, ht]
      exact ⟨0, Nat.zero_le _, .arguments_none⟩
    · obtain ⟨d, hd, h⟩ := argumentsFrom_sound hs h
      exact ⟨d, hd, .arguments_list h⟩

/-! ## Operands -/

/-- The reader for operands one level deeper, if there is one, is sound for fewer levels. -/
def SoundBelow (sig : Signature) (levels : Nat) (deeper : Option (Reader Expr)) : Prop :=
  ∀ r, deeper = some r → ∃ k < levels, SoundReader sig k .unary r

variable {deeper : Option (Reader Expr)}

/-- A phrase that is nested in a token is read by a sound reader with fewer levels. -/
theorem SoundBelow.of_nested {β : Type} (hs : SoundBelow sig levels deeper) {t : Token}
    {phrase : Reader Expr → Reader β} {tokens : List Token} {b : β × List Token}
    (h : nested deeper t phrase tokens = .ok b) :
    ∃ k < levels, ∃ r, SoundReader sig k .unary r ∧ phrase r tokens = .ok b := by
  cases hd : deeper with
  | none => rw [hd] at h; cases h
  | some r =>
    obtain ⟨k, hk, hsound⟩ := hs r hd
    rw [hd] at h
    exact ⟨k, hk, r, hsound, h⟩

/-- What a name is applied to makes up a call, if the name takes that many arguments. -/
theorem application_sound (hs : SoundBelow sig levels deeper) {t : Token} {name : String}
    (hvar : ∀ v, Variable.name v ≠ name) {tokens rest : List Token} {args : List Expr}
    (harity : args.length ∈ sig.arities name)
    (h : application sig stop deeper t name tokens = .ok (args, rest)) :
    ∃ d ≤ levels, Derives sig (.call (.call name args)) d
      (.name name.toList :: Token.lexemes tokens) (Token.lexemes rest) := by
  unfold application at h
  cases tokens with
  | nil =>
    dsimp only at h
    -- at the end of the text a name stands for a constant
    split at h
    · cases h
      exact ⟨0, Nat.zero_le _, .call_constant hvar (by simp) (by simp) harity⟩
    · cases h
  | cons s tokens =>
    dsimp only at h
    split at h
    · -- an opening parenthesis: the list of arguments
      next hopen =>
      obtain ⟨k, hk, r, hsound, h⟩ := hs.of_nested h
      obtain ⟨d, hd, hargs⟩ := arguments_sound hsound _ _ _ h
      rw [Token.lexemes_cons, hopen]
      exact ⟨d + 1, by omega, .call_arguments hvar harity hargs⟩
    · next hopen =>
      split at h
      · -- an operand: the only argument
        next hjux =>
        obtain ⟨hcall, hnext⟩ := Bool.and_eq_true_iff.1 hjux
        have hstart : s.lexeme.startsArgument = true := by
          rcases (Lexeme.startsOperand_iff _).1 (by simpa using hnext) with h | h
          · exact h
          · exact absurd h hopen
        obtain ⟨k, hk, r, hsound, h⟩ := hs.of_nested h
        rw [Except.bind_eq_ok_iff] at h
        obtain ⟨⟨e, rest₁⟩, he, h⟩ := h
        cases h
        obtain ⟨d, hd, he⟩ := hsound _ _ _ he
        exact ⟨d + 1, by omega,
          .call_unary hvar ((sig.isCallable_iff name).1 hcall) hstart harity he⟩
      · -- neither: a constant
        next hjux =>
        split at h
        · cases h
          refine ⟨0, Nat.zero_le _, .call_constant hvar ?_ ?_ harity⟩
          · simpa using hopen
          · intro hcall l hl hstart
            have hl : s.lexeme = l := by simpa using hl
            apply hjux
            rw [(sig.isCallable_iff name).2 hcall]
            simpa [hl] using (Lexeme.startsOperand_iff l).2 (.inl hstart)
        · cases h

/-- What is read behind a name makes up a call of it. -/
theorem callOf_sound (hs : SoundBelow sig levels deeper) {t : Token} {name : String}
    (hvar : ∀ v, Variable.name v ≠ name) {tokens rest : List Token} {e : Expr}
    (h : callOf sig stop deeper t name tokens = .ok (e, rest)) :
    ∃ d ≤ levels, Derives sig (.call e) d (.name name.toList :: Token.lexemes tokens)
      (Token.lexemes rest) := by
  -- an unknown name is refused first, and a wrong number of arguments last
  unfold callOf at h
  split at h
  · rw [Except.bind_eq_ok_iff] at h
    obtain ⟨⟨args, rest₁⟩, happ, h⟩ := h
    dsimp only at h
    split at h
    · next hacc =>
      cases h
      exact application_sound hs hvar ((sig.accepts_iff name _).1 hacc) happ
    · cases h
  · cases h

/-- A number, a variable, a parenthesised expression and a call are primaries, by one rule each. -/
theorem primary_sound (hs : SoundBelow sig levels deeper) :
    SoundReader sig levels .primary (primary sig stop deeper) := by
  intro tokens e rest h
  cases tokens with
  | nil => cases h
  | cons t tokens =>
    rw [Token.lexemes_cons]
    unfold primary at h
    cases hl : t.lexeme with
    -- a numeral is a number, whatever its value
    | number n =>
      simp only [hl] at h
      cases h
      exact ⟨0, Nat.zero_le _, .primary_number⟩
    | name cs =>
      simp only [hl, named] at h
      -- the grammar has names as strings, a lexeme has its characters
      obtain ⟨name, rfl⟩ : ∃ name : String, name.toList = cs := ⟨String.ofList cs, by simp⟩
      rw [String.ofList_toList] at h
      cases hv : Variable.ofName? name with
      | some v =>
        simp only [hv] at h
        obtain rfl := (Variable.ofName?_eq_some_iff name v).1 hv
        -- a variable in front of a parenthesis is refused
        split at h
        · cases h
        · next hnext =>
          cases h
          refine ⟨0, Nat.zero_le _, .primary_variable ?_⟩
          cases rest with
          | nil => simp
          | cons s rest => simpa using hnext
      | none =>
        simp only [hv] at h
        obtain ⟨d, hd, h⟩ := callOf_sound hs ((Variable.ofName?_eq_none_iff name).1 hv) h
        exact ⟨d, hd, .primary_call h⟩
    | symbol s =>
      simp only [hl] at h
      cases s with
      | opening =>
        obtain ⟨k, hk, r, hsound, h⟩ := hs.of_nested h
        obtain ⟨d, hd, h⟩ := untilClosing_sound hsound h
        exact ⟨d + 1, by omega, .primary_group h⟩
      | _ => cases h

/-- A sign takes the operand behind it, and an operand without a sign is a primary. -/
theorem unary_sound (hs : SoundBelow sig levels deeper) :
    SoundReader sig levels .unary (unary sig stop deeper) := by
  intro tokens e rest h
  cases tokens with
  | nil => cases h
  | cons t tokens =>
    unfold unary at h
    cases hsign : Sign.ofLexeme? t.lexeme with
    | none =>
      simp only [hsign] at h
      obtain ⟨d, hd, h⟩ := primary_sound hs _ _ _ h
      exact ⟨d, hd, .unary_primary h⟩
    | some s =>
      simp only [hsign] at h
      obtain ⟨k, hk, r, hsound, h⟩ := hs.of_nested h
      rw [Except.bind_eq_ok_iff] at h
      obtain ⟨⟨e₁, rest₁⟩, he, h⟩ := h
      cases h
      obtain ⟨d, hd, he⟩ := hsound _ _ _ he
      rw [Token.lexemes_cons, (Sign.ofLexeme?_eq_some_iff _ _).1 hsign]
      exact ⟨d + 1, by omega, .unary_signed he⟩

/-- What the reader of operands accepts has a derivation within its levels. -/
theorem operandReader_sound (sig : Signature) (stop levels : Nat) :
    SoundReader sig levels .unary (operandReader sig stop levels) := by
  induction levels with
  | zero =>
    -- without a level left there is no reader for what is nested
    exact unary_sound (fun r hr => by cases hr)
  | succ levels ih =>
    refine unary_sound (fun r hr => ?_)
    cases hr
    exact ⟨levels, Nat.lt_succ_self _, ih⟩

end Expr

end DirectionField
