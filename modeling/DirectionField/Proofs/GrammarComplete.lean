import DirectionField.Proofs.GrammarSound

/-!
# What the grammar derives, a reader accepts

The other direction of `GrammarSound`. A rule of the grammar for operators is left-recursive, while a
reader of a chain loops over the operators after the first operand, and the loop is bounded by the
number of tokens. `Leads` says that the loop gets from one place of a chain to another whatever the
bound, so that a derivation can be followed from its first operand on. What each kind of phrase asks
of the readers is `Accepts`. Each rule of the grammar keeps that a phrase `IsRead`, and
`accepts_of_derives` goes by induction on the derivation.
-/

namespace DirectionField

/-- A phrase is written by at least one lexeme. -/
theorem Derives.length_lt {sig : Signature} {phrase : Phrase} {d : Nat} {ls rest : List Lexeme}
    (h : Derives sig phrase d ls rest) : rest.length < ls.length := by
  -- by the derivation; the cases are those with a token of their own, without one, and with two
  -- parts
  induction h with
  | primary_number | primary_variable | call_constant | arguments_none => simp
  | expression_term _ ih | term_unary _ ih | unary_primary _ ih | primary_call _ ih => exact ih
  | list_one _ ih => exact ih
  | expression_binary _ _ _ ihl ihr | term_binary _ _ _ ihl ihr | list_cons _ _ ihl ihr =>
    simp only [List.length_cons] at ihl
    omega
  | unary_signed _ ih | primary_group _ ih | arguments_list _ ih =>
    simp only [List.length_cons] at *
    omega
  | call_arguments _ _ _ ih | call_unary _ _ _ _ _ ih =>
    simp only [List.length_cons] at *
    omega

namespace Expr

/-! ## Chains -/

/-- No operator of a chain follows. -/
def EndsChain (op? : Lexeme → Option BinaryOp) (rest : List Lexeme) : Prop :=
  ∀ l, rest.head? = some l → op? l = none

/-- With enough of a bound for the tokens that are left, the loop over a chain gets from `e` in
    front of `tokens` to `e'` in front of `rest`. -/
def Leads (op? : Lexeme → Option BinaryOp) (operand : Reader Expr) (e : Expr) (tokens : List Token)
    (e' : Expr) (rest : List Token) : Prop :=
  ∀ n, tokens.length ≤ n → ∃ m, rest.length ≤ m ∧
    chainFrom op? operand n e tokens = chainFrom op? operand m e' rest

variable {op? : Lexeme → Option BinaryOp} {operand : Reader Expr}

/-- Nothing has to be read to stay where one is. -/
theorem Leads.refl (e : Expr) (tokens : List Token) : Leads op? operand e tokens e tokens :=
  fun n hn => ⟨n, hn, rfl⟩

/-- An operator and an operand lead on. -/
theorem Leads.step {e₀ e r : Expr} {tokens₀ mid rest : List Token} {t : Token} {op : BinaryOp}
    (h : Leads op? operand e₀ tokens₀ e (t :: mid)) (hop : op? t.lexeme = some op)
    (hr : operand mid = .ok (r, rest)) (hlen : rest.length < mid.length) :
    Leads op? operand e₀ tokens₀ (.binary op e r) rest := by
  intro n hn
  obtain ⟨m, hm, h⟩ := h n hn
  -- the operator is a token, so the bound is not used up
  obtain ⟨k, rfl⟩ : ∃ k, m = k + 1 := ⟨m - 1, by simp only [List.length_cons] at hm; omega⟩
  refine ⟨k, by simp only [List.length_cons] at hm; omega, h.trans ?_⟩
  rw [chainFrom]
  simp only [hop, hr]
  rfl

/-- The loop over a chain ends where no operator follows. -/
theorem chainFrom_of_endsChain {n : Nat} {e : Expr} {rest : List Token}
    (hend : EndsChain op? (Token.lexemes rest)) :
    chainFrom op? operand n e rest = .ok (e, rest) := by
  cases n with
  | zero => rfl
  | succ n =>
    cases rest with
    | nil => rfl
    | cons t rest =>
      have ht : op? t.lexeme = none := hend t.lexeme rfl
      simp only [chainFrom, ht]

/-- A chain is read to the place where its operators end. -/
theorem chain_of_leads {e₀ e : Expr} {tokens rest₀ rest : List Token}
    (h₀ : operand tokens = .ok (e₀, rest₀)) (h : Leads op? operand e₀ rest₀ e rest)
    (hend : EndsChain op? (Token.lexemes rest)) :
    chain op? operand tokens = .ok (e, rest) := by
  obtain ⟨m, _, hm⟩ := h _ (Nat.le_refl _)
  exact (chain_eq_ok_iff ..).2 ⟨e₀, rest₀, h₀, hm.trans (chainFrom_of_endsChain hend)⟩

/-- No operator follows at the end, in front of a closing parenthesis or in front of a comma. -/
theorem endsChain_of_mark {rest : List Lexeme}
    (h : ∀ l, rest.head? = some l → l = .symbol .closing ∨ l = .symbol .comma) :
    EndsChain BinaryOp.multiplicative? rest ∧ EndsChain BinaryOp.additive? rest :=
  ⟨fun l hl => by rcases h l hl with rfl | rfl <;> rfl,
    fun l hl => by rcases h l hl with rfl | rfl <;> rfl⟩

/-- A factor does not end in front of an operator between terms. -/
theorem endsChain_of_isAdditive {op : BinaryOp} (hop : op.isAdditive = true) (ls : List Lexeme) :
    EndsChain BinaryOp.multiplicative? (.symbol op.symbol :: ls) := by
  intro l hl
  cases op <;> cases hl <;> first | rfl | cases hop

/-! ## Phrases -/

/-- A phrase, as far as `rest`, is read with `levels` levels left. -/
def Accepts (sig : Signature) (stop levels : Nat) : Phrase → List Token → List Token → Prop
  | .unary e, tokens, rest | .primary e, tokens, rest | .call e, tokens, rest =>
    operandReader sig stop levels tokens = .ok (e, rest)
  | .term e, tokens, rest => ∃ e₀ rest₀, operandReader sig stop levels tokens = .ok (e₀, rest₀) ∧
    Leads BinaryOp.multiplicative? (operandReader sig stop levels) e₀ rest₀ e rest
  | .expression e, tokens, rest => EndsChain BinaryOp.multiplicative? (Token.lexemes rest) →
    ∃ e₀ rest₀, term (operandReader sig stop levels) tokens = .ok (e₀, rest₀) ∧
      Leads BinaryOp.additive? (term (operandReader sig stop levels)) e₀ rest₀ e rest
  | .arguments es, tokens, rest => ∀ start,
    arguments stop start (operandReader sig stop levels) tokens = .ok (es, rest)
  | .list es, tokens, rest => ∀ start n t rest', tokens.length ≤ n + 1 → rest = t :: rest' →
    t.lexeme = .symbol .closing →
    argumentsFrom stop start (operandReader sig stop levels) n tokens = .ok (es, rest')

variable {sig : Signature} {stop levels : Nat} {tokens rest : List Token}

/-- An accepted term is read where no factor follows. -/
theorem Accepts.term {e : Expr} (h : Accepts sig stop levels (.term e) tokens rest)
    (hend : EndsChain BinaryOp.multiplicative? (Token.lexemes rest)) :
    Expr.term (operandReader sig stop levels) tokens = .ok (e, rest) := by
  obtain ⟨e₀, rest₀, h₀, h⟩ := h
  exact chain_of_leads h₀ h hend

/-- An accepted expression is read where a mark that ends it follows. -/
theorem Accepts.expression {e : Expr} (h : Accepts sig stop levels (.expression e) tokens rest)
    (hmark : ∀ l, (Token.lexemes rest).head? = some l → l = .symbol .closing ∨ l = .symbol .comma) :
    Expr.expression (operandReader sig stop levels) tokens = .ok (e, rest) := by
  obtain ⟨hmul, hadd⟩ := endsChain_of_mark hmark
  obtain ⟨e₀, rest₀, h₀, h⟩ := h hmul
  exact chain_of_leads h₀ h hadd

/-- An expression in front of a closing parenthesis is read up to it. -/
theorem Accepts.untilClosing {e : Expr} {start t : Token}
    (h : Accepts sig stop levels (.expression e) tokens (t :: rest))
    (ht : t.lexeme = .symbol .closing) :
    Expr.untilClosing stop start (operandReader sig stop levels) tokens = .ok (e, rest) := by
  have h := h.expression (fun l hl => .inl (by rw [← ht]; simpa using hl.symm))
  unfold Expr.untilClosing
  rw [Except.bind_eq_ok_iff]
  exact ⟨_, h, by simp [ht]⟩

/-- Operands are read by `unary`, whatever the number of levels. -/
theorem operandReader_eq_unary (sig : Signature) (stop levels : Nat) :
    ∃ deeper, operandReader sig stop levels = unary sig stop deeper := by
  cases levels with
  | zero => exact ⟨none, rfl⟩
  | succ levels => exact ⟨some (operandReader sig stop levels), rfl⟩

/-- Where no sign starts an operand, it is read by `primary`. -/
theorem unary_of_not_sign {deeper : Option (Reader Expr)} {t : Token}
    (h : Sign.ofLexeme? t.lexeme = none) :
    unary sig stop deeper (t :: tokens) = primary sig stop deeper (t :: tokens) := by
  simp only [unary, h]

/-- A name that is not a variable starts a call. -/
theorem unary_name {deeper : Option (Reader Expr)} {t : Token} {name : String}
    (ht : t.lexeme = .name name.toList) (hvar : ∀ v, Variable.name v ≠ name) :
    unary sig stop deeper (t :: tokens) = callOf sig stop deeper t name tokens := by
  rw [unary_of_not_sign (by rw [ht]; rfl)]
  simp only [primary, ht, named, String.ofList_toList, (Variable.ofName?_eq_none_iff name).2 hvar]

/-- A call whose application is read and whose count of arguments is declared is read. -/
theorem callOf_eq_ok {deeper : Option (Reader Expr)} {t : Token} {name : String}
    {args : List Expr} (happ : application sig stop deeper t name tokens = .ok (args, rest))
    (harity : args.length ∈ sig.arities name) :
    callOf sig stop deeper t name tokens = .ok (.call name args, rest) := by
  unfold callOf
  rw [if_pos (sig.knows_of_mem name harity), Except.bind_eq_ok_iff]
  refine ⟨_, happ, ?_⟩
  dsimp only
  rw [if_pos ((sig.accepts_iff name _).2 harity)]
  rfl

/-- A name in front of a parenthesis applies to what is in it. -/
theorem application_opening {deeper : Reader Expr} {t s : Token} {name : String}
    (hs : s.lexeme = .symbol .opening) :
    application sig stop (some deeper) t name (s :: tokens) =
      arguments stop s deeper tokens := by
  simp only [application, hs, if_true, nested]

/-- A name that takes arguments applies to the operand behind it. -/
theorem application_operand {deeper : Reader Expr} {t s : Token} {name : String} {e : Expr}
    (hcallable : ∃ n ∈ sig.arities name, 0 < n) (hs : s.lexeme.startsArgument = true)
    (he : deeper (s :: tokens) = .ok (e, rest)) :
    application sig stop (some deeper) t name (s :: tokens) = .ok ([e], rest) := by
  have hopen : s.lexeme ≠ .symbol .opening := by
    intro hopen
    rw [hopen] at hs
    cases hs
  have hoperand : s.lexeme.startsOperand = true := (Lexeme.startsOperand_iff _).2 (.inl hs)
  simp only [application, if_neg hopen, (sig.isCallable_iff name).2 hcallable, List.head?_cons,
    Option.any_some, hoperand, Bool.and_self, if_true, nested]
  exact (Except.bind_eq_ok_iff ..).2 ⟨_, he, rfl⟩

/-- A name that applies to nothing is a constant. -/
theorem application_constant {deeper : Option (Reader Expr)} {t : Token} {name : String}
    (hparen : (Token.lexemes tokens).head? ≠ some (.symbol .opening))
    (hnext : (∃ n ∈ sig.arities name, 0 < n) →
      ∀ l, (Token.lexemes tokens).head? = some l → ¬ l.startsArgument)
    (harity : 0 ∈ sig.arities name) :
    application sig stop deeper t name tokens = .ok ([], tokens) := by
  have hacc := (sig.accepts_iff name 0).2 harity
  cases tokens with
  | nil => simp only [application, hacc, if_true]
  | cons s tokens =>
    have hopen : s.lexeme ≠ .symbol .opening := by simpa using hparen
    have hjux : ¬ (sig.isCallable name && s.lexeme.startsOperand) = true := by
      intro h
      obtain ⟨hcall, hs⟩ := Bool.and_eq_true_iff.1 h
      have hs := ((Lexeme.startsOperand_iff _).1 hs).resolve_right hopen
      exact hnext ((sig.isCallable_iff name).1 hcall) _ rfl hs
    simp only [application, if_neg hopen, List.head?_cons, Option.any_some, if_neg hjux, hacc,
      if_true]

/-- The arguments of a call start with a closing parenthesis only if there are none. -/
theorem arguments_of_list {start : Token} {es : List Expr} {operand : Reader Expr}
    (hfirst : ∀ t ts, tokens = t :: ts → t.lexeme ≠ .symbol .closing)
    (h : ∀ n, tokens.length ≤ n + 1 →
      argumentsFrom stop start operand n tokens = .ok (es, rest)) :
    arguments stop start operand tokens = .ok (es, rest) := by
  cases tokens with
  | nil => exact h 0 (Nat.zero_le _)
  | cons t tokens =>
    rw [arguments, if_neg (hfirst t tokens rfl)]
    exact h _ (Nat.le_refl _)

/-- The last argument is followed by the closing parenthesis. -/
theorem argumentsFrom_last {start t : Token} {e : Expr} {n : Nat}
    (h : Accepts sig stop levels (.expression e) tokens (t :: rest))
    (ht : t.lexeme = .symbol .closing) :
    argumentsFrom stop start (operandReader sig stop levels) n tokens = .ok ([e], rest) := by
  cases n with
  | zero => exact (Except.bind_eq_ok_iff ..).2 ⟨_, h.untilClosing ht, rfl⟩
  | succ n =>
    have h := h.expression (fun l hl => .inl (by rw [← ht]; simpa using hl.symm))
    refine (Except.bind_eq_ok_iff ..).2 ⟨_, h, ?_⟩
    simp [ht]

/-- An argument in front of a comma is followed by more of them. -/
theorem argumentsFrom_cons {start t : Token} {e : Expr} {es : List Expr} {mid : List Token} {n : Nat}
    (h : Accepts sig stop levels (.expression e) tokens (t :: mid))
    (ht : t.lexeme = .symbol .comma)
    (hs : argumentsFrom stop start (operandReader sig stop levels) n mid = .ok (es, rest)) :
    argumentsFrom stop start (operandReader sig stop levels) (n + 1) tokens =
      .ok (e :: es, rest) := by
  have h := h.expression (fun l hl => .inr (by rw [← ht]; simpa using hl.symm))
  refine (Except.bind_eq_ok_iff ..).2 ⟨_, h, ?_⟩
  simp only [ht, if_true]
  exact (Except.bind_eq_ok_iff ..).2 ⟨_, hs, rfl⟩

/-- A row of lexemes with a first one is that of a row of tokens with a first one. -/
theorem lexemes_eq_cons {l : Lexeme} {ls : List Lexeme} (h : Token.lexemes tokens = l :: ls) :
    ∃ t ts, tokens = t :: ts ∧ t.lexeme = l ∧ Token.lexemes ts = ls := by
  cases tokens with
  | nil => cases h
  | cons t ts => cases h; exact ⟨t, ts, rfl, rfl, rfl⟩

/-- No phrase but an empty row of arguments starts with a closing parenthesis. -/
theorem first_ne_closing {phrase : Phrase} {d : Nat} {ls lrest : List Lexeme}
    (h : Derives sig phrase d ls lrest) (hphrase : ∀ es, phrase ≠ .arguments es) :
    ls.head? ≠ some (.symbol .closing) := by
  -- the first token of a phrase is that of its first part, or a token of the rule itself
  induction h with
  | expression_term _ ih | term_unary _ ih | unary_primary _ ih | primary_call _ ih =>
    exact ih (by simp)
  | list_one _ ih | list_cons _ _ ih _ => exact ih (by simp)
  | expression_binary _ _ _ ihl _ | term_binary _ _ _ ihl _ => exact ihl (by simp)
  | @unary_signed s => cases s <;> simp [Sign.symbol]
  | arguments_none | arguments_list => exact absurd rfl (hphrase _)
  | _ => simp

/-! ## Rules -/

/-- Whatever tokens have the lexemes `ls`, they are read as the phrase with `levels` levels left, up
    to tokens that have the lexemes `lrest`. -/
def IsRead (sig : Signature) (stop levels : Nat) (phrase : Phrase) (ls lrest : List Lexeme) : Prop :=
  ∀ tokens, Token.lexemes tokens = ls →
    ∃ rest, Token.lexemes rest = lrest ∧ Accepts sig stop levels phrase tokens rest

namespace IsRead

variable {ls lmid lrest : List Lexeme} {e l r : Expr} {es : List Expr} {op : BinaryOp} {name : String}

/-! ### Operators -/

/-- The rule `expression := term`. -/
theorem expression_term (h : IsRead sig stop levels (.term e) ls lrest) :
    IsRead sig stop levels (.expression e) ls lrest := by
  intro tokens htok
  obtain ⟨rest, hrest, h⟩ := h tokens htok
  exact ⟨rest, hrest, fun hend => ⟨_, _, h.term hend, .refl _ _⟩⟩

/-- The rule `expression := expression ("+" | "-") term`. -/
theorem expression_binary (hop : op.isAdditive = true)
    (hl : IsRead sig stop levels (.expression l) ls (.symbol op.symbol :: lmid))
    (hr : IsRead sig stop levels (.term r) lmid lrest) (hlen : lrest.length < lmid.length) :
    IsRead sig stop levels (.expression (.binary op l r)) ls lrest := by
  intro tokens htok
  obtain ⟨mid, hmid, hleft⟩ := hl tokens htok
  obtain ⟨t, mid, rfl, ht, rfl⟩ := lexemes_eq_cons hmid
  obtain ⟨rest, rfl, hright⟩ := hr mid rfl
  rw [Token.length_lexemes, Token.length_lexemes] at hlen
  refine ⟨rest, rfl, fun hend => ?_⟩
  -- the terms before the operator end at it
  obtain ⟨e₀, rest₀, h₀, hleads⟩ := hleft (by
    rw [Token.lexemes_cons, ht]
    exact endsChain_of_isAdditive hop _)
  exact ⟨e₀, rest₀, h₀,
    hleads.step ((BinaryOp.additive?_eq_some_iff _ _).2 ⟨hop, ht⟩) (hright.term hend) hlen⟩

/-- The rule `term := unary`. -/
theorem term_unary (h : IsRead sig stop levels (.unary e) ls lrest) :
    IsRead sig stop levels (.term e) ls lrest := by
  intro tokens htok
  obtain ⟨rest, hrest, h⟩ := h tokens htok
  exact ⟨rest, hrest, _, _, h, .refl _ _⟩

/-- The rule `term := term ("*" | "/") unary`. -/
theorem term_binary (hop : ¬ op.isAdditive = true)
    (hl : IsRead sig stop levels (.term l) ls (.symbol op.symbol :: lmid))
    (hr : IsRead sig stop levels (.unary r) lmid lrest) (hlen : lrest.length < lmid.length) :
    IsRead sig stop levels (.term (.binary op l r)) ls lrest := by
  intro tokens htok
  obtain ⟨mid, hmid, e₀, rest₀, h₀, hleads⟩ := hl tokens htok
  obtain ⟨t, mid, rfl, ht, rfl⟩ := lexemes_eq_cons hmid
  obtain ⟨rest, rfl, hright⟩ := hr mid rfl
  rw [Token.length_lexemes, Token.length_lexemes] at hlen
  exact ⟨rest, rfl, e₀, rest₀, h₀,
    hleads.step ((BinaryOp.multiplicative?_eq_some_iff _ _).2 ⟨hop, ht⟩) hright hlen⟩

/-- A sign takes a level away. -/
theorem unary_signed {s : Sign} (h : IsRead sig stop levels (.unary e) ls lrest) :
    IsRead sig stop (levels + 1) (.unary (.signed s e)) (.symbol s.symbol :: ls) lrest := by
  intro tokens htok
  obtain ⟨t, tokens, rfl, ht, htok⟩ := lexemes_eq_cons htok
  obtain ⟨rest, hrest, h⟩ := h tokens htok
  refine ⟨rest, hrest, ?_⟩
  simp only [Accepts, operandReader, unary, (Sign.ofLexeme?_eq_some_iff _ _).2 ht, nested]
  exact (Except.bind_eq_ok_iff ..).2 ⟨_, h, rfl⟩

/-! ### Primaries -/

/-- The rule `primary := number`. -/
theorem primary_number (n : Numeral) (lrest : List Lexeme) :
    IsRead sig stop levels (.primary (.literal n.value)) (.number n :: lrest) lrest := by
  intro tokens htok
  obtain ⟨t, rest, rfl, ht, hrest⟩ := lexemes_eq_cons htok
  obtain ⟨deeper, heq⟩ := operandReader_eq_unary sig stop levels
  refine ⟨rest, hrest, ?_⟩
  simp only [Accepts, heq]
  rw [unary_of_not_sign (by rw [ht]; rfl)]
  simp only [primary, ht]

/-- The rule `primary := "x" | "y"`, where no parenthesis follows. -/
theorem primary_variable {v : Variable} (hnext : lrest.head? ≠ some (.symbol .opening)) :
    IsRead sig stop levels (.primary (.var v)) (.name v.name.toList :: lrest) lrest := by
  intro tokens htok
  obtain ⟨t, rest, rfl, ht, rfl⟩ := lexemes_eq_cons htok
  obtain ⟨deeper, heq⟩ := operandReader_eq_unary sig stop levels
  refine ⟨rest, rfl, ?_⟩
  simp only [Accepts, heq]
  rw [unary_of_not_sign (by rw [ht]; rfl)]
  simp only [primary, ht, named, String.ofList_toList, Variable.ofName?_name]
  rw [if_neg]
  cases rest with
  | nil => simp
  | cons s rest => simpa using hnext

/-- So do parentheses. -/
theorem primary_group
    (h : IsRead sig stop levels (.expression e) ls (.symbol .closing :: lrest)) :
    IsRead sig stop (levels + 1) (.primary e) (.symbol .opening :: ls) lrest := by
  intro tokens htok
  obtain ⟨t, tokens, rfl, ht, htok⟩ := lexemes_eq_cons htok
  obtain ⟨rest, hrest, h⟩ := h tokens htok
  obtain ⟨c, rest, rfl, hc, hrest⟩ := lexemes_eq_cons hrest
  refine ⟨rest, hrest, ?_⟩
  simp only [Accepts, operandReader]
  rw [unary_of_not_sign (by rw [ht]; rfl)]
  simp only [primary, ht, nested]
  exact h.untilClosing hc

/-! ### Calls -/

/-- And so does a call, whether its arguments stand in parentheses or not. -/
theorem call_arguments (hvar : ∀ v, Variable.name v ≠ name) (harity : es.length ∈ sig.arities name)
    (h : IsRead sig stop levels (.arguments es) ls lrest) :
    IsRead sig stop (levels + 1) (.call (.call name es))
      (.name name.toList :: .symbol .opening :: ls) lrest := by
  intro tokens htok
  obtain ⟨t, tokens, rfl, ht, htok⟩ := lexemes_eq_cons htok
  obtain ⟨s, tokens, rfl, hs, htok⟩ := lexemes_eq_cons htok
  obtain ⟨rest, hrest, h⟩ := h tokens htok
  refine ⟨rest, hrest, ?_⟩
  simp only [Accepts, operandReader]
  rw [unary_name ht hvar]
  exact callOf_eq_ok ((application_opening hs).trans (h s)) harity

/-- The rule `call := name unary`, which takes a level away. -/
theorem call_unary {l : Lexeme} (hvar : ∀ v, Variable.name v ≠ name)
    (hcallable : ∃ n ∈ sig.arities name, 0 < n) (hnext : l.startsArgument)
    (harity : 1 ∈ sig.arities name) (h : IsRead sig stop levels (.unary e) (l :: ls) lrest) :
    IsRead sig stop (levels + 1) (.call (.call name [e])) (.name name.toList :: l :: ls) lrest := by
  intro tokens htok
  obtain ⟨t, tokens, rfl, ht, htok⟩ := lexemes_eq_cons htok
  obtain ⟨rest, hrest, h⟩ := h tokens htok
  obtain ⟨s, tokens, rfl, hs, htok⟩ := lexemes_eq_cons htok
  refine ⟨rest, hrest, ?_⟩
  simp only [Accepts, operandReader]
  rw [unary_name ht hvar]
  exact callOf_eq_ok (application_operand hcallable (by rw [hs]; exact hnext) h) harity

/-- The rule `call := name`, where neither of the other two applies. -/
theorem call_constant (hvar : ∀ v, Variable.name v ≠ name)
    (hparen : lrest.head? ≠ some (.symbol .opening))
    (hnext : (∃ n ∈ sig.arities name, 0 < n) → ∀ l, lrest.head? = some l → ¬ l.startsArgument)
    (harity : 0 ∈ sig.arities name) :
    IsRead sig stop levels (.call (.call name [])) (.name name.toList :: lrest) lrest := by
  intro tokens htok
  obtain ⟨t, rest, rfl, ht, rfl⟩ := lexemes_eq_cons htok
  obtain ⟨deeper, heq⟩ := operandReader_eq_unary sig stop levels
  refine ⟨rest, rfl, ?_⟩
  simp only [Accepts, heq]
  rw [unary_name ht hvar]
  exact callOf_eq_ok (application_constant hparen hnext harity) harity

/-! ### Arguments -/

/-- The rule `arguments := ")"`. -/
theorem arguments_none (lrest : List Lexeme) :
    IsRead sig stop levels (.arguments []) (.symbol .closing :: lrest) lrest := by
  intro tokens htok
  obtain ⟨t, rest, rfl, ht, hrest⟩ := lexemes_eq_cons htok
  exact ⟨rest, hrest, fun start => by simp only [arguments, ht, if_true]⟩

/-- A row of arguments that starts with a closing parenthesis would be taken for an empty one. -/
theorem arguments_list (hfirst : ls.head? ≠ some (.symbol .closing))
    (h : IsRead sig stop levels (.list es) ls (.symbol .closing :: lrest)) :
    IsRead sig stop levels (.arguments es) ls lrest := by
  intro tokens htok
  obtain ⟨rest, hrest, hlist⟩ := h tokens htok
  obtain ⟨c, rest, rfl, hc, hrest⟩ := lexemes_eq_cons hrest
  refine ⟨rest, hrest, fun start => arguments_of_list ?_ (fun n hn => ?_)⟩
  · rintro t ts rfl ht
    refine hfirst ?_
    rw [← htok, Token.lexemes_cons, ht]
    rfl
  · exact hlist start n c rest hn rfl hc

/-- The rule `list := expression`. -/
theorem list_one (h : IsRead sig stop levels (.expression e) ls lrest) :
    IsRead sig stop levels (.list [e]) ls lrest := by
  intro tokens htok
  obtain ⟨rest, hrest, h⟩ := h tokens htok
  refine ⟨rest, hrest, fun start n t rest' _ hrest' ht => ?_⟩
  subst hrest'
  exact argumentsFrom_last h ht

/-- An argument has at least one token, so that one round less of the loop is enough for those
    behind it. -/
theorem list_cons (h : IsRead sig stop levels (.expression e) ls (.symbol .comma :: lmid))
    (hs : IsRead sig stop levels (.list es) lmid lrest) (hlen : lmid.length + 1 < ls.length)
    (hlen' : lrest.length < lmid.length) : IsRead sig stop levels (.list (e :: es)) ls lrest := by
  intro tokens htok
  obtain ⟨mid, hmid, he⟩ := h tokens htok
  obtain ⟨c, mid, rfl, hc, rfl⟩ := lexemes_eq_cons hmid
  obtain ⟨rest, hrest, hes⟩ := hs mid rfl
  rw [← htok, Token.length_lexemes, Token.length_lexemes] at hlen
  rw [Token.length_lexemes] at hlen'
  refine ⟨rest, hrest, fun start n t rest' hn hrest' ht => ?_⟩
  obtain ⟨k, rfl⟩ : ∃ k, n = k + 1 := ⟨n - 1, by omega⟩
  exact argumentsFrom_cons he hc (hes start k t rest' (by omega) hrest' ht)

end IsRead

/-- What the grammar derives within a number of levels is read with that number of levels left. -/
theorem accepts_of_derives {phrase : Phrase} {d : Nat} {ls lrest : List Lexeme}
    (h : Derives sig phrase d ls lrest) (stop : Nat) :
    ∀ levels, d ≤ levels → IsRead sig stop levels phrase ls lrest := by
  -- the levels are those left at the phrase, and each rule that nests takes one of them away
  have hdeeper {d levels : Nat} (hd : d + 1 ≤ levels) : ∃ k, levels = k + 1 ∧ d ≤ k :=
    ⟨levels - 1, by omega, by omega⟩
  induction h with
  | expression_term _ ih => exact fun levels hd => (ih levels hd).expression_term
  | expression_binary hop _ hr ihl ihr =>
    intro levels hd
    have hl := ihl levels (by omega)
    exact hl.expression_binary hop (ihr levels (by omega)) hr.length_lt
  | term_unary _ ih => exact fun levels hd => (ih levels hd).term_unary
  | term_binary hop _ hr ihl ihr =>
    intro levels hd
    have hl := ihl levels (by omega)
    exact hl.term_binary hop (ihr levels (by omega)) hr.length_lt
  | unary_signed _ ih =>
    intro levels hd
    obtain ⟨k, rfl, hk⟩ := hdeeper hd
    exact (ih k hk).unary_signed
  | unary_primary _ ih => exact ih
  | primary_number => exact fun levels _ => .primary_number _ _
  | primary_variable hnext => exact fun levels _ => .primary_variable hnext
  | primary_group _ ih =>
    intro levels hd
    obtain ⟨k, rfl, hk⟩ := hdeeper hd
    exact (ih k hk).primary_group
  | primary_call _ ih => exact ih
  | call_arguments hvar harity _ ih =>
    intro levels hd
    obtain ⟨k, rfl, hk⟩ := hdeeper hd
    exact (ih k hk).call_arguments hvar harity
  | call_unary hvar hcallable hnext harity _ ih =>
    intro levels hd
    obtain ⟨k, rfl, hk⟩ := hdeeper hd
    exact (ih k hk).call_unary hvar hcallable hnext harity
  | call_constant hvar hparen hnext harity =>
    exact fun levels _ => .call_constant hvar hparen hnext harity
  | arguments_none => exact fun levels _ => .arguments_none _
  | arguments_list h ih =>
    exact fun levels hd => (ih levels hd).arguments_list (first_ne_closing h (by simp))
  | list_one _ ih => exact fun levels hd => (ih levels hd).list_one
  | list_cons h hs ih ihs =>
    intro levels hd
    have he := ih levels (by omega)
    exact he.list_cons (ihs levels (by omega)) h.length_lt hs.length_lt

end Expr

end DirectionField
