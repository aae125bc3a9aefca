import DirectionField.Proofs.Declarations
import DirectionField.Proofs.ErrorPosition
import DirectionField.Vocabulary.Standard

/-!
# What reading depends on

The grammar asks for the overloads of a name when it meets the name among the tokens, and of no other. So
two signatures that agree on the names of a row of tokens lead every reader through the row alike
(`Reader.Alike`): from each place to the same phrase and the same rest, or to the same error. One lemma
for each rule of the grammar keeps this, and texts are read alike in the end
(`Expr.parse_depends_on_overloads`).
-/

namespace DirectionField

/-! ## Names -/

/-- The name that a lexeme is. -/
def Lexeme.name? : Lexeme → Option String
  | .name cs => some (String.ofList cs)
  | _ => none

/-- The names among the tokens of a row. -/
def Token.names (tokens : List Token) : List String := (lexemes tokens).filterMap Lexeme.name?

/-- The two signatures give each of the names the same overloads. -/
def Signature.AgreeOn (sig sig' : Signature) (names : List String) : Prop :=
  ∀ name ∈ names, sig.arities name = sig'.arities name

/-! ## Readers -/

/-- Wherever they start in the row of tokens, the two readers read the same, and go on in the row or
    fail at one of its places. -/
structure Reader.Alike {α : Type} (sig : Signature) (stop : Nat) (whole : List Token) (read read' : Reader α) :
    Prop where
  isSafe : read.IsSafe sig stop whole
  eq_of_suffix : ∀ tokens, tokens <:+ whole → read tokens = read' tokens

variable {sig : Signature} {stop : Nat} {whole : List Token}

/-- A phrase is read alike if its first part is, and what comes behind it. -/
theorem Reader.Alike.bind {α β : Type} {read read' : Reader α} (h : Alike sig stop whole read read')
    {next next' : α × List Token → Except EquationError (β × List Token)}
    (hnext : ∀ a rest, rest <:+ whole → next (a, rest) = next' (a, rest)) {tokens : List Token}
    (htokens : tokens <:+ whole) : (read tokens >>= next) = (read' tokens >>= next') := by
  have hsafe := h.isSafe tokens htokens
  rw [← h.eq_of_suffix tokens htokens]
  cases hread : read tokens with
  | error e => rfl
  | ok p =>
    -- what the first part leaves is again an end of the row
    rw [hread] at hsafe
    exact hnext p.1 p.2 (List.IsSuffix.trans hsafe htokens)

/-- A phrase that is made of another one is read alike if that one is. -/
theorem Reader.Alike.map {α β : Type} {read read' : Reader α} (h : Alike sig stop whole read read')
    (f : α → β) :
    Alike sig stop whole (fun tokens => do let (a, rest) ← read tokens; return (f a, rest))
      (fun tokens => do let (a, rest) ← read' tokens; return (f a, rest)) where
  isSafe tokens htokens := (h.isSafe tokens htokens).map f
  eq_of_suffix _ htokens := h.bind (fun _ _ _ => rfl) htokens

/-- Readers that are alike are safe, one level deeper as well. -/
theorem forall_isSafe_of_alike {α : Type} {deeper deeper' : Option (Reader α)}
    (h : Option.Rel (Reader.Alike sig stop whole) deeper deeper') :
    ∀ reader ∈ deeper, reader.IsSafe sig stop whole := by
  intro reader hreader
  cases h with
  | none => cases hreader
  | some halike =>
    cases hreader
    exact halike.isSafe

namespace Expr

variable {operand operand' : Reader Expr}

/-! ### Operators -/

/-- Chains are alike if their operands are. -/
theorem chainFrom_alike (op? : Lexeme → Option BinaryOp) (h : Reader.Alike sig stop whole operand operand')
    (n : Nat) (e : Expr) :
    Reader.Alike sig stop whole (chainFrom op? operand n e) (chainFrom op? operand' n e) := by
  refine ⟨chainFrom_isSafe h.isSafe n e, ?_⟩
  induction n generalizing e with
  | zero => intro tokens _; rfl
  | succ n ih =>
    intro tokens htokens
    cases tokens with
    | nil => rfl
    | cons t tokens =>
      rw [chainFrom, chainFrom]
      cases op? t.lexeme with
      | none => rfl
      | some op =>
        exact h.bind (fun e' rest hrest => ih _ rest hrest) ((List.suffix_cons t tokens).trans htokens)

/-- Chains are alike if their operands are. -/
theorem chain_alike (op? : Lexeme → Option BinaryOp) (h : Reader.Alike sig stop whole operand operand') :
    Reader.Alike sig stop whole (chain op? operand) (chain op? operand') where
  isSafe := chain_isSafe op? h.isSafe
  eq_of_suffix _ htokens :=
    h.bind (fun e rest hrest => (chainFrom_alike op? h rest.length e).eq_of_suffix rest hrest) htokens

/-- Expressions are chains of chains. -/
theorem expression_alike (h : Reader.Alike sig stop whole operand operand') :
    Reader.Alike sig stop whole (expression operand) (expression operand') :=
  chain_alike _ (chain_alike _ h)

/-! ### Parentheses and arguments -/

variable {start : Token}

/-- Up to a closing parenthesis, phrases are alike if their operands are. -/
theorem untilClosing_alike (hstart : start ∈ whole) (h : Reader.Alike sig stop whole operand operand') :
    Reader.Alike sig stop whole (untilClosing stop start operand) (untilClosing stop start operand') where
  isSafe := untilClosing_isSafe hstart h.isSafe
  eq_of_suffix _ htokens := (expression_alike h).bind (fun _ _ _ => rfl) htokens

/-- Lists of arguments are alike if their operands are. -/
theorem argumentsFrom_alike (hstart : start ∈ whole) (h : Reader.Alike sig stop whole operand operand')
    (n : Nat) :
    Reader.Alike sig stop whole (argumentsFrom stop start operand n)
      (argumentsFrom stop start operand' n) := by
  refine ⟨argumentsFrom_isSafe hstart h.isSafe n, ?_⟩
  induction n with
  | zero => exact ((untilClosing_alike hstart h).map fun e => [e]).eq_of_suffix
  | succ n ih =>
    intro tokens htokens
    refine (expression_alike h).bind (fun e rest hrest => ?_) htokens
    cases rest with
    | nil => rfl
    | cons t rest =>
      dsimp only
      rw [ih rest ((List.suffix_cons t rest).trans hrest)]

/-- Argument lists are alike if their operands are. -/
theorem arguments_alike (hstart : start ∈ whole) (h : Reader.Alike sig stop whole operand operand') :
    Reader.Alike sig stop whole (arguments stop start operand) (arguments stop start operand') := by
  refine ⟨arguments_isSafe hstart h.isSafe, ?_⟩
  intro tokens htokens
  cases tokens with
  | nil => exact (argumentsFrom_alike hstart h 0).eq_of_suffix [] htokens
  | cons t tokens =>
    rw [arguments, arguments, (argumentsFrom_alike hstart h _).eq_of_suffix _ htokens]

/-! ### Operands -/

variable {sig' : Signature} {deeper deeper' : Option (Reader Expr)} {t : Token}

/-- Nested phrases are alike if they are alike one level deeper. -/
theorem nested_alike {α β : Type} {deeper deeper' : Option (Reader α)}
    {phrase : Reader α → Reader β} (ht : t ∈ whole)
    (hdeeper : Option.Rel (Reader.Alike sig stop whole) deeper deeper')
    (hphrase : ∀ read read', Reader.Alike sig stop whole read read' →
      Reader.Alike sig stop whole (phrase read) (phrase read')) :
    Reader.Alike sig stop whole (nested deeper t phrase) (nested deeper' t phrase) := by
  cases hdeeper with
  | none =>
    -- without a level left, both fail at the token before they read on
    refine ⟨nested_isSafe ht nofun fun read h => ?_, fun _ _ => rfl⟩
    exact (hphrase read read ⟨h, fun _ _ => rfl⟩).isSafe
  | some halike => exact hphrase _ _ halike

variable (hdeeper : Option.Rel (Reader.Alike sig stop whole) deeper deeper')

include hdeeper

/-- What a name is applied to depends on the overloads of that name only. -/
theorem application_alike (ht : t ∈ whole) {name : String}
    (hname : sig.arities name = sig'.arities name) :
    Reader.Alike sig stop whole (application sig stop deeper t name)
      (application sig' stop deeper' t name) := by
  refine ⟨application_isSafe (forall_isSafe_of_alike hdeeper) ht name, ?_⟩
  intro tokens htokens
  -- which rule applies is decided by these two answers and the next token
  have hcallable : sig.isCallable name = sig'.isCallable name := by
    simp only [Signature.isCallable, hname]
  have haccepts : sig.accepts name 0 = sig'.accepts name 0 := by
    simp only [Signature.accepts, hname]
  cases tokens with
  | nil => simp only [application, haccepts]
  | cons start rest =>
    have hstart : start ∈ whole := htokens.subset List.mem_cons_self
    have hrest : rest <:+ whole := (List.suffix_cons start rest).trans htokens
    have harguments := (nested_alike ht hdeeper fun _ _ h => arguments_alike hstart h).eq_of_suffix
      rest hrest
    have hjuxtaposed := (nested_alike ht hdeeper fun _ _ h => h.map fun e => [e]).eq_of_suffix
      (start :: rest) htokens
    simp only [application, hcallable, haccepts, harguments, hjuxtaposed]

/-- And so does what a call of it comes to. -/
theorem callOf_alike (ht : t ∈ whole) {name : String} (htext : t.lexeme = .name name.toList)
    (hname : sig.arities name = sig'.arities name) :
    Reader.Alike sig stop whole (callOf sig stop deeper t name) (callOf sig' stop deeper' t name) := by
  refine ⟨callOf_isSafe (forall_isSafe_of_alike hdeeper) ht htext, ?_⟩
  intro tokens htokens
  have hknows : sig.knows name = sig'.knows name := by
    simp only [Signature.knows, hname]
  have haccepts (n : Nat) : sig.accepts name n = sig'.accepts name n := by
    simp only [Signature.accepts, hname]
  unfold callOf
  rw [hknows]
  split
  · apply (application_alike hdeeper ht hname).bind _ htokens
    intro args rest _
    dsimp only
    -- the message about a wrong number of arguments quotes the overloads
    rw [haccepts, hname]
  · rfl

/-- Variables depend on no overloads at all. -/
theorem named_alike (ht : t ∈ whole) {name : String} (htext : t.lexeme = .name name.toList)
    (hname : sig.arities name = sig'.arities name) :
    Reader.Alike sig stop whole (named sig stop deeper t name) (named sig' stop deeper' t name) := by
  refine ⟨named_isSafe (forall_isSafe_of_alike hdeeper) ht htext, ?_⟩
  intro tokens htokens
  unfold named
  rw [(callOf_alike hdeeper ht htext hname).eq_of_suffix tokens htokens]

variable (hsig : sig.AgreeOn sig' (Token.names whole))

include hsig

/-- A primary depends on the overloads of the names in it. -/
theorem primary_alike :
    Reader.Alike sig stop whole (primary sig stop deeper) (primary sig' stop deeper') := by
  refine ⟨primary_isSafe (forall_isSafe_of_alike hdeeper), ?_⟩
  intro tokens htokens
  cases tokens with
  | nil => rfl
  | cons t tokens =>
    have ht : t ∈ whole := htokens.subset List.mem_cons_self
    have hrest : tokens <:+ whole := (List.suffix_cons t tokens).trans htokens
    obtain ⟨lexeme, pos⟩ := t
    rw [primary, primary]
    cases lexeme with
    | number n => rfl
    | name cs =>
      -- the only place where the signatures are asked, for a name of the row
      have hname : sig.arities (String.ofList cs) = sig'.arities (String.ofList cs) := by
        apply hsig
        exact List.mem_filterMap.2 ⟨.name cs, List.mem_map_of_mem ht, rfl⟩
      have htext : Lexeme.name cs = .name (String.ofList cs).toList := by rw [String.toList_ofList]
      exact (named_alike hdeeper ht htext hname).eq_of_suffix tokens hrest
    | symbol s =>
      cases s with
      | opening =>
        have hgroup := nested_alike ht hdeeper fun _ _ h => untilClosing_alike ht h
        exact hgroup.eq_of_suffix tokens hrest
      | _ => rfl

/-- And so does an operand. -/
theorem unary_alike : Reader.Alike sig stop whole (unary sig stop deeper) (unary sig' stop deeper') := by
  refine ⟨unary_isSafe (forall_isSafe_of_alike hdeeper), ?_⟩
  intro tokens htokens
  have hprimary := (primary_alike hdeeper hsig).eq_of_suffix
  cases tokens with
  | nil => exact hprimary [] htokens
  | cons t tokens =>
    have ht : t ∈ whole := htokens.subset List.mem_cons_self
    rw [unary, unary]
    cases Sign.ofLexeme? t.lexeme with
    | some s =>
      have hsigned := nested_alike ht hdeeper fun _ _ h => h.map (Expr.signed s)
      exact hsigned.eq_of_suffix tokens ((List.suffix_cons t tokens).trans htokens)
    | none => exact hprimary _ htokens

omit hdeeper

/-- On every level, operands are alike. -/
theorem operandReader_alike (levels : Nat) :
    Reader.Alike sig stop whole (operandReader sig stop levels) (operandReader sig' stop levels) := by
  induction levels with
  | zero => exact unary_alike .none hsig
  | succ levels ih => exact unary_alike (.some ih) hsig

omit hsig

/-! ## Whole equations -/

/-- A row of tokens is read alike by signatures that agree on its names. -/
theorem ofTokens_eq_of_agreeOn {tokens : List Token} (hsig : sig.AgreeOn sig' (Token.names tokens)) :
    ofTokens sig stop tokens = ofTokens sig' stop tokens := by
  have hread : expression (operandReader sig stop nestingLimit) tokens =
      expression (operandReader sig' stop nestingLimit) tokens :=
    (expression_alike (operandReader_alike hsig nestingLimit)).eq_of_suffix tokens
      (List.suffix_refl tokens)
  unfold ofTokens
  rw [hread]

/-- The names among the tokens of a text, if it has tokens. -/
def mentioned (text : String) : List String :=
  match Token.scan text with
  | .ok tokens => Token.names tokens
  | .error _ => []

/-- A text is read alike by two signatures that agree on the names in it. -/
theorem parse_eq_of_agreeOn {text : String} (hsig : sig.AgreeOn sig' (mentioned text)) :
    parse sig text = parse sig' text := by
  unfold parse
  unfold mentioned at hsig
  cases hscan : Token.scan text with
  | error e => simp only [bind, Except.bind]
  | ok tokens =>
    rw [hscan] at hsig
    simp only [bind, Except.bind, ofTokens_eq_of_agreeOn hsig]

/-- What a text is read as, or why it is refused and where, depends on the overloads of the names in
    it alone. A vocabulary answers every question of the grammar by the overloads of a name. Two
    vocabularies in which the names of the text take the same numbers of arguments give the same
    expression or the same error. So it makes no difference in which order declarations stand, nor
    that there are others for names that are not in the text. -/
theorem parse_depends_on_overloads (text : String) :
    (∀ (α : Type) (v : Vocabulary α) (name : String),
      (v.signature.knows name = true ↔ name ∈ v.names) ∧
      (v.signature.isCallable name = true ↔ ∃ n, 0 < n ∧ (v.resolve? name n).isSome) ∧
      (∀ n, v.signature.accepts name n = (v.resolve? name n).isSome) ∧
      (∀ n, n ∈ v.signature.arities name ↔ (v.resolve? name n).isSome) ∧
      (v.signature.arities name).Pairwise (· < ·)) ∧
    (∀ (α β : Type) (v : Vocabulary α) (w : Vocabulary β),
      (∀ name ∈ mentioned text, v.arities name = w.arities name) →
      parse v.signature text = parse w.signature text) ∧
    ∀ (α : Type) (ds ds' : List (Declaration α)) (v : Vocabulary α),
      Vocabulary.ofDeclarations ds = .ok v → ds'.Subperm ds →
      (∀ d ∈ ds, d.name ∈ mentioned text → d ∈ ds') →
      ∃ w, Vocabulary.ofDeclarations ds' = .ok w ∧ parse v.signature text = parse w.signature text := by
  refine ⟨fun α v name => ⟨v.knows_iff name, v.isCallable_iff name, v.accepts_eq name,
    v.mem_arities_iff_resolve? name, v.arities_pairwise_lt name⟩,
    fun α β v w h => parse_eq_of_agreeOn h, ?_⟩
  intro α ds ds' v hv hsub hmentioned
  -- fewer declarations, in any order, are accepted, and names keep their overloads if none of these
  -- is left out
  obtain ⟨w, hw, harities⟩ := Vocabulary.exists_ofDeclarations_of_subperm hv hsub
  refine ⟨w, hw, parse_eq_of_agreeOn fun name hname => ?_⟩
  apply harities
  rintro d hd rfl
  exact hmentioned d hd hname

/-- A call of a logarithm with three arguments is refused with the same numbers by the standard
    vocabulary, by its logarithms alone, and by its logarithms in the other order with a function of
    three arguments between them. -/
theorem parse_depends_on_overloads_log :
    let text := "log(x, x, x)"
    let ds : List (Declaration Unit) := [⟨"log", 2, (), ""⟩, ⟨"f", 3, (), ""⟩, ⟨"log", 1, (), ""⟩]
    let ds' : List (Declaration Unit) := [⟨"log", 1, (), ""⟩, ⟨"log", 2, (), ""⟩]
    ∃ v w, Vocabulary.ofDeclarations ds = .ok v ∧ Vocabulary.ofDeclarations ds' = .ok w ∧
      parse (Vocabulary.standard .native).signature text = parse v.signature text ∧
      parse v.signature text = parse w.signature text ∧
      parse v.signature text = .error ⟨.argumentCount "log" [1, 2] 3, some 0⟩ := by
  intro text ds ds'
  have hmentioned : mentioned text = ["log", "x", "x", "x"] := by decide +kernel
  obtain ⟨v, hv, hentries⟩ : ∃ v, Vocabulary.ofDeclarations ds = .ok v ∧
      v.entries = ds.map Declaration.entry :=
    ⟨⟨ds.map Declaration.entry, by decide⟩,
      Vocabulary.ofDeclarations_eq_ok_iff.2 ⟨by decide, rfl⟩, rfl⟩
  have hsub : ds'.Subperm ds :=
    ⟨[⟨"log", 2, (), ""⟩, ⟨"log", 1, (), ""⟩], .swap _ _ _, .cons_cons _ (.cons _ (.refl _))⟩
  -- the overloads in ascending order
  let sig : Signature := ⟨fun name => if name = "log" then [1, 2] else []⟩
  have hmem {name : String} (hname : name ∈ mentioned text) : name = "log" ∨ name = "x" := by
    rw [hmentioned] at hname
    simpa using hname
  have hsig {β : Type} (u : Vocabulary β) (hlog : ∀ n, n ∈ u.arities "log" ↔ n = 1 ∨ n = 2)
      (hx : ∀ n, n ∉ u.arities "x") : u.signature.AgreeOn sig (mentioned text) := by
    intro name hname
    rcases hmem hname with rfl | rfl
    · exact (u.arities_pairwise_lt _).eq_of_mem_iff (by decide) (by simp [hlog, sig])
    · exact List.eq_nil_iff_forall_not_mem.2 hx
  have hstandard : (Vocabulary.standard .native).signature.AgreeOn sig (mentioned text) := by
    apply hsig
    · simp [Vocabulary.mem_arities_iff, Vocabulary.standard, Vocabulary.standardEntries,
        Vocabulary.standardDeclarations]
      omega
    · simp [Vocabulary.mem_arities_iff, Vocabulary.standard, Vocabulary.standardEntries,
        Vocabulary.standardDeclarations]
  have hv' : v.signature.AgreeOn sig (mentioned text) := by
    apply hsig
    · simp [Vocabulary.mem_arities_iff, hentries, ds, Declaration.entry]
      omega
    · simp [Vocabulary.mem_arities_iff, hentries, ds, Declaration.entry]
  have hrefused : (parse sig text).map (fun _ => ()) =
      .error ⟨.argumentCount "log" [1, 2] 3, some 0⟩ := by
    decide +kernel
  obtain ⟨_, hagree, hdeclared⟩ := parse_depends_on_overloads text
  obtain ⟨w, hw, hsame⟩ := hdeclared Unit ds ds' v hv hsub fun d hd hname => by
    simp only [ds, List.mem_cons, List.not_mem_nil, or_false] at hd
    rcases hd with rfl | rfl | rfl
    · simp [ds']
    · exact absurd (hmem hname) (by decide)
    · simp [ds']
  have hboth : parse (Vocabulary.standard .native).signature text = parse v.signature text :=
    hagree _ _ _ v fun name hname => (hstandard name hname).trans (hv' name hname).symm
  refine ⟨v, w, hv, hw, hboth, hsame, ?_⟩
  rw [parse_eq_of_agreeOn hv']
  cases h : parse sig text with
  | error e =>
    rw [h] at hrefused
    exact congrArg Except.error (Except.error.inj hrefused)
  | ok e => rw [h] at hrefused; cases hrefused

end Expr

end DirectionField
