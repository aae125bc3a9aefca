import DirectionField.Proofs.GrammarComplete
import DirectionField.Proofs.NumeralReading
import DirectionField.Proofs.ScanExtent
import DirectionField.Proofs.Wording

/-!
# Where an error is found

A reader of tokens goes on from an end of the row of tokens to a later end, or it fails at one of the
tokens or at the end of the text (`Reader.IsSafe`). Each rule of the grammar keeps this, so that every
error of an equation points into its text (`Expr.read_error_position`). There is one case in which no
error is reported: it takes an integer that is too long to be written (`Expr.Unreportable`).
-/

namespace DirectionField

namespace EquationError

/-- A cause that is found at a token. The number of arguments of a call is found wrong at the name,
    and is then none of those that the name takes. -/
def Cause.FoundAt (sig : Signature) (t : Token) : Cause → Prop
  | .argumentCount name accepted given =>
    t.lexeme = .name name.toList ∧ accepted = sig.arities name ∧ given ∉ accepted
  | .empty | .unexpectedEnd | .cannotBeEvaluated _ | .notReal => False
  | _ => True

/-- The error is found at one of the tokens, or the equation ends too early. -/
def PointsInto (sig : Signature) (stop : Nat) (tokens : List Token) (e : EquationError) : Prop :=
  (e.cause = .unexpectedEnd ∧ e.position = some stop) ∨
    ∃ t ∈ tokens, e.cause.FoundAt sig t ∧ e.position = some t.pos

/-- An unexpected token is one of the tokens. -/
theorem unexpectedAt_pointsInto {sig : Signature} {stop : Nat} {tokens whole : List Token}
    (expected : Expected) (h : tokens <:+ whole) :
    (unexpectedAt stop expected tokens).PointsInto sig stop whole := by
  cases tokens with
  | nil => exact .inl ⟨rfl, rfl⟩
  | cons t ts =>
    have ht : t ∈ whole := h.subset List.mem_cons_self
    rw [unexpectedAt]
    split
    · exact .inr ⟨t, ht, trivial, rfl⟩
    · exact .inr ⟨t, ht, trivial, rfl⟩

end EquationError

/-! ## Readers -/

/-- What comes of reading a phrase at the front of `tokens`, an end of the whole row. -/
def Reader.Outcome {α : Type} (sig : Signature) (stop : Nat) (whole tokens : List Token) :
    Except EquationError (α × List Token) → Prop
  | .ok (_, rest) => rest <:+ tokens
  | .error e => e.PointsInto sig stop whole

/-- Wherever the reader starts in the row of tokens, it leaves an end of what is in front of it, or
    it fails at a place of the row. -/
def Reader.IsSafe {α : Type} (sig : Signature) (stop : Nat) (whole : List Token) (read : Reader α) :
    Prop :=
  ∀ tokens, tokens <:+ whole → Outcome sig stop whole tokens (read tokens)

variable {sig : Signature} {stop : Nat} {whole : List Token}

/-- What is in front of a reader that was started later was in front of it earlier. -/
theorem Reader.Outcome.mono {α : Type} {tokens tokens' : List Token}
    {outcome : Except EquationError (α × List Token)} (h : Outcome sig stop whole tokens outcome)
    (hsuffix : tokens <:+ tokens') : Outcome sig stop whole tokens' outcome := by
  cases outcome with
  | error e => exact h
  | ok p => exact List.IsSuffix.trans h hsuffix

/-- A phrase goes on where its first part ends. -/
theorem Reader.Outcome.bind {α β : Type} {tokens : List Token}
    {outcome : Except EquationError (α × List Token)}
    {next : α × List Token → Except EquationError (β × List Token)}
    (h : Outcome sig stop whole tokens outcome)
    (hnext : ∀ a rest, rest <:+ tokens → Outcome sig stop whole rest (next (a, rest))) :
    Outcome sig stop whole tokens (outcome >>= next) := by
  cases outcome with
  | error e => exact h
  | ok p => exact (hnext p.1 p.2 h).mono h

/-- A phrase that is made of another one. -/
theorem Reader.Outcome.map {α β : Type} {tokens : List Token}
    {outcome : Except EquationError (α × List Token)} (h : Outcome sig stop whole tokens outcome)
    (f : α → β) :
    Outcome sig stop whole tokens (do let (a, rest) ← outcome; return (f a, rest)) :=
  h.bind fun _ rest _ => List.suffix_refl rest

namespace Expr

/-- An error at a remembered token. -/
theorem outcome_error {α : Type} {tokens : List Token} {t : Token} (ht : t ∈ whole)
    {cause : EquationError.Cause} (hcause : cause.FoundAt sig t) :
    Reader.Outcome (α := α) sig stop whole tokens (.error ⟨cause, some t.pos⟩) :=
  .inr ⟨t, ht, hcause, rfl⟩

variable {operand : Reader Expr}

/-! ### Operators -/

/-- Going round once more uses up an operator and leaves an end of the row. -/
theorem chainFrom_isSafe {op? : Lexeme → Option BinaryOp} (h : operand.IsSafe sig stop whole) (n : Nat)
    (e : Expr) : Reader.IsSafe sig stop whole (chainFrom op? operand n e) := by
  -- by the bound of the loop, for any expression that has been read so far
  induction n generalizing e with
  | zero => exact fun tokens _ => List.suffix_refl tokens
  | succ n ih =>
    intro tokens htokens
    cases tokens with
    | nil => exact List.suffix_refl []
    | cons t tokens =>
      have hcons := List.suffix_cons t tokens
      rw [chainFrom]
      cases op? t.lexeme with
      | none => exact List.suffix_refl _
      | some op =>
        refine ((h tokens (hcons.trans htokens)).bind fun e' rest hrest => ?_).mono hcons
        exact ih _ rest (hrest.trans (hcons.trans htokens))

/-- A chain fails where one of its operands does. -/
theorem chain_isSafe (op? : Lexeme → Option BinaryOp) (h : operand.IsSafe sig stop whole) :
    Reader.IsSafe sig stop whole (chain op? operand) := fun tokens htokens =>
  (h tokens htokens).bind fun e rest hrest =>
    chainFrom_isSafe h rest.length e rest (hrest.trans htokens)

/-- Expressions and terms are chains. -/
theorem expression_isSafe (h : operand.IsSafe sig stop whole) :
    Reader.IsSafe sig stop whole (expression operand) :=
  chain_isSafe _ (chain_isSafe _ h)

/-! ### Parentheses and arguments -/

/-- Without its closing parenthesis, a phrase is wrong at the opening one or at what stands there
    instead. -/
theorem untilClosing_isSafe {start : Token} (hstart : start ∈ whole) (h : operand.IsSafe sig stop whole) :
    Reader.IsSafe sig stop whole (untilClosing stop start operand) := by
  intro tokens htokens
  refine (expression_isSafe h tokens htokens).bind fun e rest hrest => ?_
  cases rest with
  | nil => exact outcome_error hstart trivial
  | cons t rest =>
    dsimp only
    split
    · exact List.suffix_cons t rest
    · exact EquationError.unexpectedAt_pointsInto _ (hrest.trans htokens)

/-- A list of arguments is wrong where one of them is, or where there is neither a comma nor a
    parenthesis. -/
theorem argumentsFrom_isSafe {start : Token} (hstart : start ∈ whole)
    (h : operand.IsSafe sig stop whole) (n : Nat) :
    Reader.IsSafe sig stop whole (argumentsFrom stop start operand n) := by
  induction n with
  | zero => exact fun tokens htokens => (untilClosing_isSafe hstart h tokens htokens).map fun e => [e]
  | succ n ih =>
    intro tokens htokens
    refine (expression_isSafe h tokens htokens).bind fun e rest hrest => ?_
    cases rest with
    | nil => exact outcome_error hstart trivial
    | cons t rest =>
      have hcons := List.suffix_cons t rest
      dsimp only
      split
      · exact ((ih rest (hcons.trans (hrest.trans htokens))).map (e :: ·)).mono hcons
      split
      · exact hcons
      · exact EquationError.unexpectedAt_pointsInto _ (hrest.trans htokens)

/-- An argument list is safe with its operands, the empty one as well. -/
theorem arguments_isSafe {start : Token} (hstart : start ∈ whole) (h : operand.IsSafe sig stop whole) :
    Reader.IsSafe sig stop whole (arguments stop start operand) := by
  intro tokens htokens
  cases tokens with
  | nil => exact argumentsFrom_isSafe hstart h 0 [] htokens
  | cons t tokens =>
    rw [arguments]
    split
    · exact List.suffix_cons t tokens
    · exact argumentsFrom_isSafe hstart h _ _ htokens

/-! ### Operands -/

variable {deeper : Option (Reader Expr)} {t : Token}

/-- What is nested too deeply is wrong at the token that it is nested in. -/
theorem nested_isSafe {α β : Type} {deeper : Option (Reader α)} {phrase : Reader α → Reader β}
    (ht : t ∈ whole) (hdeeper : ∀ reader ∈ deeper, reader.IsSafe sig stop whole)
    (hphrase : ∀ reader, reader.IsSafe sig stop whole → (phrase reader).IsSafe sig stop whole) :
    Reader.IsSafe sig stop whole (nested deeper t phrase) := by
  intro tokens htokens
  cases deeper with
  | none => exact outcome_error ht trivial
  | some reader => exact hphrase reader (hdeeper reader rfl) tokens htokens

variable (hdeeper : ∀ reader ∈ deeper, reader.IsSafe sig stop whole)

include hdeeper

/-- A name without the argument it needs is wrong at the name. -/
theorem application_isSafe (ht : t ∈ whole) (name : String) :
    Reader.IsSafe sig stop whole (application sig stop deeper t name) := by
  intro tokens htokens
  -- neither a list nor an operand follows: the name is a constant, or it needs an argument
  have hend {tokens : List Token} : Reader.Outcome (α := List Expr) sig stop whole tokens
      (if sig.accepts name 0 then .ok ([], tokens) else .error ⟨.needsArgument name, some t.pos⟩) := by
    split
    · exact List.suffix_refl _
    · exact outcome_error ht trivial
  cases tokens with
  | nil => exact hend
  | cons start rest =>
    have hcons := List.suffix_cons start rest
    rw [application]
    dsimp only
    split
    · have hstart : start ∈ whole := htokens.subset List.mem_cons_self
      have harguments := nested_isSafe ht hdeeper fun _ h => arguments_isSafe hstart h
      exact (harguments rest (hcons.trans htokens)).mono hcons
    split
    · exact nested_isSafe ht hdeeper
        (fun _ h tokens htokens => (h tokens htokens).map fun e => [e]) _ htokens
    · exact hend

/-- An unknown name, and one with a wrong number of arguments, is wrong at the name. -/
theorem callOf_isSafe (ht : t ∈ whole) {name : String} (hname : t.lexeme = .name name.toList) :
    Reader.IsSafe sig stop whole (callOf sig stop deeper t name) := by
  intro tokens htokens
  unfold callOf
  split
  · refine (application_isSafe hdeeper ht name tokens htokens).bind fun args rest _ => ?_
    dsimp only
    split
    · exact List.suffix_refl rest
    · next hnot =>
      -- the count that is reported is none of those that the name takes
      have hcount : args.length ∉ sig.arities name := mt (sig.accepts_iff name args.length).2 hnot
      exact outcome_error ht ⟨hname, rfl, hcount⟩
  · exact outcome_error ht trivial

/-- A variable that is called is wrong at its name. -/
theorem named_isSafe (ht : t ∈ whole) {name : String} (hname : t.lexeme = .name name.toList) :
    Reader.IsSafe sig stop whole (named sig stop deeper t name) := by
  intro tokens htokens
  unfold named
  split
  · split
    · exact outcome_error ht trivial
    · exact List.suffix_refl tokens
  · exact callOf_isSafe hdeeper ht hname tokens htokens

/-- Where no primary starts, the token there is unexpected. -/
theorem primary_isSafe : Reader.IsSafe sig stop whole (primary sig stop deeper) := by
  intro tokens htokens
  cases tokens with
  | nil => exact EquationError.unexpectedAt_pointsInto _ htokens
  | cons t tokens =>
    have hcons := List.suffix_cons t tokens
    have ht : t ∈ whole := htokens.subset List.mem_cons_self
    rw [primary]
    split
    · exact hcons
    · next cs hname =>
      rw [← String.toList_ofList (l := cs)] at hname
      exact (named_isSafe hdeeper ht hname tokens (hcons.trans htokens)).mono hcons
    · have hgroup := nested_isSafe ht hdeeper fun _ h => untilClosing_isSafe ht h
      exact (hgroup tokens (hcons.trans htokens)).mono hcons
    · exact EquationError.unexpectedAt_pointsInto _ htokens

/-- An operand is safe with what is nested in it. -/
theorem unary_isSafe : Reader.IsSafe sig stop whole (unary sig stop deeper) := by
  have hprimary : Reader.IsSafe sig stop whole (primary sig stop deeper) := primary_isSafe hdeeper
  intro tokens htokens
  cases tokens with
  | nil => exact hprimary [] htokens
  | cons t tokens =>
    have hcons := List.suffix_cons t tokens
    have ht : t ∈ whole := htokens.subset List.mem_cons_self
    rw [unary]
    cases Sign.ofLexeme? t.lexeme with
    | some s =>
      have hsigned := nested_isSafe ht hdeeper fun _ h tokens htokens =>
        (h tokens htokens).map (Expr.signed s)
      exact (hsigned tokens (hcons.trans htokens)).mono hcons
    | none => exact hprimary _ htokens

omit hdeeper

/-- On every level, operands are safe. -/
theorem operandReader_isSafe (levels : Nat) :
    Reader.IsSafe sig stop whole (operandReader sig stop levels) := by
  -- level by level: below the last one there is no reader
  induction levels with
  | zero => exact unary_isSafe nofun
  | succ levels ih =>
    exact unary_isSafe fun reader hreader => by
      cases hreader
      exact ih

/-! ## Whole equations -/

/-- A row of tokens that is no expression is refused as empty or for one of its tokens or its
    end. -/
theorem pointsInto_of_ofTokens {tokens : List Token} {e : EquationError}
    (h : ofTokens sig stop tokens = .error e) :
    (tokens = [] ∧ e = ⟨.empty, none⟩) ∨ e.PointsInto sig stop tokens := by
  unfold ofTokens at h
  split at h
  · -- the row is too long, which is found at the first token behind the limit
    next t ht =>
    cases h
    exact .inr (.inr ⟨t, List.mem_of_getElem? ht, trivial, rfl⟩)
  split at h
  · next hempty =>
    cases h
    exact .inl ⟨List.isEmpty_iff.1 hempty, rfl⟩
  · -- what is read is an end of the tokens, so that what is left over is one of them
    have hsafe : Reader.IsSafe sig stop tokens (expression (operandReader sig stop nestingLimit)) :=
      expression_isSafe (operandReader_isSafe nestingLimit)
    have houtcome := hsafe tokens (List.suffix_refl tokens)
    cases hread : expression (operandReader sig stop nestingLimit) tokens with
    | error e' =>
      rw [hread] at h houtcome
      cases h
      exact .inr houtcome
    | ok p =>
      obtain ⟨tree, rest⟩ := p
      rw [hread] at h houtcome
      cases rest with
      | nil => cases h
      | cons t rest =>
        have ht : t ∈ tokens := List.IsSuffix.subset houtcome List.mem_cons_self
        change (if t.lexeme = .symbol .closing then _ else _) = Except.error e at h
        split at h
        · cases h
          exact .inr (.inr ⟨t, ht, trivial, rfl⟩)
        · cases h
          exact .inr (EquationError.unexpectedAt_pointsInto _ houtcome)

/-- What reads phrases of the grammar uses up tokens at the front. -/
theorem suffix_of_sound {α : Type} {levels : Nat} {phrase : α → Phrase} {read : Reader α}
    (hsafe : ∀ whole, read.IsSafe sig stop whole) (hsound : SoundReader sig levels phrase read)
    {tokens rest : List Token} {a : α} (h : read tokens = .ok (a, rest)) :
    rest <:+ tokens ∧ rest.length < tokens.length := by
  have houtcome := hsafe tokens tokens (List.suffix_refl tokens)
  rw [h] at houtcome
  obtain ⟨_, _, hderives⟩ := hsound _ _ _ h
  have hlength := hderives.length_lt
  rw [Token.length_lexemes, Token.length_lexemes] at hlength
  exact ⟨houtcome, hlength⟩

end Expr

/-! ## Scanned tokens -/

namespace Token

variable {text : String} {tokens : List Token}

/-- A text that is scanned is blanks and tokens to its end. -/
theorem takes_of_scan (h : scan text = .ok tokens) : Takes 0 text.toList tokens text.length [] :=
  scan_eq_ok_iff.1 h

/-- Blanks hold no token. -/
theorem scanFrom_of_all_isBlank {cs : List Char} (h : cs.all Text.isBlank = true) (pos : Nat) :
    scanFrom pos 0 cs = .ok [] := by
  rw [← List.append_nil cs, scanFrom_blanks h]
  rfl

/-- The token of a numeral is a number to whatever reads numbers. -/
theorem readFloat?_of_scan (h : scan text = .ok tokens) {t : Token} (ht : t ∈ tokens) {n : Numeral}
    (hn : t.lexeme = .number n) : readFloat? t.text = some n.value := by
  obtain ⟨tail, hread⟩ := (takes_of_scan h).exists_read? t ht
  rw [hn] at hread
  rw [Token.text, hn]
  exact Numeral.readFloat?_text (isWritten_of_read? hread)

end Token

namespace Expr

/-- A blank text is refused as empty. -/
theorem parse_of_all_isBlank {sig : Signature} {text : String}
    (h : text.toList.all Text.isBlank = true) : parse sig text = .error ⟨.empty, none⟩ := by
  unfold parse Token.scan
  rw [Token.scanFrom_of_all_isBlank h]
  rfl

/-- A text is refused as empty, for a character that the scanner stops at, or for its tokens. -/
theorem error_of_parse {sig : Signature} {text : String} {e : EquationError}
    (h : parse sig text = .error e) :
    (text.toList.all Text.isBlank = true ∧ e = ⟨.empty, none⟩) ∨
      (∃ tokens p c tail, Token.Takes 0 text.toList tokens p (c :: tail) ∧ Token.Stuck c tail ∧
        e = ⟨.unexpectedCharacter c, some p⟩) ∨
      ∃ tokens, Token.scan text = .ok tokens ∧ e.PointsInto sig text.length tokens := by
  -- the scanner fails, or it gives the tokens that are then refused
  rcases (Except.bind_eq_error_iff ..).1 h with hscan | ⟨tokens, hscan, h⟩
  · exact .inr (.inl (Token.scan_eq_error_iff.1 hscan))
  · rcases pointsInto_of_ofTokens h with ⟨rfl, he⟩ | he
    · exact .inl ⟨(Token.takes_of_scan hscan).all_isBlank, he⟩
    · exact .inr (.inr ⟨tokens, hscan, he⟩)

/-- Every error but that of a blank text has a position: the scanner cannot go on there, or a token
    starts there, or it is the end of the text, which is where and only where the equation ends too
    early. -/
theorem position_of_parse {sig : Signature} {text : String} {e : EquationError}
    (h : parse sig text = .error e) :
    (e.position = none ↔ text.toList.all Text.isBlank = true) ∧
    (e.position = none → e.cause = .empty) ∧
    ∀ p, e.position = some p →
      p ≤ text.length ∧
      ((∃ tokens c tail, Token.Takes 0 text.toList tokens p (c :: tail) ∧ Token.Stuck c tail) ∨
        ∃ tokens, Token.scan text = .ok tokens ∧ ((∃ t ∈ tokens, t.pos = p) ∨ p = text.length)) ∧
      (p = text.length ↔ e.cause = .unexpectedEnd) := by
  have hblank (ht : text.toList.all Text.isBlank = true) : e.position = none := by
    rw [parse_of_all_isBlank ht] at h
    cases h
    rfl
  rcases error_of_parse h with ⟨ht, rfl⟩ | ⟨tokens, p, c, tail, htakes, hstuck, rfl⟩ |
    ⟨tokens, hscan, ⟨hcause, hp⟩ | ⟨t, ht, hfound, hp⟩⟩
  · exact ⟨⟨fun _ => ht, fun _ => rfl⟩, fun _ => rfl, nofun⟩
  · -- the scanner stops in front of a character, hence not at the end
    refine ⟨⟨nofun, hblank⟩, nofun, fun q hq => ?_⟩
    cases hq
    have hlength := htakes.stop_add_length
    rw [List.length_cons, String.length_toList, Nat.zero_add] at hlength
    exact ⟨by omega, .inl ⟨tokens, c, tail, htakes, hstuck⟩, ⟨fun hend => by omega, nofun⟩⟩
  · rw [hp] at hblank ⊢
    refine ⟨⟨nofun, hblank⟩, nofun, fun q hq => ?_⟩
    cases hq
    exact ⟨Nat.le_refl _, .inr ⟨tokens, hscan, .inr rfl⟩, ⟨fun _ => hcause, fun _ => rfl⟩⟩
  · rw [hp] at hblank ⊢
    refine ⟨⟨nofun, hblank⟩, nofun, fun q hq => ?_⟩
    cases hq
    -- a token is not empty, so that it starts in front of the end
    have hbounds := (Token.takes_of_scan hscan).pos_bounds t ht
    refine ⟨Nat.le_of_lt hbounds.2, .inr ⟨tokens, hscan, .inl ⟨t, ht, rfl⟩⟩,
      ⟨fun hend => by omega, fun h => ?_⟩⟩
    rw [h] at hfound
    cases hfound

/-! ## Reports -/

section

variable {sig : Signature} {text : String}

/-- A number of arguments is found wrong at a name of the text, and what is told to be right is what
    the name takes. -/
theorem argumentCount_of_parse {e : EquationError} (h : parse sig text = .error e) {name : String}
    {accepted : List Nat} {given : Nat} (hcause : e.cause = .argumentCount name accepted given) :
    accepted = sig.arities name ∧
      ∃ tokens, Token.scan text = .ok tokens ∧ .name name.toList ∈ Token.lexemes tokens := by
  rcases error_of_parse h with ⟨_, rfl⟩ | ⟨_, _, _, _, _, _, rfl⟩ |
    ⟨tokens, hscan, ⟨hend, _⟩ | ⟨t, ht, hfound, _⟩⟩
  · cases hcause
  · cases hcause
  · rw [hend] at hcause
    cases hcause
  · rw [hcause] at hfound
    obtain ⟨hname, haccepted, _⟩ := hfound
    exact ⟨haccepted, tokens, hscan, hname ▸ List.mem_map_of_mem ht⟩

/-- Nothing is evaluated where a text is parsed. -/
theorem cause_of_parse_ne {e : EquationError} (h : parse sig text = .error e) (fault : Fault) :
    e.cause ≠ .cannotBeEvaluated fault := by
  intro hcause
  rcases error_of_parse h with ⟨_, rfl⟩ | ⟨_, _, _, _, _, _, rfl⟩ |
    ⟨_, _, ⟨hend, _⟩ | ⟨t, _, hfound, _⟩⟩
  · cases hcause
  · cases hcause
  · rw [hend] at hcause
    cases hcause
  · rw [hcause] at hfound
    cases hfound

/-- The text is refused for the number of arguments of a call, and one of the numbers that the name
    takes is too long to be written. -/
def Unreportable (sig : Signature) (text : String) : Prop :=
  ∃ name given position,
    parse sig text = .error ⟨.argumentCount name (sig.arities name) given, position⟩ ∧
      ∃ n ∈ sig.arities name, NumberText.isTooLong (n : Nat) = true

/-- A name that can be called with so many arguments stands in the text. -/
theorem Unreportable.exists_name (h : Unreportable sig text) :
    ∃ tokens name, Token.scan text = .ok tokens ∧ .name name.toList ∈ Token.lexemes tokens ∧
      ∃ n ∈ sig.arities name, NumberText.isTooLong (n : Nat) = true := by
  obtain ⟨name, given, position, h, hlong⟩ := h
  obtain ⟨_, tokens, hscan, hname⟩ := argumentCount_of_parse h rfl
  exact ⟨tokens, name, hscan, hname, hlong⟩

/-- What is wrong with a text can be put into words, unless it is unreportable. -/
theorem message_of_parse {e : EquationError} (h : parse sig text = .error e) :
    (∃ message, e.cause.message = .ok message) ∨
      e.cause.message = .error (.integerTooLong NumberText.digitLimit) ∧ Unreportable sig text := by
  -- every cause is asked for its words, and only the count of a call can fail to have them
  cases hmessage : e.cause.message with
  | ok message => exact .inl ⟨message, rfl⟩
  | error fault =>
    rcases EquationError.Cause.message_eq_error_iff.1 hmessage with
      ⟨name, accepted, given, hcause, rfl, n, hn, hlong⟩ | ⟨inner, hcause⟩
    · obtain ⟨rfl, _⟩ := argumentCount_of_parse h hcause
      exact .inr ⟨rfl, name, given, e.position, hcause ▸ h, n, hn, hlong⟩
    · exact absurd hcause (cause_of_parse_ne h _)

/-- Reading a text finds the expression that it writes, or reports what is wrong with it in words,
    or comes to a fault because there are none. -/
theorem read_cases (sig : Signature) (text : String) :
    (∃ tree, parse sig text = .ok tree ∧ read sig text = .ok tree) ∨
    (∃ e message, parse sig text = .error e ∧ e.cause.message = .ok message ∧
      read sig text = .error (.problem (.equation message e.position))) ∨
    (Unreportable sig text ∧
      read sig text = .error (.fault (.integerTooLong NumberText.digitLimit))) := by
  unfold read
  cases h : parse sig text with
  | ok tree => exact .inl ⟨tree, rfl, rfl⟩
  | error e =>
    rcases message_of_parse h with ⟨message, hmessage⟩ | ⟨hfault, hlong⟩
    · exact .inr (.inl ⟨e, message, rfl, hmessage,
        congrArg Except.error (Failure.ofEquationError_of_message hmessage)⟩)
    · exact .inr (.inr ⟨hlong, congrArg Except.error (Failure.ofEquationError_of_fault hfault)⟩)

/-- Reading a text comes to a fault only if what is wrong with it is unreportable. -/
theorem read_eq_fault_iff {fault : Fault} : read sig text = .error (.fault fault) ↔
    fault = .integerTooLong NumberText.digitLimit ∧ Unreportable sig text := by
  constructor
  · intro h
    rcases read_cases sig text with ⟨_, _, hread⟩ | ⟨_, _, _, _, hread⟩ | ⟨hlong, hread⟩
    · rw [hread] at h
      cases h
    · rw [hread] at h
      cases h
    · rw [hread] at h
      cases h
      exact ⟨rfl, hlong⟩
  · rintro ⟨rfl, name, given, position, h, n, hn, hlong⟩
    -- such a text is refused with an error that has no words
    let e : EquationError := ⟨.argumentCount name (sig.arities name) given, position⟩
    have hfault : e.cause.message = .error (.integerTooLong NumberText.digitLimit) :=
      EquationError.Cause.message_eq_error_iff.2 (.inl ⟨name, _, given, rfl, rfl, n, hn, hlong⟩)
    unfold read
    rw [h]
    exact congrArg Except.error (Failure.ofEquationError_of_fault hfault)

end

/-- Readers leave an end of the tokens in front of them, and expressions use some up. A token for a
    numeral is always read as a number. A blank text is refused as empty. Every other problem has a
    position: the scanner cannot go on there, or a token starts there, or it is the end of the text,
    which is where and only where the equation ends too early. A text that is not read is refused
    with such a problem, unless it is unreportable. -/
theorem read_error_position (sig : Signature) (text : String) :
    (∀ levels tokens e rest,
      operandReader sig text.length levels tokens = .ok (e, rest) ∨
        expression (operandReader sig text.length levels) tokens = .ok (e, rest) →
      rest <:+ tokens ∧ rest.length < tokens.length) ∧
    (∀ tokens, Token.scan text = .ok tokens → ∀ t ∈ tokens, ∀ n, t.lexeme = .number n →
      readFloat? t.text = some n.value) ∧
    (text.toList.all Text.isBlank = true →
      read sig text = .error (.problem (.equation "equation is empty" none))) ∧
    (∀ message position, read sig text = .error (.problem (.equation message position)) →
      (position = none ↔ text.toList.all Text.isBlank = true) ∧
      (position = none → message = "equation is empty") ∧
      ∀ p, position = some p →
        p ≤ text.length ∧
        ((∃ tokens c tail, Token.Takes 0 text.toList tokens p (c :: tail) ∧ Token.Stuck c tail) ∨
          ∃ tokens, Token.scan text = .ok tokens ∧ ((∃ t ∈ tokens, t.pos = p) ∨ p = text.length)) ∧
        (p = text.length ↔ "unexpected end of equation".toList <+: message.toList)) ∧
    ((∃ failure, read sig text = .error failure ∧
        ∀ message position, failure ≠ .problem (.equation message position)) ↔
      Unreportable sig text) ∧
    (Unreportable sig text →
      read sig text = .error (.fault (.integerTooLong NumberText.digitLimit))) := by
  -- readers, numerals, blank texts, errors with a position, and what is left without one
  refine ⟨fun levels tokens e rest h => ?_,
    fun tokens hscan t ht n => Token.readFloat?_of_scan hscan ht, fun hblank => ?_,
    fun message position h => ?_, ⟨?_, fun hlong => ?_⟩, fun hlong => read_eq_fault_iff.2 ⟨rfl, hlong⟩⟩
  · have hsafe (whole : List Token) :
        Reader.IsSafe sig text.length whole (operandReader sig text.length levels) :=
      operandReader_isSafe levels
    have hsound := operandReader_sound sig text.length levels
    rcases h with h | h
    · exact suffix_of_sound hsafe hsound h
    · exact suffix_of_sound (fun whole => expression_isSafe (hsafe whole)) (expression_sound hsound) h
  · unfold read
    rw [parse_of_all_isBlank hblank]
    rfl
  · rcases read_cases sig text with ⟨_, _, hread⟩ | ⟨e, _, hparse, hmessage, hread⟩ | ⟨_, hread⟩
    · rw [hread] at h
      cases h
    · rw [hread] at h
      cases h
      obtain ⟨hblank, hempty, hplace⟩ := position_of_parse hparse
      refine ⟨hblank, fun hnone => ?_, fun p hp => ?_⟩
      · rw [hempty hnone] at hmessage
        cases hmessage
        rfl
      · rw [EquationError.Cause.message_begins_iff hmessage]
        exact hplace p hp
    · rw [hread] at h
      cases h
  · rintro ⟨failure, h, hno⟩
    rcases read_cases sig text with ⟨_, _, hread⟩ | ⟨e, message, _, _, hread⟩ | ⟨hlong, _⟩
    · rw [hread] at h
      cases h
    · rw [hread] at h
      cases h
      exact absurd rfl (hno message e.position)
    · exact hlong
  · exact ⟨_, read_eq_fault_iff.2 ⟨rfl, hlong⟩, nofun⟩

section

-- A power is that of the core library, also where another library has its own.
attribute [local instance (2000)] instPowNat

/-- A call with one argument is wrong, and the number that would be right cannot be told. -/
theorem read_unreportable :
    let sig : Signature := ⟨fun name => if name = "f" then [10 ^ 5000] else []⟩
    read sig "f(x)" = .error (.fault (.integerTooLong 4300)) ∧
      ∀ message position, read sig "f(x)" ≠ .error (.problem (.equation message position)) := by
  intro sig
  -- the error is compared without its words, which are what cannot be computed
  have hrefused : (parse sig "f(x)").error? = some ⟨.argumentCount "f" [10 ^ 5000] 1, some 0⟩ := by
    decide +kernel
  have hfault : read sig "f(x)" = .error (.fault (.integerTooLong 4300)) := by
    refine read_eq_fault_iff.2 ⟨rfl, "f", 1, some 0, Except.error?_eq_some_iff.1 hrefused,
      10 ^ 5000, List.mem_singleton.2 rfl, ?_⟩
    decide +kernel
  exact ⟨hfault, fun message position => hfault ▸ nofun⟩

end

end Expr

end DirectionField
