import DirectionField.Proofs.NumberText
import DirectionField.Proofs.ParsedTree
import DirectionField.Proofs.VocabularyLookup
import DirectionField.Vocabulary.Standard

/-!
# The canonical text is read back

Printing and reading meet in the lexemes of the canonical text (`Expr.canonicalLexemes`): the text is
scanned to them (`Expr.Formed.scans`), and they have a derivation of the tree they were made from
(`Expr.Formed.derives`). The parentheses around every operator leave the grammar no choice; the only
lexeme it could read differently is a constant that is also the name of a function, because a constant
takes what comes behind it for its argument if it can.
-/

namespace DirectionField

/-! ## Names -/

/-- Whatever the mathematics library, the constants of the standard vocabulary are `pi` and `e`. -/
theorem Vocabulary.standard_constants (lib : Elementary) :
    ∀ e ∈ (standard lib).entries, (e.arity = 0 ↔ e.name = "pi" ∨ e.name = "e") := by
  unfold standard standardEntries standardDeclarations
  simp

/-- No name of the standard vocabulary is both a constant and a function. -/
theorem Vocabulary.standard_separate (lib : Elementary) (name : String)
    (h : 0 ∈ (standard lib).arities name) : ¬ ∃ n ∈ (standard lib).arities name, 0 < n := by
  rintro ⟨n, hn, hpos⟩
  obtain ⟨c, hc, hcname, hcarity⟩ := (mem_arities_iff _ _ _).1 h
  obtain ⟨f, hf, hfname, hfarity⟩ := (mem_arities_iff _ _ _).1 hn
  -- the function has the name of a constant, so it is one
  have hname := (standard_constants lib c hc).1 hcarity
  rw [hcname, ← hfname] at hname
  have hzero := (standard_constants lib f hf).2 hname
  omega

/-- A sign is printed as the symbol that it is read from. -/
theorem Sign.char_symbol (s : Sign) : s.symbol.char = s.char := by
  cases s <;> rfl

/-- An operator is printed as the symbol that it is read from. -/
theorem BinaryOp.char_symbol (op : BinaryOp) : op.symbol.char = op.char := by
  cases op <;> rfl

/-- The sign that an operator between terms would be in front of an operand. -/
def BinaryOp.sign? : BinaryOp → Option Sign
  | .add => some .plus
  | .subtract => some .minus
  | .multiply | .divide => none

/-- An operator that looks like a sign has its symbol. -/
theorem BinaryOp.symbol_of_sign? {op : BinaryOp} {s : Sign} (h : op.sign? = some s) :
    op.symbol = s.symbol := by
  cases op with
  | add => cases h; rfl
  | subtract => cases h; rfl
  | multiply => cases h
  | divide => cases h

/-- An operator that is no sign cannot start an argument. -/
theorem BinaryOp.not_startsArgument {op : BinaryOp} (h : op.sign? = none) :
    ¬ (Lexeme.symbol op.symbol).startsArgument := by
  cases op with
  | add => cases h
  | subtract => cases h
  | multiply => decide
  | divide => decide

namespace Expr

mutual

/-- The numbers of an expression, from left to right. -/
def literals : Expr → List Float
  | .literal v => [v]
  | .var _ => []
  | .signed _ e => literals e
  | .binary _ l r => literals l ++ literals r
  | .call _ args => literalsList args

/-- The numbers of arguments, from left to right. -/
def literalsList : List Expr → List Float
  | [] => []
  | e :: es => literals e ++ literalsList es

end

mutual

/-- How many signs, parentheses and applications are open at once, at most, in the canonical text. A
    sign is in parentheses of its own. -/
def canonicalNesting : Expr → Nat
  | .literal _ | .var _ => 0
  | .signed _ e => canonicalNesting e + 2
  | .binary _ l r => max (canonicalNesting l) (canonicalNesting r) + 1
  | .call _ [] => 0
  | .call _ (e :: es) => max (canonicalNesting e) (argumentsNesting es) + 1

/-- How many are open at once, at most, in the arguments after the first. -/
def argumentsNesting : List Expr → Nat
  | [] => 0
  | e :: es => max (canonicalNesting e) (argumentsNesting es)

end

mutual

/-- The lexemes of the canonical text. A number is a single lexeme, whatever its layout. -/
def canonicalLexemes : Expr → List Lexeme
  | .literal v => (Lexeme.read? (literalText v)).toList
  | .var v => [.name v.name.toList]
  | .signed s e =>
    .symbol .opening :: .symbol s.symbol :: (canonicalLexemes e ++ [.symbol .closing])
  | .binary op l r =>
    .symbol .opening ::
      (canonicalLexemes l ++ .symbol op.symbol :: (canonicalLexemes r ++ [.symbol .closing]))
  | .call name [] => [.name name.toList]
  | .call name (e :: es) =>
    .name name.toList :: .symbol .opening ::
      (canonicalLexemes e ++ (argumentLexemes es ++ [.symbol .closing]))

/-- The lexemes of the arguments after the first, each behind a comma. -/
def argumentLexemes : List Expr → List Lexeme
  | [] => []
  | e :: es => .symbol .comma :: (canonicalLexemes e ++ argumentLexemes es)

end

/-- The literals of arguments are those of each of them. -/
theorem mem_literalsList_iff {es : List Expr} {v : Float} :
    v ∈ literalsList es ↔ ∃ e ∈ es, v ∈ e.literals := by
  induction es with
  | nil => simp [literalsList]
  | cons e es ih => simp [literalsList, ih]

/-! ## Scanning -/

/-- A finite value of a numeral is written as a numeral for it. -/
theorem exists_numeral_of_isFinite (n : Numeral) (hfinite : n.value.isFinite = true) :
    ∃ m : Numeral, m.IsProper ∧ m.text = literalText n.value ∧ m.value = n.value := by
  have hbits : n.decimal.toBits < infinityBits := by
    have h := (isFinite_iff n.value).1 hfinite
    unfold Numeral.value Decimal.toFloat at h
    rwa [magnitudeBits_floatOfMagnitude false (Decimal.toBits_le _)] at h
  exact exists_numeral_literalText hbits

/-- A finite value of a numeral is a single lexeme. -/
theorem exists_canonicalLexemes_literal (n : Numeral) (hfinite : n.value.isFinite = true) :
    ∃ m : Numeral, m.IsProper ∧ m.text = literalText n.value ∧ m.value = n.value ∧
      canonicalLexemes (.literal n.value) = [.number m] := by
  obtain ⟨m, hm, htext, hvalue⟩ := exists_numeral_of_isFinite n hfinite
  refine ⟨m, hm, htext, hvalue, ?_⟩
  have hsplit := Numeral.split?_text_append hm.isWritten (Text.EndsAt.nil Numeral.isPart)
  rw [List.append_nil] at hsplit
  rw [canonicalLexemes, ← htext]
  unfold Lexeme.read?
  rw [hsplit]
  rfl

/-- An infinite value of a numeral is written as a name. -/
theorem canonicalLexemes_of_not_isFinite (n : Numeral) (hfinite : n.value.isFinite = false) :
    literalText n.value = ['i', 'n', 'f'] ∧
      canonicalLexemes (.literal n.value) = [.name ['i', 'n', 'f']] := by
  have hle := n.decimal.toBits_le
  have hbits : n.decimal.toBits = infinityBits := by
    by_contra hne
    have h : n.value.isFinite = true := by
      rw [isFinite_iff, Numeral.value, Decimal.toFloat, magnitudeBits_floatOfMagnitude false hle]
      omega
    rw [h] at hfinite
    cases hfinite
  have htext : literalText n.value = ['i', 'n', 'f'] := by
    rw [Numeral.value, Decimal.toFloat, hbits]
    decide +kernel
  refine ⟨htext, ?_⟩
  rw [canonicalLexemes, htext]
  rfl

/-- The value of a numeral is scanned to a single lexeme. -/
theorem scans_literalText (n : Numeral) {rest : List Char}
    (hrest : Text.EndsAt Lexeme.goesOn rest) :
    Scans (literalText n.value) (canonicalLexemes (.literal n.value)) rest := by
  cases hfinite : n.value.isFinite with
  | true =>
    obtain ⟨m, hm, htext, _, hlexemes⟩ := exists_canonicalLexemes_literal n hfinite
    rw [hlexemes, ← htext]
    exact .number hm hrest
  | false =>
    obtain ⟨htext, hlexemes⟩ := canonicalLexemes_of_not_isFinite n hfinite
    have hname : Lexeme.IsName ['i', 'n', 'f'] :=
      ⟨'i', ['n', 'f'], rfl, by decide, by simp [isNamePart, isNameStart]⟩
    rw [hlexemes, htext]
    exact .name hname hrest

/-- Nothing goes on with a closing parenthesis. -/
theorem endsAt_closing (rest : List Char) : Text.EndsAt Lexeme.goesOn (')' :: rest) :=
  Text.EndsAt.cons (by decide) rest

/-- Behind an argument comes a comma or what comes behind all arguments. -/
theorem endsAt_canonicalArguments (es : List Expr) {rest : List Char}
    (hrest : Text.EndsAt Lexeme.goesOn rest) :
    Text.EndsAt Lexeme.goesOn (canonicalArguments es ++ rest) := by
  cases es with
  | nil => exact hrest
  | cons e es => exact Text.EndsAt.cons (by decide) _

/-- Arguments are scanned one by one, with commas in front of all but the first. -/
theorem scans_canonicalArguments {es : List Expr}
    (h : ∀ e ∈ es, ∀ rest, Text.EndsAt Lexeme.goesOn rest →
      Scans e.canonicalChars e.canonicalLexemes rest)
    {rest : List Char} (hrest : Text.EndsAt Lexeme.goesOn rest) :
    Scans (canonicalArguments es) (argumentLexemes es) rest := by
  induction es with
  | nil => exact .nil rest
  | cons e es ih =>
    have he := h e List.mem_cons_self _ (endsAt_canonicalArguments es hrest)
    have hes := ih (fun e he => h e (List.mem_cons_of_mem _ he))
    exact .symbol .comma (.blank (by decide) (he.append hes))

/-- The canonical text of a formed tree is scanned to its lexemes, where nothing follows that its
    last lexeme could go on with. -/
theorem Formed.scans {sig : Signature} {e : Expr} (h : e.Formed sig) {rest : List Char}
    (hrest : Text.EndsAt Lexeme.goesOn rest) : Scans e.canonicalChars e.canonicalLexemes rest := by
  induction h generalizing rest with
  | literal n => exact scans_literalText n hrest
  | var v =>
    have hname : Lexeme.IsName v.name.toList := by
      cases v with
      | x => exact ⟨'x', [], rfl, rfl, fun _ h => nomatch h⟩
      | y => exact ⟨'y', [], rfl, rfl, fun _ h => nomatch h⟩
    exact .name hname hrest
  | @signed s e _ ih =>
    have he := ih (endsAt_closing rest)
    rw [canonicalChars, canonicalLexemes, ← Sign.char_symbol]
    exact .symbol .opening (.symbol s.symbol (he.append (.symbol .closing (.nil rest))))
  | @binary op l r _ _ ihl ihr =>
    -- a blank ends the left operand, and the parenthesis the right one
    have hblank (cs : List Char) : Text.EndsAt Lexeme.goesOn (' ' :: cs) :=
      Text.EndsAt.cons (by decide) cs
    have hl (cs : List Char) := ihl (hblank cs)
    have hr := ihr (endsAt_closing rest)
    simp only [canonicalChars, canonicalLexemes, ← BinaryOp.char_symbol, List.append_assoc,
      List.cons_append, List.nil_append]
    exact .symbol .opening ((hl _).append (.blank (by decide) (.symbol op.symbol
      (.blank (by decide) (hr.append (.symbol .closing (.nil rest)))))))
  | @call name args hname _ _ _ ih =>
    cases args with
    | nil => exact .name hname hrest
    | cons e es =>
      have harg (d : Expr) (hd : d ∈ e :: es) (rest : List Char)
          (hrest : Text.EndsAt Lexeme.goesOn rest) :
          Scans d.canonicalChars d.canonicalLexemes rest := ih d hd hrest
      have hfirst : Text.EndsAt Lexeme.goesOn (canonicalArguments es ++ [')'] ++ rest) := by
        rw [List.append_assoc]
        exact endsAt_canonicalArguments es (endsAt_closing rest)
      have he := harg e List.mem_cons_self _ hfirst
      have hes := scans_canonicalArguments
        (fun d hd => harg d (List.mem_cons_of_mem _ hd)) (endsAt_closing rest)
      rw [canonicalChars, canonicalLexemes, List.append_assoc]
      exact (Scans.name hname (Text.EndsAt.cons (by decide) _)).append
        (.symbol .opening (he.append (hes.append (.symbol .closing (.nil rest)))))

/-- The whole canonical text of a formed tree is scanned to its lexemes. -/
theorem Formed.scan_canonical {sig : Signature} {e : Expr} (h : e.Formed sig) :
    ∃ tokens, Token.lexemes tokens = e.canonicalLexemes ∧ Token.scan e.canonical = .ok tokens := by
  have hscans := h.scans (Text.EndsAt.nil _)
  rw [← String.toList_ofList (l := e.canonicalChars)] at hscans
  exact hscans.exists_scan

/-! ## Constants in front of an operator -/

/-- The name of a left operand that takes the operator behind it for the sign of its argument, and
    the sign. -/
def swallowed? (sig : Signature) (op : BinaryOp) : Expr → Option (String × Sign)
  | .call name [] => if sig.isCallable name then op.sign?.map (name, ·) else none
  | _ => none

mutual

/-- The tree that the canonical text of a tree is read as. A constant that can take arguments takes
    a plus or a minus behind it for the sign of one. -/
def reread (sig : Signature) : Expr → Expr
  | .literal v => .literal v
  | .var v => .var v
  | .signed s e => .signed s (reread sig e)
  | .binary op l r =>
    match swallowed? sig op l with
    | some (name, s) => .call name [.signed s (reread sig r)]
    | none => .binary op (reread sig l) (reread sig r)
  | .call name args => .call name (rereadList sig args)

/-- The trees that the canonical texts of arguments are read as. -/
def rereadList (sig : Signature) : List Expr → List Expr
  | [] => []
  | e :: es => reread sig e :: rereadList sig es

end

/-- Nowhere in the tree does a constant take the operator behind it for a sign. -/
inductive Separate (sig : Signature) : Expr → Prop where
  | literal (v : Float) : Separate sig (.literal v)
  | var (v : Variable) : Separate sig (.var v)
  | signed {s e} (h : Separate sig e) : Separate sig (.signed s e)
  | binary {op l r} (hl : Separate sig l) (hr : Separate sig r)
      (hop : swallowed? sig op l = none) : Separate sig (.binary op l r)
  | call {name args} (hargs : ∀ e ∈ args, Separate sig e) : Separate sig (.call name args)

/-- There are as many arguments after reading again as before. -/
theorem length_rereadList (sig : Signature) (es : List Expr) :
    (rereadList sig es).length = es.length := by
  induction es with
  | nil => rfl
  | cons e es ih => simp [rereadList, ih]

/-- Arguments are read again as they are if each of them is. -/
theorem rereadList_eq_self_iff {sig : Signature} {es : List Expr} :
    rereadList sig es = es ↔ ∀ e ∈ es, reread sig e = e := by
  induction es with
  | nil => simp [rereadList]
  | cons e es ih => simp [rereadList, ih]

/-- An operator is swallowed if it looks like a sign and stands behind a constant whose name is
    callable. -/
theorem swallowed?_eq_some_iff {sig : Signature} {op : BinaryOp} {l : Expr} {name : String}
    {s : Sign} : swallowed? sig op l = some (name, s) ↔
      l = .call name [] ∧ sig.isCallable name = true ∧ op.sign? = some s := by
  constructor
  · intro h
    unfold swallowed? at h
    split at h
    · split at h
      · next name' hcallable =>
        obtain ⟨s', hs, heq⟩ := Option.map_eq_some_iff.1 h
        cases heq
        exact ⟨rfl, hcallable, hs⟩
      · cases h
    · cases h
  · rintro ⟨rfl, hcallable, hs⟩
    simp [swallowed?, hcallable, hs]

/-- A tree is read back as itself if and only if its constants keep apart from the operators. -/
theorem Formed.reread_eq_self_iff {sig : Signature} {e : Expr} (h : e.Formed sig) :
    e.reread sig = e ↔ e.Separate sig := by
  -- along the tree; what is reread below the root is settled by the hypotheses
  induction h with
  | literal n => exact ⟨fun _ => .literal _, fun _ => rfl⟩
  | var v => exact ⟨fun _ => .var v, fun _ => rfl⟩
  | @signed s e _ ih =>
    rw [reread]
    constructor
    · intro h
      exact .signed (ih.1 (Expr.signed.inj h).2)
    · intro h
      cases h with
      | signed h => rw [ih.2 h]
  | @binary op l r _ _ ihl ihr =>
    rw [reread]
    constructor
    · intro h
      -- an operator that is swallowed becomes a sign, so that the root is no operator any more
      cases hop : swallowed? sig op l with
      | some p => rw [hop] at h; cases h
      | none =>
        rw [hop] at h
        obtain ⟨_, hl, hr⟩ := Expr.binary.inj h
        exact .binary (ihl.1 hl) (ihr.1 hr) hop
    · intro h
      cases h with
      | binary hl hr hop =>
        rw [hop]
        show Expr.binary op (reread sig l) (reread sig r) = _
        rw [ihl.2 hl, ihr.2 hr]
  | @call name args _ _ _ _ ih =>
    rw [reread]
    constructor
    · intro h
      have hargs := rereadList_eq_self_iff.1 (Expr.call.inj h).2
      exact .call fun e he => (ih e he).1 (hargs e he)
    · intro h
      cases h with
      | call hargs => rw [rereadList_eq_self_iff.2 fun e he => (ih e he).2 (hargs e he)]

/-- Where no name is both a constant and a function, all constants keep apart. -/
theorem Formed.separate {sig : Signature} {e : Expr} (h : e.Formed sig)
    (hnames : ∀ name, 0 ∈ sig.arities name → ¬ ∃ n ∈ sig.arities name, 0 < n) :
    e.Separate sig := by
  induction h with
  | literal n => exact .literal _
  | var v => exact .var v
  | signed _ ih => exact .signed ih
  | @binary op l r hl _ ihl ihr =>
    refine .binary ihl ihr ?_
    cases hop : swallowed? sig op l with
    | none => rfl
    | some p =>
      obtain ⟨rfl, hcallable, _⟩ := swallowed?_eq_some_iff.1 hop
      cases hl with
      | call _ _ harity _ => exact absurd ((sig.isCallable_iff _).1 hcallable) (hnames _ harity)
  | call _ _ _ _ ih => exact .call ih

/-! ## Reading -/

/-- A primary is an expression. -/
theorem expression_of_primary {sig : Signature} {e : Expr} {depth : Nat} {ls rest : List Lexeme}
    (h : Derives sig (.primary e) depth ls rest) : Derives sig (.expression e) depth ls rest :=
  .expression_term (.term_unary (.unary_primary h))

/-- The lexemes of a tree in front of others write what the tree is read as, with as many open
    levels as the text has if the tree is read as itself. -/
def ReadsIn (sig : Signature) (e : Expr) (after : List Lexeme) : Prop :=
  ∃ depth, Derives sig (.primary (e.reread sig)) depth (e.canonicalLexemes ++ after) after ∧
    (e.Separate sig → depth = e.canonicalNesting)

/-- Arguments that are read as what they are reread as have a derivation as a list. -/
theorem exists_derives_argumentLexemes {sig : Signature} {e : Expr} {es : List Expr}
    (h : ∀ d ∈ e :: es, ∀ l after, l = .symbol .closing ∨ l = .symbol .comma →
      ReadsIn sig d (l :: after)) (after : List Lexeme) :
    ∃ depth, Derives sig (.list (rereadList sig (e :: es))) depth
        (e.canonicalLexemes ++ (argumentLexemes es ++ .symbol .closing :: after))
        (.symbol .closing :: after) ∧
      ((∀ d ∈ e :: es, d.Separate sig) →
        depth = max e.canonicalNesting (argumentsNesting es)) := by
  -- by the arguments behind the first one: each stands in front of a comma or of the closing
  -- parenthesis
  induction es generalizing e with
  | nil =>
    obtain ⟨depth, he, hdepth⟩ := h e List.mem_cons_self _ after (.inl rfl)
    refine ⟨depth, .list_one (expression_of_primary he), fun hsep => ?_⟩
    rw [argumentsNesting, Nat.max_zero]
    exact hdepth (hsep e List.mem_cons_self)
  | cons d ds ih =>
    obtain ⟨depth', hds, hdepth'⟩ := ih fun d hd => h d (List.mem_cons_of_mem _ hd)
    obtain ⟨depth, he, hdepth⟩ := h e List.mem_cons_self (.symbol .comma)
      (d.canonicalLexemes ++ (argumentLexemes ds ++ .symbol .closing :: after)) (.inr rfl)
    rw [argumentLexemes, List.cons_append, List.append_assoc]
    refine ⟨max depth depth', .list_cons (expression_of_primary he) hds, fun hsep => ?_⟩
    have hrest := hdepth' fun d hd => hsep d (List.mem_cons_of_mem _ hd)
    rw [hdepth (hsep e List.mem_cons_self), hrest, argumentsNesting]

/-- The lexemes of a formed tree are read as the reread tree, if every constant that can take
    arguments can take a single one. No parenthesis follows, and nothing that could start an
    argument of the tree if that is such a constant itself. -/
theorem Formed.readsIn {sig : Signature} {e : Expr} (h : e.Formed sig)
    (hunary : ∀ name, 0 ∈ sig.arities name → sig.isCallable name = true → 1 ∈ sig.arities name)
    (hfinite : ∀ v ∈ e.literals, v.isFinite = true) (after : List Lexeme)
    (hafter : after.head? ≠ some (.symbol .opening))
    (hconstant : ∀ name, e = .call name [] → sig.isCallable name = true →
      ∀ l, after.head? = some l → ¬ l.startsArgument) : ReadsIn sig e after := by
  -- what follows an operand changes from one part of the tree to the next, so it is generalized
  induction h generalizing after with
  | literal n =>
    have hn := hfinite n.value List.mem_cons_self
    obtain ⟨m, _, _, hvalue, hlexemes⟩ := exists_canonicalLexemes_literal n hn
    refine ⟨0, ?_, fun _ => rfl⟩
    rw [hlexemes, reread, ← hvalue]
    exact .primary_number
  | var v => exact ⟨0, .primary_variable hafter, fun _ => rfl⟩
  | @signed s e _ ih =>
    obtain ⟨depth, he, hdepth⟩ := ih hfinite (.symbol .closing :: after) (by simp)
      (by simp [Lexeme.startsArgument])
    refine ⟨depth + 1 + 1, ?_, fun hsep => ?_⟩
    · rw [reread, canonicalLexemes, List.cons_append, List.cons_append, List.append_assoc]
      exact .primary_group (.expression_term (.term_unary (.unary_signed (.unary_primary he))))
    · cases hsep with
      | signed hsep => rw [hdepth hsep, canonicalNesting]
  | @binary op l r hformed _ ihl ihr =>
    obtain ⟨depth, hr, hdepth⟩ := ihr (fun v hv => hfinite v (List.mem_append_right _ hv))
      (.symbol .closing :: after) (by simp) (by simp [Lexeme.startsArgument])
    cases hop : swallowed? sig op l with
    | some p =>
      -- the operator is the sign of an argument, so the parentheses hold a call
      obtain ⟨name, s⟩ := p
      obtain ⟨rfl, hcallable, hs⟩ := swallowed?_eq_some_iff.1 hop
      refine ⟨depth + 1 + 1 + 1, ?_, fun hsep => ?_⟩
      · cases hformed with
        | call _ hvar harity _ =>
          have hone := hunary name harity hcallable
          have hsign : (Lexeme.symbol s.symbol).startsArgument = true := by cases s <;> rfl
          simp only [reread, hop, canonicalLexemes, BinaryOp.symbol_of_sign? hs,
            List.append_assoc, List.cons_append, List.nil_append]
          exact .primary_group (expression_of_primary (.primary_call (.call_unary hvar
            ((sig.isCallable_iff name).1 hcallable) hsign hone (.unary_signed (.unary_primary hr)))))
      · cases hsep with
        | binary _ _ hnone => rw [hnone] at hop; cases hop
    | none =>
      have hopening : (Lexeme.symbol op.symbol) ≠ .symbol .opening := by cases op <;> simp [BinaryOp.symbol]
      obtain ⟨depth', hl, hdepth'⟩ := ihl (fun v hv => hfinite v (List.mem_append_left _ hv))
        (.symbol op.symbol :: (r.canonicalLexemes ++ .symbol .closing :: after))
        (by simpa using hopening)
        (by
          rintro name rfl hcallable l hl
          cases hs : op.sign? with
          | some s =>
            have hsome : swallowed? sig op (.call name []) = some (name, s) :=
              swallowed?_eq_some_iff.2 ⟨rfl, hcallable, hs⟩
            rw [hsome] at hop
            cases hop
          | none =>
            cases hl
            exact BinaryOp.not_startsArgument hs)
      refine ⟨max depth' depth + 1, ?_, fun hsep => ?_⟩
      · simp only [reread, hop, canonicalLexemes, List.append_assoc, List.cons_append,
          List.nil_append]
        refine .primary_group ?_
        -- both sides are operands without a sign, so they are terms and factors alike
        by_cases hadd : BinaryOp.isAdditive op
        · exact .expression_binary hadd (expression_of_primary hl) (.term_unary (.unary_primary hr))
        · exact .expression_term
            (.term_binary hadd (.term_unary (.unary_primary hl)) (.unary_primary hr))
      · cases hsep with
        | binary hsl hsr _ => rw [hdepth' hsl, hdepth hsr, canonicalNesting]
  | @call name args _ hvar harity _ ih =>
    cases args with
    | nil =>
      refine ⟨0, .primary_call (.call_constant hvar hafter ?_ harity), fun _ => rfl⟩
      intro hcallable
      exact hconstant name rfl ((sig.isCallable_iff name).2 hcallable)
    | cons e es =>
      obtain ⟨depth, hargs, hdepth⟩ := exists_derives_argumentLexemes (fun d hd l after hl =>
        ih d hd (fun v hv => hfinite v (mem_literalsList_iff.2 ⟨d, hd, hv⟩)) (l :: after)
          (by rcases hl with rfl | rfl <;> simp)
          (by rcases hl with rfl | rfl <;> simp [Lexeme.startsArgument])) after
      refine ⟨depth + 1, ?_, fun hsep => ?_⟩
      · simp only [reread, canonicalLexemes, List.append_assoc, List.cons_append,
          List.nil_append]
        rw [← length_rereadList sig] at harity
        exact .primary_call (.call_arguments hvar harity (.arguments_list hargs))
      · cases hsep with
        | call hsargs => rw [hdepth hsargs, canonicalNesting]

/-- The lexemes of a formed tree, in front of anything but a parenthesis, write the tree as an
    operand without a sign, if no name is both a constant and a function. -/
theorem Formed.derives {sig : Signature} {e : Expr} (h : e.Formed sig)
    (hnames : ∀ name, 0 ∈ sig.arities name → ¬ ∃ n ∈ sig.arities name, 0 < n)
    (hfinite : ∀ v ∈ e.literals, v.isFinite = true) (after : List Lexeme)
    (hafter : after.head? ≠ some (.symbol .opening)) :
    Derives sig (.primary e) e.canonicalNesting (e.canonicalLexemes ++ after) after := by
  have hseparate := h.separate hnames
  have hfunction (name : String) (hzero : 0 ∈ sig.arities name) : ¬ sig.isCallable name = true :=
    fun hcallable => hnames name hzero ((sig.isCallable_iff name).1 hcallable)
  obtain ⟨depth, hderives, hdepth⟩ := h.readsIn
    (fun name hzero hcallable => absurd hcallable (hfunction name hzero)) hfinite after hafter
    (by
      rintro name rfl hcallable
      cases h with
      | call _ _ harity _ => exact absurd hcallable (hfunction name harity))
  rw [h.reread_eq_self_iff.2 hseparate, hdepth hseparate] at hderives
  exact hderives

/-- The canonical text of a parsed tree whose numbers are finite is parsed to the same tree, unless
    it is too long or nested too deep, over any vocabulary where no name is both a constant and a
    function. -/
theorem parse_canonical {α : Type} (v : Vocabulary α)
    (hnames : ∀ name, 0 ∈ v.arities name → ¬ ∃ n ∈ v.arities name, 0 < n) {text : String} {t : Expr}
    (ht : parse v.signature text = .ok t) (hfinite : ∀ x ∈ t.literals, x.isFinite = true) :
    ∃ tokens, Token.scan t.canonical = .ok tokens ∧
      (tokens.length ≤ 400 → t.canonicalNesting ≤ 100 →
        parse v.signature t.canonical = .ok t) := by
  have hformed := formed_of_parse ht
  obtain ⟨tokens, hlexemes, hcanonical⟩ := hformed.scan_canonical
  have hderives := expression_of_primary (hformed.derives hnames hfinite [] (by simp))
  rw [List.append_nil, ← hlexemes] at hderives
  refine ⟨tokens, hcanonical, fun hlength hnesting => ?_⟩
  refine (parse_eq_ok_iff v.signature t.canonical t).2 ⟨tokens, hcanonical, ?_, hlength, ?_⟩
  · have hpos := hderives.length_lt
    rw [Token.length_lexemes] at hpos
    exact hpos
  · exact ⟨t.canonicalNesting, hnesting, hderives⟩

/-- An equation of the standard vocabulary with a sign, implicit application, arguments, a constant
    and numbers in two layouts. -/
theorem parse_canonical_standard :
    let v := Vocabulary.standard Elementary.native
    ∃ t, parse v.signature "sin -x*2.50 + pow(y, 3e20)/pi" = .ok t ∧
      parse v.signature t.canonical = .ok t := by
  intro v
  cases ht : parse v.signature "sin -x*2.50 + pow(y, 3e20)/pi" with
  | error e =>
    have hok : (parse v.signature "sin -x*2.50 + pow(y, 3e20)/pi").isOk = true := by decide +kernel
    rw [ht] at hok
    cases hok
  | ok t =>
    -- what the limits ask for is evaluated
    have hlimits : (parse v.signature "sin -x*2.50 + pow(y, 3e20)/pi").toOption.all (fun t =>
        t.literals.all Float.isFinite && decide (t.canonicalNesting ≤ 100) &&
          (Token.scan t.canonical).toOption.all (·.length ≤ 400)) = true := by
      decide +kernel
    rw [ht] at hlimits
    simp only [Except.toOption, Option.all_some, Bool.and_eq_true, List.all_eq_true,
      decide_eq_true_eq] at hlimits
    obtain ⟨⟨hfinite, hnesting⟩, hlength⟩ := hlimits
    obtain ⟨tokens, hscan, hparse⟩ := parse_canonical v
      (Vocabulary.standard_separate Elementary.native) ht hfinite
    rw [hscan] at hlength
    exact ⟨t, rfl, hparse (of_decide_eq_true hlength) hnesting⟩

end Expr

end DirectionField
