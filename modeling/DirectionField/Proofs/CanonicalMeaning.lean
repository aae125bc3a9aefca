import DirectionField.Proofs.CanonicalText

/-!
# What the canonical text means

The canonical text of a tree does not always mean the tree. It writes a constant as a bare name, and if
the name can take arguments as well, a plus or a minus behind it becomes the sign of one:
`(c + x)` is `c` applied to `+x`. It writes an infinite number as the name `inf`. These are the only two
ways in which the meaning is lost (`Expr.parse_canonical_eq_iff`): where the text is an equation at all,
it is read as the tree if and only if all numbers are finite and the constants keep apart from the
operators.

An equation has at most one tree, whatever the limit on nesting (`Derives.expression_unique`), so it is
enough to find one derivation of the canonical text. The tree that is found may have calls with a number
of arguments that the name does not take. It is therefore found over a signature that accepts more and
reads the same (`Signature.withUnary`).
-/

namespace DirectionField

/-! ## Derivations -/

/-- The signature in which every name that can take arguments can take a single one. The arities are
    in no particular order. -/
def Signature.withUnary (sig : Signature) : Signature :=
  ⟨fun name => if sig.isCallable name then 1 :: sig.arities name else sig.arities name⟩

namespace Signature

variable (sig : Signature) (name : String)

/-- The vocabulary with applications adds one argument to what callable names take. -/
theorem mem_withUnary_iff (n : Nat) : n ∈ sig.withUnary.arities name ↔
    n ∈ sig.arities name ∨ (n = 1 ∧ sig.isCallable name = true) := by
  unfold withUnary
  by_cases h : sig.isCallable name = true
  · simp [h, or_comm]
  · simp [h]

@[simp] theorem isCallable_withUnary : sig.withUnary.isCallable name = sig.isCallable name := by
  rw [Bool.eq_iff_iff, isCallable_iff]
  constructor
  · rintro ⟨n, hn, hpos⟩
    rcases (sig.mem_withUnary_iff name n).1 hn with hn | ⟨_, hcallable⟩
    · exact (sig.isCallable_iff name).2 ⟨n, hn, hpos⟩
    · exact hcallable
  · intro h
    exact ⟨1, (sig.mem_withUnary_iff name 1).2 (.inr ⟨rfl, h⟩), Nat.one_pos⟩

end Signature

namespace Derives

variable {sig sig' : Signature} {phrase : Phrase} {depth : Nat} {ls rest : List Lexeme}

/-- A derivation over a signature is one over any signature that accepts more and in which the same
    names can take arguments. -/
theorem mono (h : Derives sig phrase depth ls rest)
    (haccepts : ∀ name, ∀ n ∈ sig.arities name, n ∈ sig'.arities name)
    (hcallable : ∀ name, sig'.isCallable name = sig.isCallable name) :
    Derives sig' phrase depth ls rest := by
  -- the two signatures agree on which names are callable, and the rule for a constant needs both
  -- ways
  have hpos (name : String) : (∃ n ∈ sig'.arities name, 0 < n) ↔ ∃ n ∈ sig.arities name, 0 < n := by
    rw [← sig.isCallable_iff, ← sig'.isCallable_iff, hcallable]
  induction h with
  | expression_term _ ih => exact .expression_term ih
  | expression_binary hop _ _ ihl ihr => exact .expression_binary hop ihl ihr
  | term_unary _ ih => exact .term_unary ih
  | term_binary hop _ _ ihl ihr => exact .term_binary hop ihl ihr
  | unary_signed _ ih => exact .unary_signed ih
  | unary_primary _ ih => exact .unary_primary ih
  | primary_number => exact .primary_number
  | primary_variable hnext => exact .primary_variable hnext
  | primary_group _ ih => exact .primary_group ih
  | primary_call _ ih => exact .primary_call ih
  | call_arguments hvar harity _ ih => exact .call_arguments hvar (haccepts _ _ harity) ih
  | call_unary hvar hcall hnext harity _ ih =>
    exact .call_unary hvar ((hpos _).2 hcall) hnext (haccepts _ _ harity) ih
  | call_constant hvar hparen hnext harity =>
    exact .call_constant hvar hparen (fun hcall => hnext ((hpos _).1 hcall)) (haccepts _ _ harity)
  | arguments_none => exact .arguments_none
  | arguments_list _ ih => exact .arguments_list ih
  | list_one _ ih => exact .list_one ih
  | list_cons _ _ ih ihs => exact .list_cons ih ihs

/-- A row of lexemes writes at most one expression, however deep it is nested. -/
theorem expression_unique {e e' : Expr} {depth depth' : Nat}
    (h : Derives sig (.expression e) depth ls []) (h' : Derives sig (.expression e') depth' ls []) :
    e = e' := by
  -- a reader with enough levels for both derivations finds both expressions
  let tokens : List Token := ls.map fun l => ⟨l, 0⟩
  have hlexemes : Token.lexemes tokens = ls := by
    unfold Token.lexemes
    rw [List.map_map]
    exact List.map_id ls
  rw [← hlexemes] at h h'
  have hread := (Expr.expression_eq_ok_iff sig 0 (max depth depth') tokens e).2
    ⟨depth, Nat.le_max_left .., h⟩
  have hread' := (Expr.expression_eq_ok_iff sig 0 (max depth depth') tokens e').2
    ⟨depth', Nat.le_max_right .., h'⟩
  rw [hread] at hread'
  cases hread'
  rfl

/-- Every number of a derived expression is the value of one of the lexemes. -/
theorem exists_number (h : Derives sig phrase depth ls rest) :
    ∀ e ∈ phrase.exprs, ∀ x ∈ e.literals, ∃ n : Numeral, .number n ∈ ls ∧ n.value = x := by
  have hmore {ls ls' : List Lexeme} {x : Float} (hsub : ∀ l ∈ ls, l ∈ ls')
      (h : ∃ n : Numeral, .number n ∈ ls ∧ n.value = x) :
      ∃ n : Numeral, .number n ∈ ls' ∧ n.value = x := by
    obtain ⟨n, hn, hvalue⟩ := h
    exact ⟨n, hsub _ hn, hvalue⟩
  induction h with
  | expression_term _ ih | term_unary _ ih | unary_primary _ ih | primary_call _ ih => exact ih
  | arguments_list _ ih | list_one _ ih => exact ih
  | @expression_binary op l r _ _ _ _ _ _ hl _ ihl ihr | @term_binary op l r _ _ _ _ _ _ hl _ ihl ihr =>
    -- the lexemes of the right operand are among those in front of which the left one starts
    have hmid := (List.suffix_cons _ _).trans hl.suffix
    intro e he x hx
    rw [Phrase.exprs, List.mem_singleton] at he
    subst he
    rcases List.mem_append.1 hx with hx | hx
    · exact ihl l List.mem_cons_self x hx
    · exact hmore hmid.subset (ihr r List.mem_cons_self x hx)
  | @unary_signed s e _ _ _ _ ih =>
    intro e' he x hx
    rw [Phrase.exprs, List.mem_singleton] at he
    subst he
    exact hmore (fun _ hl => List.mem_cons_of_mem _ hl) (ih e List.mem_cons_self x hx)
  | @primary_number n rest =>
    intro e he x hx
    rw [Phrase.exprs, List.mem_singleton] at he
    subst he
    exact ⟨n, List.mem_cons_self, (List.mem_singleton.1 hx).symm⟩
  | primary_variable _ | call_constant =>
    intro e he x hx
    rw [Phrase.exprs, List.mem_singleton] at he
    subst he
    cases hx
  | primary_group _ ih =>
    intro e he x hx
    exact hmore (fun _ hl => List.mem_cons_of_mem _ hl) (ih e he x hx)
  | call_arguments _ _ _ ih =>
    intro e he x hx
    rw [Phrase.exprs, List.mem_singleton] at he
    subst he
    obtain ⟨arg, harg, hx⟩ := Expr.mem_literalsList_iff.1 hx
    exact hmore (fun _ hl => List.mem_cons_of_mem _ (List.mem_cons_of_mem _ hl)) (ih arg harg x hx)
  | @call_unary _ arg _ _ _ _ _ _ _ _ _ ih =>
    intro e he x hx
    rw [Phrase.exprs, List.mem_singleton] at he
    subst he
    obtain ⟨arg, harg, hx⟩ := Expr.mem_literalsList_iff.1 hx
    exact hmore (fun _ hl => List.mem_cons_of_mem _ hl) (ih arg harg x hx)
  | arguments_none => intro e he; cases he
  | @list_cons e es _ _ _ _ _ h _ ih ihs =>
    have hmid := (List.suffix_cons _ _).trans h.suffix
    intro e' he x hx
    rcases List.mem_cons.1 he with rfl | he
    · exact ih e' List.mem_cons_self x hx
    · exact hmore hmid.subset (ihs e' he x hx)

end Derives

namespace Expr

variable {sig : Signature} {e : Expr}

/-! ## Trees -/

@[simp] theorem swallowed?_withUnary (op : BinaryOp) (l : Expr) :
    swallowed? sig.withUnary op l = swallowed? sig op l := by
  unfold swallowed?
  simp only [Signature.isCallable_withUnary]

mutual

/-- Which constants are swallowed does not depend on it. -/
theorem reread_withUnary : ∀ e : Expr, reread sig.withUnary e = reread sig e
  | .literal _ => rfl
  | .var _ => rfl
  | .signed s e => by rw [reread, reread, reread_withUnary e]
  | .binary op l r => by
    rw [reread, reread, swallowed?_withUnary, reread_withUnary l, reread_withUnary r]
  | .call name args => by rw [reread, reread, rereadList_withUnary args]

theorem rereadList_withUnary : ∀ es : List Expr, rereadList sig.withUnary es = rereadList sig es
  | [] => rfl
  | e :: es => by rw [rereadList, rereadList, reread_withUnary e, rereadList_withUnary es]

end

/-- A tree over a vocabulary is one over the vocabulary with applications. -/
theorem Formed.withUnary (h : e.Formed sig) : e.Formed sig.withUnary := by
  induction h with
  | literal n => exact .literal n
  | var v => exact .var v
  | signed _ ih => exact .signed ih
  | binary _ _ ihl ihr => exact .binary ihl ihr
  | call hname hvar harity _ ih =>
    exact .call hname hvar ((sig.mem_withUnary_iff _ _).2 (.inl harity)) ih

/-- The numerals of arguments are those of each of them. -/
theorem number_mem_argumentLexemes_iff {n : Numeral} {es : List Expr} :
    .number n ∈ argumentLexemes es ↔ ∃ e ∈ es, .number n ∈ e.canonicalLexemes := by
  induction es with
  | nil => simp [argumentLexemes]
  | cons e es ih => simp [argumentLexemes, ih]

/-- The numbers among the lexemes of a canonical text are finite: an infinite one is written as a
    name. -/
theorem Formed.isFinite_of_mem (h : e.Formed sig) {n : Numeral}
    (hn : .number n ∈ e.canonicalLexemes) : n.value.isFinite = true := by
  -- along the tree: the text of a node adds only parentheses, symbols and names
  induction h with
  | literal m =>
    cases hfinite : m.value.isFinite with
    | true =>
      obtain ⟨m', _, _, hvalue, hlexemes⟩ := exists_canonicalLexemes_literal m hfinite
      rw [hlexemes, List.mem_singleton] at hn
      cases hn
      rw [hvalue]
      exact hfinite
    -- a literal that is not finite is printed as a name
    | false =>
      rw [(canonicalLexemes_of_not_isFinite m hfinite).2, List.mem_singleton] at hn
      cases hn
  | var v => simp [canonicalLexemes] at hn
  | signed _ ih =>
    simp only [canonicalLexemes, List.mem_cons, List.mem_append, List.not_mem_nil, or_false,
      reduceCtorEq, false_or] at hn
    exact ih hn
  | binary _ _ ihl ihr =>
    simp only [canonicalLexemes, List.mem_cons, List.mem_append, List.not_mem_nil, or_false,
      reduceCtorEq, false_or] at hn
    rcases hn with hn | hn
    · exact ihl hn
    · exact ihr hn
  | @call name args _ _ _ _ ih =>
    cases args with
    | nil => simp [canonicalLexemes] at hn
    | cons e es =>
      simp only [canonicalLexemes, List.mem_cons, List.mem_append, List.not_mem_nil, or_false,
        reduceCtorEq, false_or, number_mem_argumentLexemes_iff] at hn
      rcases hn with hn | ⟨d, hd, hn⟩
      · exact ih e List.mem_cons_self hn
      · exact ih d (List.mem_cons_of_mem _ hd) hn

/-! ## Reading the canonical text -/

/-- The canonical text of a parsed tree with finite numbers, if it is an equation at all, is read as
    the reread tree. -/
theorem parse_canonical_eq_reread {text : String} {t t' : Expr} (ht : parse sig text = .ok t)
    (hfinite : ∀ x ∈ t.literals, x.isFinite = true) (ht' : parse sig t.canonical = .ok t') :
    t' = t.reread sig := by
  have hformed := formed_of_parse ht
  obtain ⟨tokens, hlexemes, hscan⟩ := hformed.scan_canonical
  obtain ⟨tokens', hscan', _, _, depth', _, hfound⟩ := (parse_eq_ok_iff sig t.canonical t').1 ht'
  rw [hscan] at hscan'
  cases hscan'
  rw [hlexemes] at hfound
  -- both trees have derivations over the larger signature
  have hunary (name : String) (_ : 0 ∈ sig.withUnary.arities name)
      (h : sig.withUnary.isCallable name = true) : 1 ∈ sig.withUnary.arities name := by
    rw [Signature.isCallable_withUnary] at h
    exact (sig.mem_withUnary_iff name 1).2 (.inr ⟨rfl, h⟩)
  have hread := hformed.withUnary.readsIn hunary hfinite [] (by simp) (by simp)
  obtain ⟨depth, hread, _⟩ := hread
  rw [reread_withUnary, List.append_nil] at hread
  have hfound' : Derives sig.withUnary (.expression t') depth' t.canonicalLexemes [] :=
    hfound.mono (fun name n hn => (sig.mem_withUnary_iff name n).2 (.inl hn)) (fun name => by simp)
  exact hfound'.expression_unique (expression_of_primary hread)

/-- The canonical text of a parsed tree, if it is an equation at all, is parsed to the same tree if
    and only if the numbers of the tree are finite and no constant in it takes the operator behind
    it for the sign of an argument. -/
theorem parse_canonical_eq_iff {α : Type} (v : Vocabulary α) {text : String} {t t' : Expr}
    (ht : parse v.signature text = .ok t) (ht' : parse v.signature t.canonical = .ok t') :
    t' = t ↔ (∀ x ∈ t.literals, x.isFinite = true) ∧ t.Separate v.signature := by
  have hformed := formed_of_parse ht
  constructor
  · intro heq
    subst heq
    -- each number of the tree that is found is one of the lexemes of the canonical text
    obtain ⟨tokens, hlexemes, hscan⟩ := hformed.scan_canonical
    obtain ⟨_, hscan', _, _, _, _, hfound⟩ := (parse_eq_ok_iff v.signature _ t').1 ht'
    rw [hscan] at hscan'
    cases hscan'
    have hfinite : ∀ x ∈ t'.literals, x.isFinite = true := by
      intro x hx
      obtain ⟨n, hn, rfl⟩ := hfound.exists_number t' List.mem_cons_self x hx
      rw [hlexemes] at hn
      exact hformed.isFinite_of_mem hn
    exact ⟨hfinite, hformed.reread_eq_self_iff.1 (parse_canonical_eq_reread ht hfinite ht').symm⟩
  · rintro ⟨hfinite, hseparate⟩
    rw [parse_canonical_eq_reread ht hfinite ht', hformed.reread_eq_self_iff.2 hseparate]

/-- A name that is both a constant and a function. -/
def constantFunction : Vocabulary Unit :=
  ⟨[⟨"c", 0, (), ""⟩, ⟨"c", 1, (), ""⟩], by simp [Entry.key]⟩

/-- The name `c` stands for a constant and for a function. -/
theorem signature_constantFunction :
    constantFunction.signature = ⟨fun name => if name = "c" then [0, 1] else []⟩ := by
  refine congrArg Signature.mk (funext fun name => ?_)
  unfold Vocabulary.arities constantFunction
  by_cases h : name = "c"
  · subst h
    have hsorted : [0, 1].Pairwise (fun a b : Nat => decide (a ≤ b) = true) := by simp
    simpa using List.mergeSort_of_pairwise hsorted
  · simp [h, Ne.symm h]

/-- In front of an operator that is no sign, and at the end, a constant that can take an argument is
    read back. -/
theorem parse_canonical_eq_iff_constantFunction :
    let sig := constantFunction.signature
    ∃ t t', parse sig "c() * x - c" = .ok t ∧ parse sig t.canonical = .ok t' ∧
      (t' = t ↔ (∀ x ∈ t.literals, x.isFinite = true) ∧ t.Separate sig) := by
  intro sig
  have hok : (parse sig "c() * x - c").toOption.any (fun t => (parse sig t.canonical).isOk) =
      true := by
    rw [show sig = _ from signature_constantFunction]
    decide +kernel
  cases ht : parse sig "c() * x - c" with
  | error e => rw [ht] at hok; cases hok
  | ok t =>
    rw [ht] at hok
    cases ht' : parse sig t.canonical with
    | error e =>
      simp only [Except.toOption, Option.any_some, ht'] at hok
      cases hok
    | ok t' => exact ⟨t, t', rfl, ht', parse_canonical_eq_iff constantFunction ht ht'⟩

/-- In front of a plus, such a constant is read as a function of what is behind it. -/
theorem parse_canonical_ne :
    let sig := constantFunction.signature
    ∃ t t', parse sig "c() + x" = .ok t ∧ t.canonical = "(c + x)" ∧
      parse sig t.canonical = .ok t' ∧ t'.canonical = "c((+x))" ∧ t' ≠ t := by
  intro sig
  have htexts : (parse sig "c() + x").toOption.map (fun t =>
      (t.canonical, (parse sig t.canonical).toOption.map canonical)) =
        some ("(c + x)", some "c((+x))") := by
    rw [show sig = _ from signature_constantFunction]
    decide +kernel
  cases ht : parse sig "c() + x" with
  | error e => rw [ht] at htexts; cases htexts
  | ok t =>
    rw [ht] at htexts
    obtain ⟨hcanonical, hread⟩ := Prod.mk.inj (Option.some.inj htexts)
    cases ht' : parse sig t.canonical with
    | error e => rw [ht'] at hread; cases hread
    | ok t' =>
      rw [ht'] at hread
      have hcanonical' : t'.canonical = "c((+x))" := Option.some.inj hread
      refine ⟨t, t', rfl, hcanonical, ht', hcanonical', ?_⟩
      -- the two trees do not even have the same text
      rintro rfl
      rw [hcanonical] at hcanonical'
      revert hcanonical'
      decide

end Expr

end DirectionField
