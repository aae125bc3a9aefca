import DirectionField.Proofs.CanonicalMeaning
import DirectionField.Proofs.CompileFailure
import DirectionField.Proofs.PointValue
import DirectionField.Proofs.ScanAppend

/-!
# Equations are composed from equations

A text in parentheses means what it means by itself: it is scanned to the same lexemes
(`Scans.of_scan`), and a derivation is not affected by a closing parenthesis behind it
(`Derives.append`). Two texts that compile, each in parentheses and with an operator between them,
therefore compile to the operator between their trees, and its value is the operation on their values
(`Equation.compile_between`).
-/

namespace DirectionField

/-! ## The grammar -/

/-- Nothing changes if a closing parenthesis and more follow. -/
theorem Derives.append {sig : Signature} {phrase : Phrase} {depth : Nat} {ls rest : List Lexeme}
    (h : Derives sig phrase depth ls rest) (more : List Lexeme) :
    Derives sig phrase depth (ls ++ .symbol .closing :: more)
      (rest ++ .symbol .closing :: more) := by
  induction h with
  | expression_term _ ih => exact .expression_term ih
  | expression_binary hop _ _ ihl ihr => exact .expression_binary hop ihl ihr
  | term_unary _ ih => exact .term_unary ih
  | term_binary hop _ _ ihl ihr => exact .term_binary hop ihl ihr
  | unary_signed _ ih => exact .unary_signed ih
  | unary_primary _ ih => exact .unary_primary ih
  | primary_number => exact .primary_number
  | @primary_variable _ rest hnext =>
    refine .primary_variable ?_
    cases rest with
    | nil => simp
    | cons l rest => exact hnext
  | primary_group _ ih => exact .primary_group ih
  | primary_call _ ih => exact .primary_call ih
  | call_arguments hvar harity _ ih => exact .call_arguments hvar harity ih
  | call_unary hvar hcallable hnext harity _ ih => exact .call_unary hvar hcallable hnext harity ih
  | @call_constant _ rest hvar hparen hnext harity =>
    -- neither an application nor an argument list starts with a closing parenthesis
    cases rest with
    | nil => exact .call_constant hvar (by simp) (fun _ l hl => by cases hl; decide) harity
    | cons l rest => exact .call_constant hvar hparen hnext harity
  | arguments_none => exact .arguments_none
  | arguments_list _ ih => exact .arguments_list ih
  | list_one _ ih => exact .list_one ih
  | list_cons _ _ ih ihs => exact .list_cons ih ihs

/-- The lexemes of two groups with an operator between them. -/
def BinaryOp.lexemesBetween (op : BinaryOp) (ls ls' : List Lexeme) : List Lexeme :=
  .symbol .opening :: (ls ++ .symbol .closing :: .symbol op.symbol :: .symbol .opening ::
    (ls' ++ [.symbol .closing]))

/-- An operator between two groups is one between their expressions, one level deeper. -/
theorem Derives.between {sig : Signature} {l r : Expr} {depth depth' : Nat} {ls ls' : List Lexeme}
    (h : Derives sig (.expression l) depth ls []) (h' : Derives sig (.expression r) depth' ls' [])
    (op : BinaryOp) : Derives sig (.expression (.binary op l r)) (max (depth + 1) (depth' + 1))
      (op.lexemesBetween ls ls') [] := by
  have hright : Derives sig (.primary r) (depth' + 1)
      (.symbol .opening :: (ls' ++ [.symbol .closing])) [] := .primary_group (h'.append [])
  have hleft : Derives sig (.primary l) (depth + 1) (op.lexemesBetween ls ls')
      (.symbol op.symbol :: .symbol .opening :: (ls' ++ [.symbol .closing])) :=
    .primary_group (h.append _)
  -- as the two sides are groups, it makes no difference at which level the operator stands
  by_cases hop : op.isAdditive = true
  · exact .expression_binary hop (Expr.expression_of_primary hleft) (.term_unary (.unary_primary hright))
  · exact .expression_term
      (.term_binary hop (.term_unary (.unary_primary hleft)) (.unary_primary hright))

/-! ## Texts -/

/-- The text of an operator between two texts in parentheses. -/
def BinaryOp.textBetween (op : BinaryOp) (a b : String) : String :=
  "(" ++ a ++ ") " ++ String.singleton op.char ++ " (" ++ b ++ ")"

/-- The characters of two texts with an operator between them. -/
theorem BinaryOp.toList_textBetween (op : BinaryOp) (a b : String) :
    (op.textBetween a b).toList = '(' :: (a.toList ++ (')' :: ' ' :: op.char :: ' ' :: '(' ::
      (b.toList ++ [')']))) := by
  simp [textBetween]

/-- The tokens of the texts are those of the whole, between the parentheses. -/
theorem BinaryOp.scan_textBetween (op : BinaryOp) {a b : String} {tokens tokens' : List Token}
    (ha : Token.scan a = .ok tokens) (hb : Token.scan b = .ok tokens') :
    ∃ whole, Token.scan (op.textBetween a b) = .ok whole ∧
      Token.lexemes whole = op.lexemesBetween (Token.lexemes tokens) (Token.lexemes tokens') := by
  have hclosing (rest : List Char) : Text.EndsAt Lexeme.isPart (')' :: rest) :=
    Text.EndsAt.cons (by decide) rest
  -- from the last piece to the first, each in front of what is behind it
  have hright : Scans ('(' :: (b.toList ++ [')']))
      (.symbol .opening :: (Token.lexemes tokens' ++ [.symbol .closing])) [] :=
    .symbol .opening ((Scans.of_scan hb (hclosing _)).append (.symbol .closing (.nil [])))
  have hblank : Text.isBlank ' ' = true := by decide
  have hop : Scans (op.char :: ' ' :: '(' :: (b.toList ++ [')']))
      (.symbol op.symbol :: .symbol .opening :: (Token.lexemes tokens' ++ [.symbol .closing])) [] := by
    rw [← BinaryOp.char_symbol]
    exact .symbol op.symbol (.blank hblank hright)
  have hwhole : Scans (op.textBetween a b).toList
      (op.lexemesBetween (Token.lexemes tokens) (Token.lexemes tokens')) [] := by
    rw [BinaryOp.toList_textBetween]
    exact .symbol .opening
      ((Scans.of_scan ha (hclosing _)).append (.symbol .closing (.blank hblank hop)))
  obtain ⟨whole, hlexemes, hscan⟩ := hwhole.exists_scan
  exact ⟨whole, hscan, hlexemes⟩

/-- The tokens write an expression in which at most so many signs, groups and applications are open
    at any place. -/
def Token.NestWithin (sig : Signature) (levels : Nat) (tokens : List Token) : Prop :=
  ∃ e, ∃ depth ≤ levels, Derives sig (.expression e) depth (Token.lexemes tokens) []

/-- Reading with a limit tells whether the limit is kept. -/
instance (sig : Signature) (levels : Nat) (tokens : List Token) :
    Decidable (Token.NestWithin sig levels tokens) :=
  decidable_of_iff ((Expr.expression (Expr.operandReader sig 0 levels) tokens).toOption.any
    (·.2.isEmpty) = true) (by
      unfold Token.NestWithin
      simp only [← Expr.expression_eq_ok_iff sig 0 levels tokens]
      cases Expr.expression (Expr.operandReader sig 0 levels) tokens with
      | error e => simp [Except.toOption]
      | ok p => simp [Except.toOption, Prod.ext_iff])

/-- If there is room for the parentheses and the operator, and for one level more, the whole is
    parsed to the operator between the trees of the texts. -/
theorem Expr.parse_textBetween {sig : Signature} {a b : String} {l r : Expr}
    {tokens tokens' : List Token} (ha : parse sig a = .ok l) (hb : parse sig b = .ok r)
    (hscan : Token.scan a = .ok tokens) (hscan' : Token.scan b = .ok tokens')
    (hnest : Token.NestWithin sig 99 tokens) (hnest' : Token.NestWithin sig 99 tokens')
    (hcount : tokens.length + tokens'.length ≤ 395) (op : BinaryOp) :
    parse sig (op.textBetween a b) = .ok (.binary op l r) := by
  -- the derivations that are not too deep are derivations of the trees of the texts
  have htree {text : String} {e : Expr} {ts : List Token} (hp : parse sig text = .ok e)
      (hs : Token.scan text = .ok ts) (hn : Token.NestWithin sig 99 ts) :
      ∃ depth ≤ 99, Derives sig (.expression e) depth (Token.lexemes ts) [] := by
    obtain ⟨ts', hs', _, _, _, _, hd⟩ := (parse_eq_ok_iff sig text e).1 hp
    obtain ⟨e', depth, hdepth, hd'⟩ := hn
    rw [hs] at hs'
    cases hs'
    obtain rfl := hd.expression_unique hd'
    exact ⟨depth, hdepth, hd'⟩
  -- the whole has five tokens and one level more than its two sides
  obtain ⟨depth, hdepth, hd⟩ := htree ha hscan hnest
  obtain ⟨depth', hdepth', hd'⟩ := htree hb hscan' hnest'
  obtain ⟨whole, hwhole, hlexemes⟩ := op.scan_textBetween hscan hscan'
  have hlength : whole.length = tokens.length + tokens'.length + 5 := by
    rw [← Token.length_lexemes, hlexemes]
    simp only [BinaryOp.lexemesBetween, List.length_cons, List.length_append, List.length_nil,
      Token.length_lexemes]
    omega
  refine (parse_eq_ok_iff _ _ _).2 ⟨whole, hwhole, by omega, by omega, max (depth + 1) (depth' + 1),
    by omega, ?_⟩
  rw [hlexemes]
  exact hd.between hd' op

/-! ## Equations -/

/-- On numbers, every implementation of the vocabulary gives a number or a fault of any kind. -/
def Vocabulary.GivesNumbers (v : Vocabulary Meaning) : Prop := v.NumericUpTo fun _ => True

namespace Equation

variable {v : Vocabulary Meaning}

/-- The trial evaluation succeeds if it comes to a single real number. -/
theorem checkValue_eq_ok_iff {tree : Expr} : checkValue v tree = .ok () ↔
    ∃ a, tree.eval v (.ofFloat 0.0) (.ofFloat 0.0) = .ok a ∧ a.isOneReal = true := by
  unfold checkValue
  cases tree.eval v (.ofFloat 0.0) (.ofFloat 0.0) with
  | error fault => simp
  | ok a => by_cases ha : a.isOneReal = true <;> simp [ha]

/-- The constants of two operands have values if those of each have. -/
theorem checkConstants_binary {l r : Expr} (hl : checkConstants v l = .ok ())
    (hr : checkConstants v r = .ok ()) (op : BinaryOp) :
    checkConstants v (.binary op l r) = .ok () := by
  unfold checkConstants at hl hr ⊢
  rw [Expr.constants, List.forM_eq_forM, List.forM_append, ← List.forM_eq_forM, hl]
  exact hr

/-- The origin is a point like any other: if both sides have numbers there, so has an operator
    between them. -/
theorem checkValue_binary (hv : v.GivesNumbers) {l r : Expr} (hl : checkValue v l = .ok ())
    (hr : checkValue v r = .ok ()) (op : BinaryOp) : checkValue v (.binary op l r) = .ok () := by
  obtain ⟨a, ha, _⟩ := checkValue_eq_ok_iff.1 hl
  obtain ⟨b, hb, _⟩ := checkValue_eq_ok_iff.1 hr
  obtain ⟨a, rfl⟩ := Expr.isNumber_of_eval hv (fun _ _ => trivial) ha
  obtain ⟨b, rfl⟩ := Expr.isNumber_of_eval hv (fun _ _ => trivial) hb
  exact checkValue_eq_ok_iff.2 ⟨_, Expr.eval_binary ha hb op, rfl⟩

/-- Two texts that compile, each in parentheses and with an operator between them, compile as long
    as they are neither too long nor nested too deeply. The tree is the operator between their
    trees, and at every point the value is the operation on their values; where one of them has a
    fault there is this fault, that of the first text before that of the second. -/
theorem compile_between (hv : v.GivesNumbers) {a b : String} {eqa eqb : Equation}
    {tokens tokens' : List Token} (ha : compile v a = .ok eqa) (hb : compile v b = .ok eqb)
    (hscan : Token.scan a = .ok tokens) (hscan' : Token.scan b = .ok tokens')
    (hnest : Token.NestWithin v.signature 99 tokens)
    (hnest' : Token.NestWithin v.signature 99 tokens')
    (hcount : tokens.length + tokens'.length ≤ 395) (op : BinaryOp) :
    ∃ eq, compile v (op.textBetween a b) = .ok eq ∧
      (∃ l r, Expr.parse v.signature a = .ok l ∧ Expr.parse v.signature b = .ok r ∧
        eq.tree = .binary op l r) ∧
      ∀ x y, eq.slope x y = do
        let r ← eqa.slope x y
        let s ← eqb.slope x y
        return op.apply r s := by
  obtain ⟨hla, hca, hva, hea⟩ := compile_eq_ok_iff.1 ha
  obtain ⟨hlb, hcb, hvb, heb⟩ := compile_eq_ok_iff.1 hb
  -- the text between the two writes the operator with the two trees, which is checked part by part
  have hparse := Expr.parse_textBetween hla hlb hscan hscan' hnest hnest' hcount op
  refine ⟨⟨op.textBetween a b, .binary op eqa.tree eqb.tree, v⟩, ?_, ⟨eqa.tree, eqb.tree, hla, hlb,
    rfl⟩, fun x y => ?_⟩
  · exact compile_eq_ok_iff.2
      ⟨hparse, checkConstants_binary hca hcb op, checkValue_binary hv hva hvb op, rfl⟩
  · rw [hea, heb]
    exact slope_binary hv (fun _ _ => trivial) op eqa.tree eqb.tree _ a b x y

/-- A square root that has no value for a negative number, with a fault that concerns more than a
    single slope. -/
def refusingRoot : Meaning
  | [.real ⟨[], get⟩] =>
    if get [] < 0.0 then .error (.raised .other "negative") else .ok (.ofFloat (get []).sqrt)
  | _ => .error (.raised .type "only one number at a time")

/-- The quotient of two texts with such roots, of which the second one is not a group by itself. -/
theorem compile_between_refusingRoot :
    let v : Vocabulary Meaning := ⟨[⟨"root", 1, refusingRoot, ""⟩], by simp⟩
    v.GivesNumbers ∧ ∃ eqa eqb eq, compile v "root(x)" = .ok eqa ∧
      compile v "root y - 1" = .ok eqb ∧ compile v "(root(x)) / (root y - 1)" = .ok eq ∧
      ∀ x y, eq.slope x y = do
        let r ← eqa.slope x y
        let s ← eqb.slope x y
        return r / s := by
  intro v
  have hv : v.GivesNumbers := by
    intro e he xs hlen
    rw [List.mem_singleton.1 he] at hlen ⊢
    obtain ⟨x, rfl⟩ := List.length_eq_one_iff.1 hlen
    show Meets _ _ (if x < 0.0 then _ else _)
    by_cases hx : x < 0.0
    · rw [if_pos hx]
      trivial
    · rw [if_neg hx]
      exact ⟨x.sqrt, rfl⟩
  -- both texts are compiled, and leave room for what stands around them
  have hfits (text : String) (h : ((compile v text).isOk &&
      (Token.scan text).toOption.any fun tokens =>
        decide (Token.NestWithin v.signature 99 tokens) && decide (tokens.length ≤ 100)) = true) :
      ∃ eq tokens, compile v text = .ok eq ∧ Token.scan text = .ok tokens ∧
        Token.NestWithin v.signature 99 tokens ∧ tokens.length ≤ 100 := by
    cases hcompile : compile v text with
    | error failure => rw [hcompile] at h; cases h
    | ok eq =>
      cases hscan : Token.scan text with
      | error e => rw [hscan, Bool.and_comm] at h; cases h
      | ok tokens =>
        rw [hcompile, hscan] at h
        simp only [Except.toOption, Option.any_some, Bool.and_eq_true, decide_eq_true_eq] at h
        exact ⟨eq, tokens, rfl, rfl, h.2⟩
  obtain ⟨eqa, tokens, ha, hscan, hnest, hcount⟩ := hfits "root(x)" (by decide +kernel)
  obtain ⟨eqb, tokens', hb, hscan', hnest', hcount'⟩ := hfits "root y - 1" (by decide +kernel)
  obtain ⟨eq, heq, _, hslope⟩ :=
    compile_between hv ha hb hscan hscan' hnest hnest' (by omega) .divide
  have htext : BinaryOp.divide.textBetween "root(x)" "root y - 1" = "(root(x)) / (root y - 1)" := by
    decide +kernel
  exact ⟨hv, eqa, eqb, eq, ha, hb, htext ▸ heq, hslope⟩

end Equation

end DirectionField
