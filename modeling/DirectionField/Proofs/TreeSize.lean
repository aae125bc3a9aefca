import DirectionField.Proofs.FloatOrder
import DirectionField.Proofs.NumberText
import DirectionField.Proofs.ParsedTree
import DirectionField.Proofs.PointValue

/-!
# The size of a parsed tree

Every node of a tree that is parsed comes from a token of its own (`Derives.length_nodes_le`). From the
root to a leaf there are no more signs and applications than may be nested, and each of the other nodes
is an operator with one more token for its other operand (`Derives.branch_bounds`). So the limits on
tokens and on nesting bound the size and the height of a tree, and with them what is evaluated.

Nothing in a parsed tree is unknown to its vocabulary. Evaluation therefore never meets a call that the
vocabulary does not offer, unless an implementation itself says so (`Expr.signalled_of_eval_eq_unresolved`).
-/

namespace DirectionField

namespace Expr

mutual

/-- The nodes of a tree, each in front of those below it. -/
def nodes : Expr → List Expr
  | .literal r => [.literal r]
  | .var v => [.var v]
  | .signed s e => .signed s e :: nodes e
  | .binary op l r => .binary op l r :: (nodes l ++ nodes r)
  | .call name args => .call name args :: nodesList args

/-- The nodes of several trees. -/
def nodesList : List Expr → List Expr
  | [] => []
  | e :: es => nodes e ++ nodesList es

end

/-- The nodes from the root of a tree down to a leaf. -/
inductive Branch : Expr → List Expr → Prop where
  | literal (r : Float) : Branch (.literal r) [.literal r]
  | var (v : Variable) : Branch (.var v) [.var v]
  | constant (name : String) : Branch (.call name []) [.call name []]
  | signed {s e p} (h : Branch e p) : Branch (.signed s e) (.signed s e :: p)
  | left {op l r p} (h : Branch l p) : Branch (.binary op l r) (.binary op l r :: p)
  | right {op l r p} (h : Branch r p) : Branch (.binary op l r) (.binary op l r :: p)
  | argument {name args e p} (hmem : e ∈ args) (h : Branch e p) :
      Branch (.call name args) (.call name args :: p)

/-- Is the node a sign or a call with arguments? -/
def isApplied : Expr → Bool
  | .signed .. | .call _ (_ :: _) => true
  | _ => false

/-- A call with an argument is one with arguments. -/
theorem isApplied_call (name : String) {args : List Expr} {e : Expr} (he : e ∈ args) :
    (Expr.call name args).isApplied = true := by
  cases args with
  | nil => cases he
  | cons e' es => rfl

/-- A branch starts at the root. -/
theorem Branch.root_mem {e : Expr} {p : List Expr} (h : e.Branch p) : e ∈ p := by
  cases h with
  | literal | var | constant | signed | left | right | argument => exact List.mem_cons_self

/-- The nodes of arguments are those of each of them. -/
theorem mem_nodesList_iff {n : Expr} {es : List Expr} : n ∈ nodesList es ↔ ∃ e ∈ es, n ∈ e.nodes := by
  induction es with
  | nil => simp [nodesList]
  | cons e es ih => simp [nodesList, ih]

mutual

/-- There is a way down from the root of every tree. -/
theorem exists_branch : ∀ e : Expr, ∃ p, e.Branch p
  | .literal r => ⟨_, .literal r⟩
  | .var v => ⟨_, .var v⟩
  | .signed _ e => (exists_branch e).imp' _ fun _ h => .signed h
  | .binary _ l _ => (exists_branch l).imp' _ fun _ h => .left h
  | .call name [] => ⟨_, .constant name⟩
  | .call _ (e :: _) => (exists_branch e).imp' _ fun _ h => .argument List.mem_cons_self h

/-- There is a way down to a leaf below every node. -/
theorem exists_branch_of_mem_nodes {n : Expr} : ∀ e : Expr, n ∈ e.nodes → ∃ p, e.Branch p ∧ n ∈ p
  | .literal r, h => ⟨_, .literal r, h⟩
  | .var v, h => ⟨_, .var v, h⟩
  | .signed s e, h => by
    rcases List.mem_cons.1 h with rfl | h
    · -- the root is on every branch
      obtain ⟨p, hp⟩ := exists_branch e
      exact ⟨_, .signed hp, List.mem_cons_self⟩
    · obtain ⟨p, hp, hn⟩ := exists_branch_of_mem_nodes e h
      exact ⟨_, .signed hp, List.mem_cons_of_mem _ hn⟩
  | .binary op l r, h => by
    rcases List.mem_cons.1 h with rfl | h
    · obtain ⟨p, hp⟩ := exists_branch l
      exact ⟨_, .left hp, List.mem_cons_self⟩
    rcases List.mem_append.1 h with h | h
    · obtain ⟨p, hp, hn⟩ := exists_branch_of_mem_nodes l h
      exact ⟨_, .left hp, List.mem_cons_of_mem _ hn⟩
    · obtain ⟨p, hp, hn⟩ := exists_branch_of_mem_nodes r h
      exact ⟨_, .right hp, List.mem_cons_of_mem _ hn⟩
  | .call name args, h => by
    rcases List.mem_cons.1 h with rfl | h
    · obtain ⟨p, hp⟩ := exists_branch (.call name args)
      exact ⟨p, hp, hp.root_mem⟩
    · obtain ⟨e, he, p, hp, hn⟩ := exists_branch_of_mem_nodesList args h
      exact ⟨_, .argument he hp, List.mem_cons_of_mem _ hn⟩

/-- Each node of an argument is on a branch of one of them. -/
theorem exists_branch_of_mem_nodesList {n : Expr} :
    ∀ es : List Expr, n ∈ nodesList es → ∃ e ∈ es, ∃ p, e.Branch p ∧ n ∈ p
  | e :: es, h => by
    rcases List.mem_append.1 h with h | h
    · exact ⟨e, List.mem_cons_self, exists_branch_of_mem_nodes e h⟩
    · obtain ⟨e', he', h⟩ := exists_branch_of_mem_nodesList es h
      exact ⟨e', List.mem_cons_of_mem _ he', h⟩

end

/-- A single argument has its own nodes. -/
theorem nodesList_singleton (e : Expr) : nodesList [e] = e.nodes := List.append_nil _

/-- Every node of a formed tree is formed. -/
theorem Formed.of_mem_nodes {sig : Signature} {e n : Expr} (h : e.Formed sig) (hn : n ∈ e.nodes) :
    n.Formed sig := by
  -- along the tree: a node is the root, or a node of one of its parts
  induction h with
  | literal m =>
    rw [List.mem_singleton.1 hn]
    exact .literal m
  | var v =>
    rw [List.mem_singleton.1 hn]
    exact .var v
  | signed h ih =>
    rcases List.mem_cons.1 hn with rfl | hn
    · exact .signed h
    · exact ih hn
  | binary hl hr ihl ihr =>
    rcases List.mem_cons.1 hn with rfl | hn
    · exact .binary hl hr
    · exact (List.mem_append.1 hn).elim ihl ihr
  | call hname hvar harity hargs ih =>
    rcases List.mem_cons.1 hn with rfl | hn
    · exact .call hname hvar harity hargs
    · obtain ⟨e, he, hn⟩ := mem_nodesList_iff.1 hn
      exact ih e he hn

end Expr

/-! ## Size -/

namespace Derives

variable {sig : Signature} {phrase : Phrase} {depth : Nat} {ls rest : List Lexeme}

/-- There are no more nodes than lexemes. -/
theorem length_nodes_le (h : Derives sig phrase depth ls rest) :
    (Expr.nodesList phrase.exprs).length + rest.length ≤ ls.length := by
  -- a rule of the grammar makes one node at most, and only from a lexeme that it takes itself
  induction h with
  | expression_term _ ih | term_unary _ ih | unary_primary _ ih | primary_call _ ih
  | list_one _ ih => exact ih
  | expression_binary _ _ _ ihl ihr | term_binary _ _ _ ihl ihr =>
    simp only [Phrase.exprs, Expr.nodesList_singleton, Expr.nodes, List.length_cons,
      List.length_append] at ihl ihr ⊢
    omega
  | unary_signed _ ih | primary_group _ ih =>
    simp only [Phrase.exprs, Expr.nodesList_singleton, Expr.nodes, List.length_cons] at ih ⊢
    omega
  | primary_number | primary_variable _ =>
    simp only [Phrase.exprs, Expr.nodesList_singleton, Expr.nodes, List.length_cons, List.length_nil]
    omega
  | call_arguments _ _ _ ih | call_unary _ _ _ _ _ ih =>
    simp only [Phrase.exprs, Expr.nodesList_singleton, Expr.nodes, List.length_cons] at ih ⊢
    omega
  | call_constant _ _ _ _ | arguments_none =>
    simp only [Phrase.exprs, Expr.nodesList_singleton, Expr.nodes, Expr.nodesList, List.length_cons,
      List.length_nil]
    omega
  | arguments_list _ ih =>
    simp only [Phrase.exprs, List.length_cons] at ih ⊢
    omega
  | list_cons _ _ ih ihs =>
    simp only [Phrase.exprs, Expr.nodesList_singleton, Expr.nodesList, List.length_cons,
      List.length_append] at ih ihs ⊢
    omega

/-- From the root to a leaf there are no more signs and applications than the depth of the
    derivation, and two lexemes for each of the other nodes but the last one. -/
theorem branch_bounds (h : Derives sig phrase depth ls rest) :
    ∀ e ∈ phrase.exprs, ∀ p, e.Branch p → p.countP Expr.isApplied ≤ depth ∧
      2 * p.length + rest.length ≤ ls.length + p.countP Expr.isApplied + 1 := by
  induction h with
  | expression_term _ ih | term_unary _ ih | unary_primary _ ih | primary_call _ ih
  | list_one _ ih => exact ih
  | expression_binary _ hl hr ihl ihr | term_binary _ hl hr ihl ihr =>
    -- the other operand is at least one lexeme, and the operator is one
    have hl' := hl.length_lt
    have hr' := hr.length_lt
    refine List.forall_mem_singleton.2 fun p hp => ?_
    cases hp with
    | left hp =>
      have hb := ihl _ List.mem_cons_self _ hp
      simp only [List.length_cons, List.countP_cons, Expr.isApplied, Bool.false_eq_true,
        if_false] at hb hl' ⊢
      omega
    | right hp =>
      have hb := ihr _ List.mem_cons_self _ hp
      simp only [List.length_cons, List.countP_cons, Expr.isApplied, Bool.false_eq_true,
        if_false] at hb hl' ⊢
      omega
  | unary_signed _ ih =>
    refine List.forall_mem_singleton.2 fun p hp => ?_
    cases hp with
    | signed hp =>
      have hb := ih _ List.mem_cons_self _ hp
      simp only [List.length_cons, List.countP_cons, Expr.isApplied, if_true] at hb ⊢
      omega
  | primary_number | primary_variable _ =>
    refine List.forall_mem_singleton.2 fun p hp => ?_
    cases hp
    simp only [List.length_cons, List.countP_cons, Expr.isApplied, List.countP_nil, List.length_nil,
      Bool.false_eq_true, if_false]
    omega
  | primary_group _ ih =>
    -- parentheses use up nesting and lexemes, and add no node
    refine List.forall_mem_singleton.2 fun p hp => ?_
    have hb := ih _ List.mem_cons_self _ hp
    simp only [List.length_cons] at hb ⊢
    omega
  | @call_arguments name _ _ _ _ _ _ h ih =>
    have h' := h.length_lt
    refine List.forall_mem_singleton.2 fun p hp => ?_
    cases hp with
    | constant =>
      -- a call with empty parentheses is a leaf
      simp only [List.length_cons, List.countP_cons, Expr.isApplied, List.countP_nil,
        List.length_nil, Bool.false_eq_true, if_false]
      omega
    | argument he hp =>
      have hb := ih _ he _ hp
      have hcall := Expr.isApplied_call name he
      simp only [List.length_cons, List.countP_cons, hcall, if_true] at hb ⊢
      omega
  | call_unary _ _ _ _ _ ih =>
    refine List.forall_mem_singleton.2 fun p hp => ?_
    cases hp with
    | argument he hp =>
      have hb := ih _ he _ hp
      simp only [List.length_cons, List.countP_cons, Expr.isApplied, if_true] at hb ⊢
      omega
  | call_constant _ _ _ _ =>
    refine List.forall_mem_singleton.2 fun p hp => ?_
    cases hp with
    | constant =>
      simp only [List.length_cons, List.countP_cons, Expr.isApplied, List.countP_nil,
        List.length_nil, Bool.false_eq_true, if_false]
      omega
    | argument he _ => cases he
  | arguments_none => exact fun _ h => nomatch h
  | arguments_list _ ih =>
    intro e he p hp
    have hb := ih e he p hp
    simp only [List.length_cons] at hb
    omega
  | list_cons h hs ih ihs =>
    refine List.forall_mem_cons.2 ⟨fun p hp => ?_, fun e he p hp => ?_⟩
    · have hb := ih _ List.mem_cons_self _ hp
      have hs' := hs.suffix.length_le
      simp only [List.length_cons] at hb
      omega
    · have hb := ihs e he p hp
      have h' := h.suffix.length_le
      simp only [List.length_cons] at h'
      omega

end Derives

/-! ## Nodes -/

/-- The value of a numeral is not below zero. -/
theorem Numeral.zero_le_value (n : Numeral) : 0 ≤ n.value := by
  have hle := n.decimal.toBits_le
  have hmag : magnitudeBits n.value = n.decimal.toBits := magnitudeBits_floatOfMagnitude false hle
  have hsign : signBit n.value = false := signBit_floatOfMagnitude false hle
  have hzero : rank 0 = 0 := by decide +kernel
  rw [le_iff_rank (by decide +kernel) (hmag ▸ hle), hzero]
  unfold rank
  rw [hsign, if_neg Bool.false_ne_true]
  omega

/-- No numeral is read as a NaN. -/
theorem Numeral.isNaN_value (n : Numeral) : n.value.isNaN = false := by
  have hle := (magnitudeBits_le_of_le n.zero_le_value).2
  rw [← Bool.not_eq_true, isNaN_iff]
  omega

/-- The faults of an evaluation where every call is one that the vocabulary offers. -/
inductive Vocabulary.EvaluationFault (v : Vocabulary Meaning) : Fault → Prop where
  | signalled {entry : Entry Meaning} {args : List Value} {fault : Fault}
      (hmem : entry ∈ v.entries) (h : entry.meaning args = .error fault) : EvaluationFault v fault
  /-- A constant that is a single complex number. -/
  | notOneReal : EvaluationFault v .notOneReal
  /-- Operands whose shapes do not fit together. -/
  | operandShapes (s t : List Nat) : EvaluationFault v (.operandShapes s t)

namespace Expr

variable {v : Vocabulary Meaning}

/-- A constant of the vocabulary has a value or a fault that evaluation may come to. -/
theorem meets_constantValue_of_mem {name : String} (h : 0 ∈ v.signature.arities name) :
    Meets (fun _ => True) v.EvaluationFault (constantValue v name) := by
  obtain ⟨entry, hentry⟩ := Vocabulary.exists_resolve?_of_mem_arities h
  obtain ⟨hmem, _, _⟩ := Vocabulary.mem_of_resolve? hentry
  unfold constantValue
  rw [hentry]
  dsimp only
  cases hm : entry.meaning [] with
  | error fault => exact .signalled hmem hm
  | ok value =>
    cases value with
    | real b => trivial
    | complex b =>
      show Meets _ _ (if _ then _ else _)
      split
      · exact .notOneReal
      · trivial

/-- Operators fail for shapes that do not fit, and for nothing else. -/
theorem meets_binaryValue (op : BinaryOp) (a b : Value) :
    Meets (fun _ => True) v.EvaluationFault (binaryValue op a b) := by
  have hzip (f : Float → Float → Float) (g : Complex → Complex → Complex) :
      Meets (fun _ => True) v.EvaluationFault (Value.zipWith f g a b) := by
    cases h : Value.zipWith f g a b with
    | ok value => trivial
    | error fault =>
      obtain ⟨s, t, rfl⟩ := Value.fault_of_zipWith h
      exact .operandShapes s t
  cases op with
  | add => exact hzip (· + ·) (· + ·)
  | subtract => exact hzip (· - ·) (· - ·)
  | multiply => exact hzip (· * ·) (· * ·)
  | divide => exact hzip (· / ·) (· / ·)

mutual

/-- Of an expression whose calls the vocabulary offers, evaluation fails with a fault of an
    implementation, or because operands do not fit together or a constant is complex. -/
theorem meets_eval_of_formed (x y : Value) : ∀ e : Expr, e.Formed v.signature →
    Meets (fun _ => True) v.EvaluationFault (e.eval v x y)
  | .literal _, _ | .var .x, _ | .var .y, _ => trivial
  | .signed s e, .signed h => by
    unfold eval
    exact (meets_eval_of_formed x y e h).bind fun _ _ => trivial
  | .binary op l r, .binary hl hr => by
    unfold eval
    refine (meets_eval_of_formed x y l hl).bind fun a _ => ?_
    refine (meets_eval_of_formed x y r hr).bind fun b _ => ?_
    exact meets_binaryValue op a b
  | .call name [], .call _ _ harity _ => meets_constantValue_of_mem harity
  | .call name (e :: es), .call _ _ harity hargs => by
    -- the call is one of the vocabulary, and so its own fault is one that is signalled
    obtain ⟨entry, hentry⟩ := Vocabulary.exists_resolve?_of_mem_arities harity
    obtain ⟨hmem, _, _⟩ := Vocabulary.mem_of_resolve? hentry
    unfold eval
    rw [List.length_cons] at hentry
    rw [hentry]
    refine (meets_eval_of_formed x y e (hargs e List.mem_cons_self)).bind fun a _ => ?_
    have hes (e' : Expr) (he' : e' ∈ es) := hargs e' (List.mem_cons_of_mem _ he')
    refine (meets_evalList_of_formed x y es hes).bind fun as _ => ?_
    cases hm : entry.meaning (a :: as) with
    | error fault => exact .signalled hmem hm
    | ok value => trivial

/-- Arguments over the vocabulary have values, or there is such a fault. -/
theorem meets_evalList_of_formed (x y : Value) : ∀ es : List Expr,
    (∀ e ∈ es, e.Formed v.signature) →
    Meets (fun _ => True) v.EvaluationFault (evalList v x y es)
  | [], _ => trivial
  | e :: es, h => by
    unfold evalList
    refine (meets_eval_of_formed x y e (h e List.mem_cons_self)).bind fun a _ => ?_
    have hes (e' : Expr) (he' : e' ∈ es) := h e' (List.mem_cons_of_mem _ he')
    exact (meets_evalList_of_formed x y es hes).bind fun _ _ => trivial

end

/-- The call that an evaluation does not find is one that an implementation speaks of. -/
theorem signalled_of_eval_eq_unresolved {e : Expr} (he : e.Formed v.signature) {x y : Value}
    {name : String} {given : Nat} (h : e.eval v x y = .error (.unresolved name given)) :
    ∃ entry ∈ v.entries, ∃ args, entry.meaning args = .error (.unresolved name given) := by
  have hmeets := meets_eval_of_formed x y e he
  rw [h] at hmeets
  cases hmeets with
  | signalled hmem h => exact ⟨_, hmem, _, h⟩

/-! ## Parsed trees -/

/-- What a tree may consist of over a vocabulary: operators and signs that have a character,
    literals that are not below zero, and calls that the vocabulary offers. -/
def IsBuildable (v : Vocabulary Meaning) : Expr → Prop
  | .literal r => 0 ≤ r ∧ r.isNaN = false
  | .var w => w.name = "x" ∨ w.name = "y"
  | .signed s _ => s.char ∈ ['+', '-']
  | .binary op _ _ => op.char ∈ ['+', '-', '*', '/']
  | .call name args => ∃ entry ∈ v.entries, v.resolve? name args.length = some entry

/-- Nodes over the vocabulary can be built. -/
theorem Formed.isBuildable {n : Expr} (h : n.Formed v.signature) : n.IsBuildable v := by
  cases h with
  | literal m => exact ⟨m.zero_le_value, m.isNaN_value⟩
  | var w => cases w <;> simp [IsBuildable, Variable.name]
  | @signed s => cases s <;> simp [IsBuildable, Sign.char]
  | @binary op => cases op <;> simp [IsBuildable, BinaryOp.char]
  | call _ _ harity _ =>
    obtain ⟨entry, hentry⟩ := Vocabulary.exists_resolve?_of_mem_arities harity
    exact ⟨entry, (Vocabulary.mem_of_resolve? hentry).1, hentry⟩

/-- Over any vocabulary, a tree that is parsed has no more nodes than its text has tokens, which are
    at most 400. From its root to a leaf there are at most 100 signs and applications and at most
    250 nodes. Each node is one that has a meaning, and to evaluate it never needs a call that the
    vocabulary does not offer, unless an implementation says so itself. -/
theorem parse_bounds_tree {text : String} {t : Expr} (h : parse v.signature text = .ok t) :
    (∃ tokens, Token.scan text = .ok tokens ∧ t.nodes.length ≤ tokens.length ∧
      tokens.length ≤ 400) ∧
    (∀ p, t.Branch p → p.countP isApplied ≤ 100 ∧ p.length ≤ 250) ∧
    ∀ n ∈ t.nodes, n.IsBuildable v ∧ ∀ x y name given,
      n.eval v x y = .error (.unresolved name given) →
        ∃ entry ∈ v.entries, ∃ args, entry.meaning args = .error (.unresolved name given) := by
  have hformed := formed_of_parse h
  obtain ⟨tokens, hscan, hpos, hlimit, depth, hdepth, hderives⟩ := (parse_eq_ok_iff _ _ _).1 h
  have hlength : (Token.lexemes tokens).length = tokens.length := List.length_map _
  refine ⟨⟨tokens, hscan, ?_, hlimit⟩, fun p hp => ?_, fun n hn => ?_⟩
  · have hnodes := hderives.length_nodes_le
    rw [Phrase.exprs, nodesList_singleton, hlength] at hnodes
    exact hnodes
  · obtain ⟨hcount, hbranch⟩ := hderives.branch_bounds t List.mem_cons_self p hp
    rw [hlength, List.length_nil] at hbranch
    -- twice the nodes are at most the 400 tokens, the 100 applications and one
    omega
  · have hn' := hformed.of_mem_nodes hn
    exact ⟨hn'.isBuildable, fun x y name given => signalled_of_eval_eq_unresolved hn'⟩

/-- An equation with all kinds of nodes. -/
theorem parse_bounds_tree_standard :
    let v := Vocabulary.standard Elementary.native
    ∃ t, parse v.signature "1 - pow(-x, 2) / sin y * pi" = .ok t ∧
      (∃ tokens, Token.scan "1 - pow(-x, 2) / sin y * pi" = .ok tokens ∧
        t.nodes.length ≤ tokens.length ∧ tokens.length ≤ 400) ∧
      (∀ p, t.Branch p → p.countP isApplied ≤ 100 ∧ p.length ≤ 250) ∧
      ∀ n ∈ t.nodes, n.IsBuildable v ∧ ∀ x y name given,
        n.eval v x y = .error (.unresolved name given) →
          ∃ entry ∈ v.entries, ∃ args, entry.meaning args = .error (.unresolved name given) := by
  intro v
  have hok : (parse v.signature "1 - pow(-x, 2) / sin y * pi").isOk = true := by decide +kernel
  cases h : parse v.signature "1 - pow(-x, 2) / sin y * pi" with
  | error e =>
    rw [h] at hok
    cases hok
  | ok t => exact ⟨t, rfl, parse_bounds_tree h⟩

end Expr

end DirectionField
