import DirectionField.Proofs.ParseCorrect
import DirectionField.Proofs.ScanText

/-!
# The trees that are parsed

A tree that is parsed is made of what its text can hold (`Expr.Formed`): a literal is the value of a
numeral, a call has a name that is no variable and takes that many arguments.
-/

namespace DirectionField

/-- A tree over the names of a signature, as an equation can write it. -/
inductive Expr.Formed (sig : Signature) : Expr → Prop where
  | literal (n : Numeral) : Formed sig (.literal n.value)
  | var (v : Variable) : Formed sig (.var v)
  | signed {s e} (h : Formed sig e) : Formed sig (.signed s e)
  | binary {op l r} (hl : Formed sig l) (hr : Formed sig r) : Formed sig (.binary op l r)
  | call {name args} (hname : Lexeme.IsName name.toList) (hvar : ∀ v, Variable.name v ≠ name)
      (harity : args.length ∈ sig.arities name) (hargs : ∀ e ∈ args, Formed sig e) :
      Formed sig (.call name args)

/-- The expressions that a phrase consists of. -/
def Phrase.exprs : Phrase → List Expr
  | .expression e | .term e | .unary e | .primary e | .call e => [e]
  | .arguments es | .list es => es

namespace Derives

variable {sig : Signature} {phrase : Phrase} {depth : Nat} {ls rest : List Lexeme}

/-- What follows a phrase is the end of what it is in front of. -/
theorem suffix (h : Derives sig phrase depth ls rest) : rest <:+ ls := by
  -- by the derivation: a rule takes tokens of its own off, and its parts take theirs
  induction h with
  | expression_term _ ih => exact ih
  | expression_binary _ _ _ ihl ihr => exact ihr.trans ((List.suffix_cons _ _).trans ihl)
  | term_unary _ ih => exact ih
  | term_binary _ _ _ ihl ihr => exact ihr.trans ((List.suffix_cons _ _).trans ihl)
  | unary_signed _ ih => exact ih.trans (List.suffix_cons _ _)
  | unary_primary _ ih => exact ih
  | primary_number => exact List.suffix_cons _ _
  | primary_variable _ => exact List.suffix_cons _ _
  | primary_group _ ih =>
    exact ((List.suffix_cons _ _).trans ih).trans (List.suffix_cons _ _)
  | primary_call _ ih => exact ih
  | call_arguments _ _ _ ih =>
    exact ih.trans ((List.suffix_cons _ _).trans (List.suffix_cons _ _))
  | call_unary _ _ _ _ _ ih => exact ih.trans (List.suffix_cons _ _)
  | call_constant _ _ _ _ => exact List.suffix_cons _ _
  | arguments_none => exact List.suffix_cons _ _
  | arguments_list _ ih => exact (List.suffix_cons _ _).trans ih
  | list_one _ ih => exact ih
  | list_cons _ _ ih ihs => exact ihs.trans ((List.suffix_cons _ _).trans ih)

/-- What is derived from lexemes whose names are names is formed. -/
theorem formed (h : Derives sig phrase depth ls rest)
    (hls : ∀ cs, .name cs ∈ ls → Lexeme.IsName cs) : ∀ e ∈ phrase.exprs, e.Formed sig := by
  induction h with
  | expression_term _ ih => exact ih hls
  | expression_binary _ hl _ ihl ihr =>
    -- the lexemes of the right operand are among those in front of which the left one starts
    have hmid := (List.suffix_cons _ _).trans hl.suffix
    have hl' := ihl hls _ List.mem_cons_self
    have hr' := ihr (fun cs hcs => hls cs (hmid.subset hcs)) _ List.mem_cons_self
    exact List.forall_mem_singleton.2 (.binary hl' hr')
  | term_unary _ ih => exact ih hls
  | term_binary _ hl _ ihl ihr =>
    have hmid := (List.suffix_cons _ _).trans hl.suffix
    have hl' := ihl hls _ List.mem_cons_self
    have hr' := ihr (fun cs hcs => hls cs (hmid.subset hcs)) _ List.mem_cons_self
    exact List.forall_mem_singleton.2 (.binary hl' hr')
  | unary_signed _ ih =>
    have he := ih (fun cs hcs => hls cs (List.mem_cons_of_mem _ hcs)) _ List.mem_cons_self
    exact List.forall_mem_singleton.2 (.signed he)
  | unary_primary _ ih => exact ih hls
  | primary_number => exact List.forall_mem_singleton.2 (.literal _)
  | primary_variable _ => exact List.forall_mem_singleton.2 (.var _)
  | primary_group _ ih => exact ih (fun cs hcs => hls cs (List.mem_cons_of_mem _ hcs))
  | primary_call _ ih => exact ih hls
  | call_arguments hvar harity _ ih =>
    have hname := hls _ List.mem_cons_self
    have hargs := ih (fun cs hcs =>
      hls cs (List.mem_cons_of_mem _ (List.mem_cons_of_mem _ hcs)))
    exact List.forall_mem_singleton.2 (.call hname hvar harity hargs)
  | call_unary hvar _ _ harity _ ih =>
    have hname := hls _ List.mem_cons_self
    have hargs := ih (fun cs hcs => hls cs (List.mem_cons_of_mem _ hcs))
    exact List.forall_mem_singleton.2 (.call hname hvar harity hargs)
  | call_constant hvar _ _ harity =>
    have hname := hls _ List.mem_cons_self
    exact List.forall_mem_singleton.2 (.call hname hvar harity (fun _ h => nomatch h))
  | arguments_none => exact fun _ h => nomatch h
  | arguments_list _ ih => exact ih hls
  | list_one _ ih => exact ih hls
  | list_cons h _ ih ihs =>
    have hmid := (List.suffix_cons _ _).trans h.suffix
    have hes := ihs (fun cs hcs => hls cs (hmid.subset hcs))
    exact List.forall_mem_cons.2 ⟨ih hls _ List.mem_cons_self, hes⟩

end Derives

/-- What is parsed is formed. -/
theorem Expr.formed_of_parse {sig : Signature} {text : String} {e : Expr}
    (h : parse sig text = .ok e) : e.Formed sig := by
  obtain ⟨tokens, hscan, _, _, depth, _, hderives⟩ := (parse_eq_ok_iff sig text e).1 h
  exact hderives.formed (fun _ hmem => isName_of_scanFrom hscan hmem) e List.mem_cons_self

end DirectionField
