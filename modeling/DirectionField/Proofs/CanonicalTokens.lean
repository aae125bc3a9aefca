import Mathlib.Data.List.Forall2
import DirectionField.Proofs.CanonicalText

/-!
# The tokens of the canonical text

An equation and its canonical text have the same tokens in the same order, apart from parentheses and from
the layout of numbers. The grammar passes the tokens on one by one: whatever a phrase is written with, its
canonical lexemes are the same without parentheses (`Derives.printed`). The exception are numerals beyond
the finite numbers, which the canonical text writes as the name `inf`
(`Expr.canonical_tokens_same_iff`).
-/

namespace DirectionField

/-! ## Lexemes -/

namespace Lexeme

/-- Is the lexeme one of the two parentheses? -/
def isParenthesis : Lexeme → Bool
  | .symbol .opening | .symbol .closing => true
  | _ => false

/-- The lexemes other than parentheses. -/
def bare (ls : List Lexeme) : List Lexeme := ls.filter (!·.isParenthesis)

/-- The same but for the layout of a number. -/
inductive SameAs : Lexeme → Lexeme → Prop where
  | number {n m : Numeral} (hvalue : m.value = n.value) : SameAs (.number n) (.number m)
  | name (cs : List Char) : SameAs (.name cs) (.name cs)
  | symbol (s : Symbol) : SameAs (.symbol s) (.symbol s)

/-- How a lexeme stands in the canonical text. -/
inductive PrintedAs : Lexeme → Lexeme → Prop where
  | number {n m : Numeral} (hfinite : n.value.isFinite = true) (hvalue : m.value = n.value) :
      PrintedAs (.number n) (.number m)
  | infinite {n : Numeral} (hfinite : n.value.isFinite = false) :
      PrintedAs (.number n) (.name ['i', 'n', 'f'])
  | name (cs : List Char) : PrintedAs (.name cs) (.name cs)
  | symbol (s : Symbol) : PrintedAs (.symbol s) (.symbol s)

variable {ls ls' : List Lexeme}

@[simp] theorem bare_nil : bare [] = [] := rfl

@[simp] theorem bare_append (ls ls' : List Lexeme) : bare (ls ++ ls') = bare ls ++ bare ls' :=
  List.filter_append ..

@[simp] theorem bare_name (cs : List Char) (ls : List Lexeme) :
    bare (.name cs :: ls) = .name cs :: bare ls := rfl

@[simp] theorem bare_opening (ls : List Lexeme) : bare (.symbol .opening :: ls) = bare ls := rfl

@[simp] theorem bare_closing (ls : List Lexeme) : bare (.symbol .closing :: ls) = bare ls := rfl

@[simp] theorem bare_comma (ls : List Lexeme) :
    bare (.symbol .comma :: ls) = .symbol .comma :: bare ls := rfl

@[simp] theorem bare_operator (op : BinaryOp) (ls : List Lexeme) :
    bare (.symbol op.symbol :: ls) = .symbol op.symbol :: bare ls := by
  cases op <;> rfl

@[simp] theorem bare_sign (s : Sign) (ls : List Lexeme) :
    bare (.symbol s.symbol :: ls) = .symbol s.symbol :: bare ls := by
  cases s <;> rfl

/-- No number is a parenthesis. -/
theorem number_mem_bare_iff {n : Numeral} : .number n ∈ bare ls ↔ .number n ∈ ls := by
  simp [bare, isParenthesis]

/-- What is printed is the same unless it is an infinite number. -/
theorem PrintedAs.sameAs_iff {l l' : Lexeme} (h : PrintedAs l l') :
    SameAs l l' ↔ ∀ n, l = .number n → n.value.isFinite = true := by
  cases h with
  | number hfinite hvalue =>
    constructor
    · rintro _ n ⟨⟩
      exact hfinite
    · intro _
      exact .number hvalue
  | @infinite n hinfinite =>
    constructor
    · intro h
      cases h
    · intro h
      rw [h n rfl] at hinfinite
      cases hinfinite
  | name cs => exact ⟨nofun, fun _ => .name cs⟩
  | symbol s => exact ⟨nofun, fun _ => .symbol s⟩

/-- Numerals of the same value are the same lexemes if the value is finite, which printing keeps. -/
theorem forall₂_sameAs_iff (h : List.Forall₂ PrintedAs ls ls') :
    List.Forall₂ SameAs ls ls' ↔ ∀ n, .number n ∈ ls → n.value.isFinite = true := by
  induction h with
  | nil => simp
  | cons hl _ ih =>
    rw [List.forall₂_cons, ih, hl.sameAs_iff]
    simp only [List.mem_cons, or_imp, forall_and, eq_comm]

end Lexeme

/-! ## Phrases -/

open Lexeme

/-- The lexemes of arguments with commas between them. -/
def Expr.listLexemes : List Expr → List Lexeme
  | [] => []
  | e :: es => e.canonicalLexemes ++ argumentLexemes es

/-- The canonical lexemes of a phrase. -/
def Phrase.canonicalLexemes : Phrase → List Lexeme
  | .expression e | .term e | .unary e | .primary e | .call e => e.canonicalLexemes
  | .arguments es | .list es => Expr.listLexemes es

/-- A number is printed as a number or, beyond the finite ones, as a name. -/
theorem Expr.printedAs_literal (n : Numeral) :
    ∃ l, (Expr.literal n.value).canonicalLexemes = [l] ∧ bare [l] = [l] ∧ PrintedAs (.number n) l := by
  cases hfinite : n.value.isFinite with
  | true =>
    obtain ⟨m, _, _, hvalue, hlexemes⟩ := Expr.exists_canonicalLexemes_literal n hfinite
    exact ⟨.number m, hlexemes, rfl, .number hfinite hvalue⟩
  | false =>
    obtain ⟨_, hlexemes⟩ := Expr.canonicalLexemes_of_not_isFinite n hfinite
    exact ⟨.name ['i', 'n', 'f'], hlexemes, rfl, .infinite hfinite⟩

/-- A call is its name and its arguments. -/
theorem Expr.bare_call (name : String) (es : List Expr) :
    bare (Expr.call name es).canonicalLexemes =
      .name name.toList :: bare (listLexemes es) := by
  cases es with
  | nil => rfl
  | cons e es => simp [canonicalLexemes, listLexemes]

/-- Apart from parentheses, the lexemes that write a phrase are printed one by one, if those behind
    them are. -/
theorem Derives.printed {sig : Signature} {phrase : Phrase} {d : Nat} {ls rest out : List Lexeme}
    (h : Derives sig phrase d ls rest) (hrest : List.Forall₂ PrintedAs (bare rest) out) :
    List.Forall₂ PrintedAs (bare ls) (bare phrase.canonicalLexemes ++ out) := by
  induction h generalizing out with
  | expression_term _ ih | term_unary _ ih | unary_primary _ ih | primary_call _ ih => exact ih hrest
  | @expression_binary op l r _ _ _ mid _ _ _ _ ihl ihr | @term_binary op l r _ _ _ mid _ _ _ _ ihl ihr =>
    -- behind the left operand stand the operator and the right one
    have hmid : List.Forall₂ PrintedAs (bare (.symbol op.symbol :: mid))
        (.symbol op.symbol :: (bare r.canonicalLexemes ++ out)) := by
      rw [bare_operator]
      exact .cons (.symbol _) (ihr hrest)
    simpa [Phrase.canonicalLexemes, Expr.canonicalLexemes] using ihl hmid
  | @unary_signed s e _ ls _ _ ih =>
    have hsigned : List.Forall₂ PrintedAs (.symbol s.symbol :: bare ls)
        (.symbol s.symbol :: (bare e.canonicalLexemes ++ out)) := .cons (.symbol _) (ih hrest)
    simpa [Phrase.canonicalLexemes, Expr.canonicalLexemes] using hsigned
  | @primary_number n _ =>
    obtain ⟨l, hlexemes, hbare, hprinted⟩ := Expr.printedAs_literal n
    rw [Phrase.canonicalLexemes, hlexemes, hbare]
    exact .cons hprinted hrest
  | primary_variable _ | call_constant => exact .cons (.name _) hrest
  | primary_group _ ih | arguments_list _ ih => exact ih hrest
  | call_arguments _ _ _ ih =>
    rw [Phrase.canonicalLexemes, Expr.bare_call, bare_name, bare_opening]
    exact .cons (.name _) (ih hrest)
  | @call_unary name e _ l ls _ _ _ _ _ _ ih =>
    rw [Phrase.canonicalLexemes, Expr.bare_call, bare_name, Expr.listLexemes, Expr.argumentLexemes,
      List.append_nil]
    exact .cons (.name _) (ih hrest)
  | arguments_none => exact hrest
  | list_one _ ih =>
    rw [Phrase.canonicalLexemes, Expr.listLexemes, Expr.argumentLexemes, List.append_nil]
    exact ih hrest
  | @list_cons e es _ _ _ mid _ _ hes ih ihs =>
    -- there is another argument behind the comma
    cases es with
    | nil => cases hes
    | cons d ds =>
      have hmid : List.Forall₂ PrintedAs (bare (.symbol .comma :: mid))
          (.symbol .comma :: (bare (Expr.listLexemes (d :: ds)) ++ out)) := by
        rw [bare_comma]
        exact .cons (.symbol _) (ihs hrest)
      simpa [Phrase.canonicalLexemes, Expr.listLexemes, Expr.argumentLexemes] using ih hmid

/-! ## Equations -/

namespace Expr

/-- The canonical text of an equation is scanned to the tokens of the equation, apart from
    parentheses and layout. There are as many tokens in the same order, and they are of the same
    kind with the same name, symbol or value if and only if the equation has no numeral beyond the
    finite numbers. Such a numeral becomes the name `inf`, and nothing else changes. -/
theorem canonical_tokens_same_iff {α : Type} (v : Vocabulary α) {text : String} {t : Expr}
    (ht : parse v.signature text = .ok t) :
    ∃ tokens tokens', Token.scan text = .ok tokens ∧ Token.scan t.canonical = .ok tokens' ∧
      (bare (Token.lexemes tokens')).length = (bare (Token.lexemes tokens)).length ∧
      List.Forall₂ PrintedAs (bare (Token.lexemes tokens)) (bare (Token.lexemes tokens')) ∧
      (List.Forall₂ SameAs (bare (Token.lexemes tokens)) (bare (Token.lexemes tokens')) ↔
        ∀ n, .number n ∈ Token.lexemes tokens → n.value.isFinite = true) := by
  obtain ⟨tokens, hscan, _, _, _, _, hderives⟩ := (parse_eq_ok_iff v.signature text t).1 ht
  obtain ⟨tokens', hlexemes, hscan'⟩ := (formed_of_parse ht).scan_canonical
  have hprinted := hderives.printed .nil
  rw [Phrase.canonicalLexemes, List.append_nil, ← hlexemes] at hprinted
  refine ⟨tokens, tokens', hscan, hscan', hprinted.length_eq.symm, hprinted, ?_⟩
  rw [forall₂_sameAs_iff hprinted]
  simp only [number_mem_bare_iff]

/-- An equation with implicit application, an empty list of arguments and numbers that are printed
    in another layout keeps its tokens. -/
theorem canonical_tokens_same_standard :
    let text := "-sin x*2.50 + pow(y, 1e16)/pi()"
    ∃ t tokens tokens', parse (Vocabulary.standard .native).signature text = .ok t ∧
      t.canonical = "(((-sin(x)) * 2.5) + (pow(y, 1e+16) / pi))" ∧
      Token.scan text = .ok tokens ∧ Token.scan t.canonical = .ok tokens' ∧
      List.Forall₂ SameAs (bare (Token.lexemes tokens)) (bare (Token.lexemes tokens')) := by
  intro text
  have hcanonical : (parse (Vocabulary.standard .native).signature text).toOption.map canonical =
      some "(((-sin(x)) * 2.5) + (pow(y, 1e+16) / pi))" := by
    decide +kernel
  -- all numerals of the text are finite
  have hfinite : (Token.scan text).toOption.all (fun tokens => (Token.lexemes tokens).all fun
      | .number n => n.value.isFinite
      | _ => true) = true := by
    decide +kernel
  cases ht : parse (Vocabulary.standard .native).signature text with
  | error e => rw [ht] at hcanonical; cases hcanonical
  | ok t =>
    rw [ht] at hcanonical
    obtain ⟨tokens, tokens', hscan, hscan', _, _, hsame⟩ := canonical_tokens_same_iff _ ht
    rw [hscan] at hfinite
    have hall := List.all_eq_true.1 hfinite
    exact ⟨t, tokens, tokens', rfl, Option.some.inj hcanonical, hscan, hscan',
      hsame.2 fun n hn => hall _ hn⟩

/-- A numeral beyond the finite numbers becomes a name. -/
theorem canonical_tokens_infinite :
    ∃ t n, parse (Vocabulary.standard .native).signature "1e999" = .ok t ∧
      Token.scan "1e999" = .ok [⟨.number n, 0⟩] ∧
      Token.scan t.canonical = .ok [⟨.name ['i', 'n', 'f'], 0⟩] ∧
      ¬ List.Forall₂ SameAs (bare [.number n]) (bare [.name ['i', 'n', 'f']]) := by
  have hscan : Token.scan "1e999" =
      .ok [⟨.number ⟨['1'], none, some ⟨'e', none, ['9', '9', '9']⟩⟩, 0⟩] := by
    decide +kernel
  have hscan' : (parse (Vocabulary.standard .native).signature "1e999").toOption.map
      (fun t => Token.scan t.canonical) = some (.ok [⟨.name ['i', 'n', 'f'], 0⟩]) := by
    decide +kernel
  cases ht : parse (Vocabulary.standard .native).signature "1e999" with
  | error e => rw [ht] at hscan'; cases hscan'
  | ok t =>
    rw [ht] at hscan'
    refine ⟨t, _, rfl, hscan, Option.some.inj hscan', fun h => ?_⟩
    cases h with
    -- a numeral is not the same as a name
    | cons hsame _ => cases hsame

end Expr

end DirectionField
