import DirectionField.Proofs.ErrorPosition
import DirectionField.Proofs.VocabularyLookup

/-!
# Reading is the grammar

`Expr.read` finds an expression for exactly the texts that the grammar of `Grammar` gives one, within
the limits on the number of tokens and on nesting, and it finds exactly that expression
(`Expr.read_iff_write`). All other texts are refused with a problem of the equation, but for those that
are refused because of a number that is too long to be written.
-/

namespace DirectionField

/-- A row of tokens writes an expression: it has a derivation from the grammar, neither the row
    is too long, nor are too many signs, groups and applications open at any place of the
    derivation. -/
def Token.Write (sig : Signature) (tokens : List Token) (e : Expr) : Prop :=
  1 ≤ tokens.length ∧ tokens.length ≤ 400 ∧
    ∃ depth ≤ 100, Derives sig (.expression e) depth (Token.lexemes tokens) []

namespace Expr

/-- A whole expression is read if and only if it has a derivation within the levels. -/
theorem expression_eq_ok_iff (sig : Signature) (stop levels : Nat) (tokens : List Token) (e : Expr) :
    expression (operandReader sig stop levels) tokens = .ok (e, []) ↔
      ∃ depth ≤ levels, Derives sig (.expression e) depth (Token.lexemes tokens) [] := by
  constructor
  · intro h
    exact expression_sound (operandReader_sound sig stop levels) _ _ _ h
  · rintro ⟨depth, hd, h⟩
    obtain ⟨rest, hrest, h⟩ := accepts_of_derives h stop levels hd tokens rfl
    obtain rfl : rest = [] := List.map_eq_nil_iff.1 hrest
    exact h.expression (by simp)

/-- Tokens are read as an expression if they write it. -/
theorem ofTokens_eq_ok_iff (sig : Signature) (stop : Nat) (tokens : List Token) (e : Expr) :
    ofTokens sig stop tokens = .ok e ↔ Token.Write sig tokens e := by
  unfold ofTokens Token.Write
  by_cases hlen : tokens.length ≤ tokenLimit
  · rw [List.getElem?_eq_none hlen]
    cases tokens with
    | nil => simp
    | cons t ts =>
      have hpos : 1 ≤ (t :: ts).length := by simp
      rw [← expression_eq_ok_iff sig stop 100]
      simp only [List.isEmpty_cons, Bool.false_eq_true, if_false, Except.bind_eq_ok_iff]
      constructor
      · rintro ⟨⟨e', rest⟩, he, h⟩
        cases rest with
        | nil => cases h; exact ⟨hpos, hlen, he⟩
        | cons r rest =>
          dsimp only at h
          split at h <;> cases h
      · rintro ⟨_, _, he⟩
        exact ⟨(e, []), he, rfl⟩
  · rw [List.getElem?_eq_getElem (by omega)]
    constructor
    · intro h; cases h
    · rintro ⟨_, h, _⟩
      exact absurd h hlen

/-- A text is parsed as an expression if its tokens write it. -/
theorem parse_eq_ok_iff (sig : Signature) (text : String) (e : Expr) :
    parse sig text = .ok e ↔ ∃ tokens, Token.scan text = .ok tokens ∧ Token.Write sig tokens e := by
  unfold parse
  rw [Except.bind_eq_ok_iff]
  simp only [ofTokens_eq_ok_iff]

/-- What is wrong with the number of arguments of a call takes a name of the vocabulary that stands
    in the text and takes a number of arguments that is too long to be written. -/
theorem Unreportable.exists_entry {α : Type} {v : Vocabulary α} {text : String}
    (h : Unreportable v.signature text) :
    ∃ entry ∈ v.entries, NumberText.isTooLong entry.arity = true ∧
      ∃ tokens, Token.scan text = .ok tokens ∧ .name entry.name.toList ∈ Token.lexemes tokens := by
  obtain ⟨tokens, name, hscan, hname, n, hn, hlong⟩ := h.exists_name
  obtain ⟨entry, hentry, rfl, rfl⟩ := (v.mem_arities_iff name n).1 hn
  exact ⟨entry, hentry, hlong, tokens, hscan, hname⟩

/-- Over any vocabulary, a text is read as an expression if and only if its tokens write the
    expression. Every other text is refused with a problem of the equation, unless it is
    unreportable, and then there is a fault instead. This takes a name in the text with a number of
    arguments that is too long to be written. -/
theorem read_iff_write {α : Type} (v : Vocabulary α) (text : String) :
    (∀ e, read v.signature text = .ok e ↔
      ∃ tokens, Token.scan text = .ok tokens ∧ Token.Write v.signature tokens e) ∧
    ((∃ message position,
        read v.signature text = .error (.problem (.equation message position))) ↔
      (¬ ∃ e tokens, Token.scan text = .ok tokens ∧ Token.Write v.signature tokens e) ∧
        ¬ Unreportable v.signature text) ∧
    (Unreportable v.signature text →
      read v.signature text = .error (.fault (.integerTooLong NumberText.digitLimit)) ∧
      (¬ ∃ e tokens, Token.scan text = .ok tokens ∧ Token.Write v.signature tokens e) ∧
      ∃ entry ∈ v.entries, NumberText.isTooLong entry.arity = true ∧
        ∃ tokens, Token.scan text = .ok tokens ∧
          .name entry.name.toList ∈ Token.lexemes tokens) := by
  have hok (e : Expr) : read v.signature text = .ok e ↔
      ∃ tokens, Token.scan text = .ok tokens ∧ Token.Write v.signature tokens e := by
    rw [read, Except.mapError_eq_ok_iff, parse_eq_ok_iff]
  -- a text that is refused in either way has no derivation
  have hnone {failure : Failure} (h : read v.signature text = .error failure) :
      ¬ ∃ e tokens, Token.scan text = .ok tokens ∧ Token.Write v.signature tokens e := by
    rintro ⟨e, hwrite⟩
    rw [(hok e).2 hwrite] at h
    cases h
  have hfault (h : Unreportable v.signature text) :
      read v.signature text = .error (.fault (.integerTooLong NumberText.digitLimit)) :=
    read_eq_fault_iff.2 ⟨rfl, h⟩
  refine ⟨hok, ⟨?_, ?_⟩, fun h => ⟨hfault h, hnone (hfault h), h.exists_entry⟩⟩
  · rintro ⟨message, position, h⟩
    refine ⟨hnone h, fun hlong => ?_⟩
    rw [hfault hlong] at h
    cases h
  · rintro ⟨hno, hshort⟩
    rcases read_cases v.signature text with ⟨e, _, hread⟩ | ⟨e, message, _, _, hread⟩ | ⟨hlong, _⟩
    · exact absurd ⟨e, (hok e).1 hread⟩ hno
    · exact ⟨message, e.position, hread⟩
    · exact absurd hlong hshort

section

-- A power is that of the core library, also where another library has its own.
attribute [local instance (2000)] instPowNat

/-- A call that has no derivation, and is not refused with a problem either: its number of arguments
    is wrong, and the right one is too long to be written. -/
theorem read_without_derivation :
    let v : Vocabulary Unit := ⟨[⟨"f", 10 ^ 5000, (), ""⟩], List.pairwise_singleton _ _⟩
    (¬ ∃ e tokens, Token.scan "f(x)" = .ok tokens ∧ Token.Write v.signature tokens e) ∧
      ∀ message position,
        read v.signature "f(x)" ≠ .error (.problem (.equation message position)) := by
  intro v
  have hlong : Unreportable v.signature "f(x)" := by
    have harities : v.signature.arities "f" = [10 ^ 5000] := by decide +kernel
    -- the call is refused, and the refusal lists the only number of arguments that there is
    have hrefused : (parse v.signature "f(x)").error? =
        some ⟨.argumentCount "f" [10 ^ 5000] 1, some 0⟩ := by
      decide +kernel
    have hparse := Except.error?_eq_some_iff.1 hrefused
    exact ⟨"f", 1, some 0, harities ▸ hparse, 10 ^ 5000, harities ▸ List.mem_singleton.2 rfl,
      by decide +kernel⟩
  have hfault : read v.signature "f(x)" = .error (.fault (.integerTooLong 4300)) :=
    read_eq_fault_iff.2 ⟨rfl, hlong⟩
  refine ⟨?_, fun message position => hfault ▸ nofun⟩
  rintro ⟨e, tokens, hscan, hwrite⟩
  have hok := (parse_eq_ok_iff v.signature "f(x)" e).2 ⟨tokens, hscan, hwrite⟩
  obtain ⟨_, _, _, hrefused, _⟩ := hlong
  rw [hrefused] at hok
  cases hok

end

end Expr

end DirectionField
