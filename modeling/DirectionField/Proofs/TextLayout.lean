import DirectionField.Proofs.ErrorPosition
import DirectionField.Proofs.MovedTokens

/-!
# Layout

A layout of a row of lexemes puts blanks around them, at least one between any two. Whatever a token
stood in front of before, it is read off again in front of a blank or the end (`Lexeme.read?_of_read?`),
so every layout of the tokens of a text has the same tokens in other places (`Layout.scan_text`). It is
therefore read as the text is, and an error is found at the same token (`Expr.parse_layout`).
-/

namespace DirectionField

/-- Lexemes with blanks in front of the first one and behind each of them; only behind the last one
    there may be none. -/
structure Layout where
  lead : List Char
  pieces : List (Lexeme × List Char)
  lead_blank : lead.all Text.isBlank = true
  gap_blank : ∀ piece ∈ pieces, piece.2.all Text.isBlank = true
  gap_ne_nil : ∀ piece ∈ pieces.dropLast, piece.2 ≠ []

namespace Layout

/-- The lexemes of a layout. -/
def lexemes (layout : Layout) : List Lexeme := layout.pieces.map Prod.fst

/-- Lexemes and the blanks behind them as they are written. -/
def written (pieces : List (Lexeme × List Char)) : List Char :=
  pieces.flatMap fun piece => piece.1.chars ++ piece.2

/-- The text with this layout. -/
def text (layout : Layout) : String := String.ofList (layout.lead ++ written layout.pieces)

/-- The lexemes, the first of them at position `pos`, at their places in what is written. -/
def placed : Nat → List (Lexeme × List Char) → List Token
  | _, [] => []
  | pos, piece :: pieces =>
    ⟨piece.1, pos⟩ :: placed (pos + piece.1.chars.length + piece.2.length) pieces

/-- The lexemes at their places in the text. -/
def tokens (layout : Layout) : List Token := placed layout.lead.length layout.pieces

/-- Placing tokens keeps their lexemes. -/
theorem lexemes_placed (pos : Nat) (pieces : List (Lexeme × List Char)) :
    Token.lexemes (placed pos pieces) = pieces.map Prod.fst := by
  induction pieces generalizing pos with
  | nil => rfl
  | cons piece pieces ih => rw [placed, Token.lexemes_cons, ih, List.map_cons]

/-- The tokens of a layout have its lexemes. -/
@[simp] theorem lexemes_tokens (layout : Layout) :
    Token.lexemes layout.tokens = layout.lexemes := lexemes_placed _ _

/-- In front of a lexeme stands what is written before it. -/
theorem pos_of_getElem?_placed {pos i : Nat} {pieces : List (Lexeme × List Char)} {t : Token}
    (h : (placed pos pieces)[i]? = some t) : t.pos = pos + (written (pieces.take i)).length := by
  induction pieces generalizing pos i with
  | nil => cases h
  | cons piece pieces ih =>
    cases i with
    | zero => cases h; rfl
    | succ i =>
      have htail := ih h
      rw [htail, List.take_succ_cons]
      unfold written
      rw [List.flatMap_cons, List.length_append, List.length_append]
      omega

end Layout

/-! ## Scanning -/

/-- A lexeme that is read off in front of anything is read off in front of what it cannot go on
    with. -/
theorem Lexeme.read?_of_read? {l : Lexeme} {tail rest : List Char}
    (h : read? (l.chars ++ tail) = some l) (hrest : Text.EndsAt goesOn rest) :
    read? (l.chars ++ rest) = some l :=
  (IsWritten.of_read? h).read?_append hrest

/-- No lexeme goes on with a blank. -/
theorem Lexeme.goesOn_of_isBlank {c : Char} (h : Text.isBlank c = true) : goesOn c = false := by
  rw [← Bool.not_eq_true]
  intro hgoes
  -- a character that a lexeme goes on with is a digit or a visible character
  have hvisible : Text.isDigit c = true ∨ 33 ≤ c.toNat ∧ c.toNat ≤ 126 := by
    unfold goesOn isNamePart Numeral.isPart at hgoes
    simp only [Bool.or_eq_true, beq_iff_eq] at hgoes
    rcases hgoes with (hstart | hdigit) | ((hdigit | rfl) | rfl) | rfl
    · have hc := isNameStart_cases hstart
      omega
    · exact .inl (Text.isDigit_of_isDigit hdigit)
    · exact .inl hdigit
    · decide
    · decide
    · decide
  rcases hvisible with hdigit | ⟨hlo, hhi⟩
  · rw [Text.isBlank_of_isDigit hdigit] at h
    cases h
  · rw [Text.isBlank_eq_false hlo hhi] at h
    cases h

namespace Layout

variable {pieces : List (Lexeme × List Char)}

/-- Behind a lexeme stand a blank or nothing. -/
theorem endsAt_written {piece : Lexeme × List Char}
    (hblank : piece.2.all Text.isBlank = true)
    (hgap : ∀ p ∈ (piece :: pieces).dropLast, p.2 ≠ []) :
    Text.EndsAt Lexeme.goesOn (piece.2 ++ written pieces) := by
  intro c hc
  cases hgapChars : piece.2 with
  | cons d cs =>
    rw [hgapChars] at hc hblank
    cases hc
    rw [List.all_cons, Bool.and_eq_true] at hblank
    exact Lexeme.goesOn_of_isBlank hblank.1
  | nil =>
    -- only behind the last lexeme there are no blanks, and there is nothing else
    cases pieces with
    | nil => rw [hgapChars] at hc; cases hc
    | cons p ps => exact absurd hgapChars (hgap piece List.mem_cons_self)

/-- What is written is scanned as the lexemes at their places. -/
theorem scanFrom_written (hblank : ∀ piece ∈ pieces, piece.2.all Text.isBlank = true)
    (hgap : ∀ piece ∈ pieces.dropLast, piece.2 ≠ [])
    (hread : ∀ piece ∈ pieces, ∃ tail, Lexeme.read? (piece.1.chars ++ tail) = some piece.1)
    (pos : Nat) : Token.scanFrom pos 0 (written pieces) = .ok (placed pos pieces) := by
  -- piece by piece: a lexeme is read whole because a blank, or the end, stands behind it
  induction pieces generalizing pos with
  | nil => rfl
  | cons piece pieces ih =>
    obtain ⟨tail, hpiece⟩ := hread piece List.mem_cons_self
    obtain ⟨c, cs, hchars⟩ := List.exists_cons_of_ne_nil (Lexeme.chars_ne_nil_of_read? hpiece)
    have hpieceBlank := hblank piece List.mem_cons_self
    have hlexeme := Lexeme.read?_of_read? hpiece (endsAt_written hpieceBlank hgap)
    have hrest := ih (fun p hp => hblank p (List.mem_cons_of_mem _ hp))
      (fun p hp => hgap p (by
        cases pieces with
        | nil => cases hp
        | cons q qs => exact List.mem_cons_of_mem _ hp))
      (fun p hp => hread p (List.mem_cons_of_mem _ hp))
      (pos + piece.1.chars.length + piece.2.length)
    have hwritten : written (piece :: pieces) = c :: (cs ++ (piece.2 ++ written pieces)) := by
      unfold written
      rw [List.flatMap_cons, hchars, List.append_assoc]
      rfl
    rw [hchars] at hlexeme
    rw [hwritten, Token.scanFrom_lexeme hlexeme hchars, Token.scanFrom_blanks hpieceBlank, hrest]
    rfl

/-- A layout of the tokens of a text has the same tokens, at their places in it. -/
theorem scan_text {text : String} {tokens : List Token} (h : Token.scan text = .ok tokens)
    (layout : Layout) (hlexemes : layout.lexemes = Token.lexemes tokens) :
    Token.scan layout.text = .ok layout.tokens := by
  -- the lexemes were read from a text before
  have hread : ∀ piece ∈ layout.pieces,
      ∃ tail, Lexeme.read? (piece.1.chars ++ tail) = some piece.1 := by
    intro piece hpiece
    have hmem : piece.1 ∈ Token.lexemes tokens := by
      rw [← hlexemes]
      exact List.mem_map_of_mem hpiece
    obtain ⟨t, ht, hl⟩ := List.mem_map.1 hmem
    rw [← hl]
    exact (Token.takes_of_scan h).exists_read? t ht
  unfold Token.scan Layout.text
  rw [String.toList_ofList, Token.scanFrom_blanks layout.lead_blank, Nat.zero_add]
  exact scanFrom_written layout.gap_blank layout.gap_ne_nil hread _

end Layout

/-! ## Reading -/

namespace Token

/-- The places of the tokens and, behind them, of the end of the text. -/
def starts (stop : Nat) (tokens : List Token) : List Nat := tokens.map pos ++ [stop]

/-- Lexemes as tokens whose places are their numbers in the row. -/
def numbered (ls : List Lexeme) : List Token := ls.mapIdx fun i l => ⟨l, i⟩

/-- Each token has a start, and so has the end. -/
theorem getElem?_starts {stop i : Nat} {tokens : List Token} (hi : i ≤ tokens.length) :
    (starts stop tokens)[i]? = some ((starts stop tokens).getD i 0) := by
  have hlt : i < (starts stop tokens).length := by
    unfold starts
    rw [List.length_append, List.length_map, List.length_singleton]
    omega
  rw [List.getD_eq_getElem?_getD, List.getElem?_eq_getElem hlt, Option.getD_some]

/-- Behind the last token stands the end. -/
theorem getD_starts_length (stop : Nat) (tokens : List Token) :
    (starts stop tokens).getD tokens.length 0 = stop := by
  simp [starts]

/-- Every row of tokens is the numbered one in other places. -/
theorem map_move_numbered (stop : Nat) (tokens : List Token) :
    (numbered (lexemes tokens)).map (move ((starts stop tokens).getD · 0)) = tokens := by
  refine List.ext_getElem (by simp [numbered, lexemes]) fun i hi hi' => ?_
  have hpos : (starts stop tokens).getD i 0 = tokens[i].pos := by
    simp [starts, List.getElem?_append_left, hi']
  simp only [numbered, lexemes, List.getElem_map, List.getElem_mapIdx, move, hpos]

/-- The starts of scanned tokens ascend, up to the end of the text. -/
theorem starts_pairwise {text : String} {tokens : List Token} (h : scan text = .ok tokens) :
    (starts text.length tokens).Pairwise (· < ·) := by
  have htakes := takes_of_scan h
  unfold starts
  refine List.pairwise_append.2 ⟨List.pairwise_map.2 htakes.pairwise_pos, List.pairwise_singleton _ _,
    fun p hp q hq => ?_⟩
  obtain ⟨t, ht, rfl⟩ := List.mem_map.1 hp
  rw [List.mem_singleton.1 hq]
  exact (htakes.pos_bounds t ht).2

end Token

namespace Expr

/-- What a text is read as depends on its lexemes, and on their places only for errors. -/
theorem parse_eq_numbered (sig : Signature) {text : String} {tokens : List Token}
    (h : Token.scan text = .ok tokens) :
    parse sig text = (ofTokens sig tokens.length (Token.numbered (Token.lexemes tokens))).mapError
      (EquationError.move ((Token.starts text.length tokens).getD · 0)) := by
  unfold parse
  rw [← ofTokens_move, Token.map_move_numbered, Token.getD_starts_length, h]
  rfl

/-- An error of numbered tokens has the number of a token or of the end for its place, if it has
    one. -/
theorem position_le_of_numbered {sig : Signature} {ls : List Lexeme} {e : EquationError}
    (h : ofTokens sig ls.length (Token.numbered ls) = .error e) :
    e.position = none ∨ ∃ i ≤ ls.length, e.position = some i := by
  rcases pointsInto_of_ofTokens h with ⟨_, rfl⟩ | ⟨_, hp⟩ | ⟨t, ht, _, hp⟩
  · exact .inl rfl
  · exact .inr ⟨_, Nat.le_refl _, hp⟩
  · obtain ⟨i, hi, rfl⟩ := List.mem_iff_getElem.1 ht
    unfold Token.numbered at hi hp
    rw [List.length_mapIdx] at hi
    rw [List.getElem_mapIdx] at hp
    exact .inr ⟨i, Nat.le_of_lt hi, hp⟩

/-- A layout of the tokens of a text has the same tokens, in the places where they are written. It
    is read as the same expression, or it is refused for the same cause and without a place as well,
    or at the place there of the same token or of the end. -/
theorem parse_layout (sig : Signature) {text : String} {tokens : List Token}
    (h : Token.scan text = .ok tokens) (layout : Layout)
    (hlexemes : layout.lexemes = Token.lexemes tokens) :
    Token.scan layout.text = .ok layout.tokens ∧
    Token.lexemes layout.tokens = Token.lexemes tokens ∧
    (∀ i t, layout.tokens[i]? = some t →
      t.pos = (layout.lead ++ Layout.written (layout.pieces.take i)).length) ∧
    (Token.starts text.length tokens).Pairwise (· < ·) ∧
    (∀ e, parse sig text = .ok e → parse sig layout.text = .ok e) ∧
    ∀ e, parse sig text = .error e →
      ∃ e', parse sig layout.text = .error e' ∧ e'.cause = e.cause ∧
        ((e.position = none ∧ e'.position = none) ∨
          ∃ i p p' : Nat, (Token.starts text.length tokens)[i]? = some p ∧
            (Token.starts layout.text.length layout.tokens)[i]? = some p' ∧
            e.position = some p ∧ e'.position = some p') := by
  have hscan := layout.scan_text h hlexemes
  have hsame : Token.lexemes layout.tokens = Token.lexemes tokens := by
    rw [Layout.lexemes_tokens, hlexemes]
  have hlength : layout.tokens.length = tokens.length := by
    rw [← Token.length_lexemes, hsame, Token.length_lexemes]
  -- both texts are parsed as the same tokens, with their numbers for places
  have htext := parse_eq_numbered sig h
  have hlayout := parse_eq_numbered sig hscan
  rw [hsame, hlength] at hlayout
  rw [htext, hlayout]
  refine ⟨hscan, hsame, fun i t ht => ?_, Token.starts_pairwise h, fun e he => ?_, fun e he => ?_⟩
  · rw [List.length_append]
    exact Layout.pos_of_getElem?_placed ht
  · rw [Except.mapError_eq_ok_iff] at he ⊢
    exact he
  · cases hread : ofTokens sig tokens.length (Token.numbered (Token.lexemes tokens)) with
    | ok tree => rw [hread] at he; cases he
    | error e₀ =>
      rw [hread] at he
      cases he
      refine ⟨_, rfl, rfl, ?_⟩
      rw [← Token.length_lexemes] at hread
      rcases position_le_of_numbered hread with hnone | ⟨i, hi, hsome⟩
      · exact .inl ⟨congrArg (Option.map _) hnone, congrArg (Option.map _) hnone⟩
      · rw [Token.length_lexemes] at hi
        exact .inr ⟨i, _, _, Token.getElem?_starts hi, Token.getElem?_starts (hlength ▸ hi),
          congrArg (Option.map _) hsome, congrArg (Option.map _) hsome⟩

/-- Two numerals without a blank between them, and with some around them: the second one is
    unexpected. -/
theorem parse_layout_numerals :
    ∃ (tokens : List Token) (layout : Layout), Token.scan "1..5" = .ok tokens ∧
      layout.lexemes = Token.lexemes tokens ∧ layout.text = " 1.\t .5 " ∧
      Token.scan layout.text = .ok layout.tokens ∧
      ∃ e e', parse ⟨fun _ => []⟩ "1..5" = .error e ∧ parse ⟨fun _ => []⟩ layout.text = .error e' ∧
        e'.cause = e.cause ∧ e.position = some 2 ∧ e'.position = some 5 := by
  let first : Lexeme := .number ⟨['1'], some [], none⟩
  let second : Lexeme := .number ⟨[], some ['5'], none⟩
  let layout : Layout :=
    ⟨[' '], [(first, ['\t', ' ']), (second, [' '])], by decide, by decide, by decide⟩
  have hscan : Token.scan "1..5" = .ok [⟨first, 0⟩, ⟨second, 2⟩] := rfl
  have hlexemes : layout.lexemes = Token.lexemes [⟨first, 0⟩, ⟨second, 2⟩] := rfl
  have hposition : (match parse ⟨fun _ => []⟩ "1..5" with
      | .ok _ => none
      | .error e => e.position) = some 2 := by decide +kernel
  obtain ⟨hlayout, _, _, _, _, herror⟩ := parse_layout ⟨fun _ => []⟩ hscan layout hlexemes
  cases he : parse ⟨fun _ => []⟩ "1..5" with
  | ok tree => rw [he] at hposition; cases hposition
  | error e =>
    rw [he] at hposition
    obtain ⟨e', he', hcause, ⟨hnone, _⟩ | ⟨i, p, p', hp, hp', hsome, hsome'⟩⟩ := herror e he
    · cases hposition.symm.trans hnone
    · -- the second token is the only one that starts there
      cases hposition.symm.trans hsome
      refine ⟨_, layout, hscan, hlexemes, by decide +kernel, hlayout, e, e', rfl, he', hcause,
        hposition, ?_⟩
      rcases i with _ | _ | _ | i
      · cases hp
      · cases hp'
        exact hsome'
      · cases hp
      · cases hp

end Expr

end DirectionField
