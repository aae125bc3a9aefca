import DirectionField.Proofs.LongestLexeme

/-!
# A text is tiled by its tokens

Nothing of a text is lost when it is cut into tokens. `Token.Tiles cs start stop tokens` says so without
the scanner: between the two places, the longest lexemes and blanks are all that there is. The scanner
finds the tiling of the whole text if there is one, and otherwise it reports the character behind a tiling
where neither a blank nor a lexeme starts (`Token.row_tiles`). In particular a text has one tiling only.
-/

namespace DirectionField

namespace Token

/-! ## Tilings -/

/-- The place behind the token. -/
def endPos (t : Token) : Nat := t.pos + t.lexeme.chars.length

/-- Between two places of a text, the tokens are what there is: each is the longest lexeme where it
    stands, none is empty, each ends where or before the next one starts, and every character that
    is in none of them is blank. -/
structure Tiles (cs : List Char) (start stop : Nat) (tokens : List Token) : Prop where
  longest : ∀ t ∈ tokens, t.lexeme.IsLongest (cs.drop t.pos)
  bounds : ∀ t ∈ tokens, start ≤ t.pos ∧ t.pos < t.endPos ∧ t.endPos ≤ stop
  apart : tokens.Pairwise fun t t' => t.endPos ≤ t'.pos
  blank : ∀ i c, start ≤ i → i < stop → cs[i]? = some c →
    (∀ t ∈ tokens, i < t.pos ∨ t.endPos ≤ i) → Text.isBlank c = true

namespace Tiles

variable {cs : List Char} {pos stop : Nat} {tokens : List Token}

/-- Where nothing is to be covered, no token is needed. -/
theorem nil (cs : List Char) (pos : Nat) : Tiles cs pos pos [] where
  longest := nofun
  bounds := nofun
  apart := .nil
  blank _ _ hlo hhi := absurd hhi (Nat.not_lt.2 hlo)

/-- A blank may stand in front. -/
theorem skip {c : Char} (hat : cs[pos]? = some c) (hc : Text.isBlank c = true)
    (h : Tiles cs (pos + 1) stop tokens) : Tiles cs pos stop tokens where
  longest := h.longest
  bounds t ht := by
    have hbounds := h.bounds t ht
    omega
  apart := h.apart
  blank i d hlo hhi hi houtside := by
    -- a character at the first place is the new blank, and one behind it is in the tiling
    rcases Nat.eq_or_lt_of_le hlo with rfl | hlt
    · rw [hat] at hi
      cases hi
      exact hc
    · exact h.blank i d hlt hhi hi houtside

/-- The longest lexeme may stand in front. -/
theorem cons {l : Lexeme} (hl : l.IsLongest (cs.drop pos)) (hle : pos + l.chars.length ≤ stop)
    (h : Tiles cs (pos + l.chars.length) stop tokens) : Tiles cs pos stop (⟨l, pos⟩ :: tokens) where
  longest := List.forall_mem_cons.2 ⟨hl, h.longest⟩
  bounds := by
    have hpos := List.length_pos_iff.2 (Lexeme.chars_ne_nil_of_read? hl.isWritten.read?_chars)
    refine List.forall_mem_cons.2 ⟨⟨Nat.le_refl _, Nat.lt_add_of_pos_right hpos, hle⟩, fun t ht => ?_⟩
    have hbounds := h.bounds t ht
    omega
  apart := List.pairwise_cons.2 ⟨fun t ht => (h.bounds t ht).1, h.apart⟩
  blank i c hlo hhi hi houtside := by
    obtain ⟨hfirst, hrest⟩ := List.forall_mem_cons.1 houtside
    -- what is outside of all tokens is behind the first one, which starts at the first place
    have hbehind : pos + l.chars.length ≤ i := hfirst.resolve_left (Nat.not_lt.2 hlo)
    exact h.blank i c hbehind hhi hi hrest

/-- Behind the first token stand the others. -/
theorem tail {t : Token} (h : Tiles cs pos stop (t :: tokens)) : Tiles cs t.endPos stop tokens where
  longest := (List.forall_mem_cons.1 h.longest).2
  bounds t' ht' := by
    have hbounds := h.bounds t' (List.mem_cons_of_mem _ ht')
    have hbehind := (List.pairwise_cons.1 h.apart).1 t' ht'
    omega
  apart := (List.pairwise_cons.1 h.apart).2
  blank i c hlo hhi hi houtside := by
    have hbounds := h.bounds t List.mem_cons_self
    refine h.blank i c (by omega) hhi hi (List.forall_mem_cons.2 ⟨.inr hlo, houtside⟩)

/-- A place in front of all tokens may be left out. -/
theorem tail_of_lt (h : Tiles cs pos stop tokens) (hfar : ∀ t ∈ tokens, pos < t.pos) :
    Tiles cs (pos + 1) stop tokens where
  longest := h.longest
  bounds t ht := by
    have hbounds := h.bounds t ht
    have hlt := hfar t ht
    omega
  apart := h.apart
  blank i c hlo hhi hi houtside := h.blank i c (by omega) hhi hi houtside

/-- What the scanner takes is a tiling, and what it leaves stands behind it. -/
theorem of_takes {whole rest : List Char} (h : Takes pos cs tokens stop rest)
    (hwhole : whole.drop pos = cs) : Tiles whole pos stop tokens ∧ whole.drop stop = rest := by
  -- along the run of the scanner, with what is left of the text as the index
  induction h with
  | nil pos rest => exact ⟨nil whole pos, hwhole⟩
  | @blank pos c cs _ _ _ hc h ih =>
    have hat : whole[pos]? = some c := by
      rw [← List.head?_drop, hwhole]
      rfl
    have hdrop : whole.drop (pos + 1) = cs := by
      rw [← List.tail_drop, hwhole]
      rfl
    obtain ⟨htiles, hrest⟩ := ih hdrop
    exact ⟨skip hat hc htiles, hrest⟩
  | @token pos l cs _ _ _ hread h ih =>
    have hdrop : whole.drop (pos + l.chars.length) = cs := by
      rw [← List.drop_drop, hwhole, List.drop_left]
    obtain ⟨htiles, hrest⟩ := ih hdrop
    rw [← hwhole] at hread
    exact ⟨cons (Lexeme.read?_eq_some_iff.1 hread) h.le_stop htiles, hrest⟩

/-- A tiling is what the scanner takes. -/
theorem takes (h : Tiles cs pos stop tokens) (hpos : pos ≤ stop) (hstop : stop ≤ cs.length) :
    Takes pos (cs.drop pos) tokens stop (cs.drop stop) := by
  -- by what is still to be covered: a blank takes one character of it, and a token at least one
  induction hn : stop - pos using Nat.strongRecOn generalizing pos tokens with
  | _ n ih =>
    rcases Nat.eq_or_lt_of_le hpos with rfl | hlt
    · -- there is no room for a token
      cases tokens with
      | nil => exact .nil _ _
      | cons t tokens =>
        have hbounds := h.bounds t List.mem_cons_self
        omega
    -- a character in front of all tokens is outside of each, so it is blank
    have hskip (hfar : ∀ t ∈ tokens, pos < t.pos) :
        Takes pos (cs.drop pos) tokens stop (cs.drop stop) := by
      have hat : pos < cs.length := Nat.lt_of_lt_of_le hlt hstop
      have hblank : Text.isBlank cs[pos] = true :=
        h.blank pos _ (Nat.le_refl _) hlt (List.getElem?_eq_getElem hat) fun t ht => .inl (hfar t ht)
      rw [List.drop_eq_getElem_cons hat]
      exact .blank hblank (ih _ (by omega) (h.tail_of_lt hfar) hlt rfl)
    cases tokens with
    | nil => exact hskip nofun
    | cons t tokens =>
      obtain ⟨l, p⟩ := t
      obtain ⟨hlo, hne, hhi⟩ := h.bounds ⟨l, p⟩ List.mem_cons_self
      by_cases hfirst : p = pos
      · -- the first token starts here, so the scanner reads its lexeme, which is the longest one
        subst hfirst
        have hlongest : l.IsLongest (cs.drop p) := h.longest _ List.mem_cons_self
        obtain ⟨rest, hrest⟩ := hlongest.front
        have hread := Lexeme.read?_eq_some_iff.2 hlongest
        have htail := ih _ (by omega) h.tail hhi rfl
        have hdrop : cs.drop (endPos ⟨l, p⟩) = rest := by
          rw [endPos, ← List.drop_drop, ← hrest, List.drop_left]
        rw [← hrest] at hread ⊢
        rw [hdrop] at htail
        exact .token hread htail
      · -- the other tokens start behind the first one
        refine hskip (List.forall_mem_cons.2 ⟨?_, fun t ht => ?_⟩)
        · exact Nat.lt_of_le_of_ne hlo (Ne.symm hfirst)
        · have hbehind := (List.pairwise_cons.1 h.apart).1 t ht
          omega

/-- Without the scanner or with it, the same tokens are found. -/
theorem iff_takes (hpos : pos ≤ stop) (hstop : stop ≤ cs.length) :
    Tiles cs pos stop tokens ↔ Takes pos (cs.drop pos) tokens stop (cs.drop stop) :=
  ⟨fun h => h.takes hpos hstop, fun h => (of_takes h rfl).1⟩

end Tiles

/-- What stands in front of a place is a tiling of that part of the text alone. -/
theorem Tiles.take {cs : List Char} {pos stop : Nat} {tokens : List Token}
    (h : Tiles cs pos stop tokens) : Tiles (cs.take stop) pos stop tokens where
  longest t ht := by
    have hbounds := h.bounds t ht
    unfold endPos at hbounds
    rw [List.drop_take]
    exact (h.longest t ht).take (by omega)
  bounds := h.bounds
  apart := h.apart
  blank i c hlo hhi hi houtside := by
    rw [List.getElem?_take_of_lt hhi] at hi
    exact h.blank i c hlo hhi hi houtside

/-! ## Rows -/

/-- A row is the tokens of a text with its end behind them. -/
theorem row_eq_ok_iff {text : String} {items : List Item} :
    row text = .ok items ↔
      ∃ tokens, scan text = .ok tokens ∧ tokens.map .token ++ [.stop text.length] = items := by
  unfold row
  simp only [Except.bind_eq_ok_iff, Except.pure_eq_ok_iff]

/-- A row is missing for the reason that the scanner gives. -/
theorem row_eq_error_iff {text : String} {e : EquationError} :
    row text = .error e ↔ scan text = .error e := by
  unfold row
  rw [Except.bind_eq_error_iff]
  exact or_iff_left fun ⟨_, _, h⟩ => (nomatch h)

/-- A text is cut into the tokens that tile it, with its end behind them. There is no such row if
    and only if a tiling, of the text up to some place and of that part alone, ends in front of a
    character that is not blank and at which no lexeme stands. That character and its place are then
    reported. -/
theorem row_tiles (text : String) :
    (∀ items, row text = .ok items ↔ ∃ tokens, items = tokens.map .token ++ [.stop text.length] ∧
      Tiles text.toList 0 text.length tokens) ∧
    ∀ e, row text = .error e ↔ ∃ tokens p c, e = ⟨.unexpectedCharacter c, some p⟩ ∧
      text.toList[p]? = some c ∧ Tiles text.toList 0 p tokens ∧
      Tiles (text.toList.take p) 0 p tokens ∧
      Text.isBlank c = false ∧ ∀ l : Lexeme, l.IsWritten → ¬ l.chars <+: text.toList.drop p := by
  constructor
  · intro items
    have hlength : text.length = text.toList.length := String.length_toList.symm
    rw [row_eq_ok_iff]
    refine exists_congr fun tokens => ?_
    rw [scan_eq_ok_iff, Tiles.iff_takes (Nat.zero_le _) (Nat.le_of_eq hlength), List.drop_zero,
      hlength, List.drop_length, and_comm, eq_comm]
  · intro e
    rw [row_eq_error_iff, scan_eq_error_iff]
    constructor
    · -- the scanner is stuck: its tokens tile what it has taken
      rintro ⟨tokens, p, c, tail, htakes, ⟨hblank, hread⟩, rfl⟩
      obtain ⟨htiles, hdrop⟩ := Tiles.of_takes htakes List.drop_zero
      have hat : text.toList[p]? = some c := by
        rw [← List.head?_drop, hdrop]
        rfl
      refine ⟨tokens, p, c, rfl, hat, htiles, htiles.take, hblank, ?_⟩
      rw [hdrop]
      exact Lexeme.read?_eq_none_iff.1 hread
    · -- a tiling that ends before such a character is what the scanner takes before it is stuck
      rintro ⟨tokens, p, c, rfl, hat, htiles, _, hblank, hread⟩
      obtain ⟨hp, hc⟩ := List.getElem?_eq_some_iff.1 hat
      have hdrop : text.toList.drop p = c :: text.toList.drop (p + 1) := by
        rw [← hc]
        exact List.drop_eq_getElem_cons hp
      have htakes := htiles.takes (Nat.zero_le _) (Nat.le_of_lt hp)
      rw [List.drop_zero, hdrop] at htakes
      rw [hdrop] at hread
      exact ⟨tokens, p, c, _, htakes, ⟨hblank, Lexeme.read?_eq_none_iff.2 hread⟩, rfl⟩

/-- An exponent without digits is no part of a numeral. -/
example : (row "1.5e+ .2").toOption.map (·.map Item.text) =
    some ["1.5", "e", "+", ".2", ""] := by decide +kernel

end Token

end DirectionField
