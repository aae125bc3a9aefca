import DirectionField.Proofs.GrammarSound
import DirectionField.Proofs.NumeralReading

/-!
# Scanning piece by piece

`Scans cs ls rest` says that the scanner, at the front of `cs` in front of `rest`, takes exactly the
lexemes of `ls` off and goes on with `rest`. A text is scanned by scanning its pieces one after the
other, where a numeral and a name need something behind them that they cannot go on with. Conversely,
every name that is scanned is one (`isName_of_scanFrom`).
-/

namespace DirectionField

/-- The characters of a name. -/
def Lexeme.IsName (cs : List Char) : Prop :=
  ∃ c tail, cs = c :: tail ∧ isNameStart c = true ∧ ∀ d ∈ tail, isNamePart d = true

/-- Could a numeral or a name go on with the character? -/
def Lexeme.goesOn (c : Char) : Bool := isNamePart c || Numeral.isPart c

/-- At the front of `cs`, the lexemes of `ls` are scanned, and then `rest`. -/
def Scans (cs : List Char) (ls : List Lexeme) (rest : List Char) : Prop :=
  ∀ pos, ∃ tokens, Token.lexemes tokens = ls ∧ Token.scanFrom pos 0 (cs ++ rest) =
    (Token.scanFrom (pos + cs.length) 0 rest).map (tokens ++ ·)

/-! ## Lexemes -/

/-- Names start with an ASCII letter or an underscore. -/
theorem isNameStart_cases {c : Char} (h : isNameStart c = true) :
    (65 ≤ c.toNat ∧ c.toNat ≤ 90) ∨ c.toNat = 95 ∨ (97 ≤ c.toNat ∧ c.toNat ≤ 122) := by
  unfold isNameStart Char.isAlpha Char.isUpper Char.isLower at h
  simp only [Bool.or_eq_true, beq_iff_eq, Bool.and_eq_true, decide_eq_true_eq] at h
  rcases h with (⟨hlo, hhi⟩ | ⟨hlo, hhi⟩) | rfl
  · exact .inl ⟨hlo, hhi⟩
  · exact .inr (.inr ⟨hlo, hhi⟩)
  · exact .inr (.inl rfl)

/-- No name starts as a numeral does. -/
theorem isDigit_eq_false_of_isNameStart {c : Char} (h : isNameStart c = true) :
    Text.isDigit c = false := by
  have hc := isNameStart_cases h
  unfold Text.isDigit Text.digitValue?
  rw [if_pos (by omega), if_neg (by omega)]
  rfl

/-- A numeral starts with a digit or a point. -/
theorem Numeral.split?_eq_none {c : Char} (hdigit : Text.isDigit c = false) (hpoint : c ≠ '.')
    (cs : List Char) : split? (c :: cs) = none := by
  have hwhole : (c :: cs).takeWhile Text.isDigit = [] :=
    List.takeWhile_cons_of_neg (by rw [hdigit]; decide)
  have hrest : (c :: cs).dropWhile Text.isDigit = c :: cs :=
    List.dropWhile_cons_of_neg (by rw [hdigit]; decide)
  unfold split? splitDigits?
  rw [hwhole, hrest]
  split
  · next tail h => exact absurd (List.cons.inj h).1 hpoint
  · rfl

/-- A symbol is written with the character that it is read from. -/
theorem Symbol.char_of_ofChar? {c : Char} {s : Symbol} (h : ofChar? c = some s) : s.char = c := by
  unfold ofChar? at h
  split at h <;> cases h <;> rfl

namespace Lexeme

variable {rest : List Char}

/-- A numeral is read whole in front of what does not go on with it. -/
theorem read?_number {n : Numeral} (hn : n.IsWritten) (hrest : Text.EndsAt goesOn rest) :
    read? (n.text ++ rest) = some (.number n) := by
  have hend : Text.EndsAt Numeral.isPart rest := by
    intro c hc
    exact (Bool.or_eq_false_iff.1 (hrest c hc)).2
  unfold read?
  rw [Numeral.split?_text_append hn hend]

/-- All characters of a name may stand in one, the first one as well. -/
theorem IsName.isNamePart {cs : List Char} (h : IsName cs) : ∀ c ∈ cs, isNamePart c = true := by
  obtain ⟨c, tail, rfl, hstart, htail⟩ := h
  exact List.forall_mem_cons.2 ⟨Bool.or_eq_true_iff.2 (.inl hstart), htail⟩

/-- A name is read where one starts: a numeral would be preferred, but none starts as a name
    does. -/
theorem read?_of_isNameStart {c : Char} (h : isNameStart c = true) (cs : List Char) :
    read? (c :: cs) = some (.name ((c :: cs).takeWhile isNamePart)) := by
  have hpoint : c ≠ '.' := by
    rintro rfl
    exact absurd h (by decide)
  unfold read?
  rw [Numeral.split?_eq_none (isDigit_eq_false_of_isNameStart h) hpoint]
  exact if_pos h

/-- A name is read whole in front of what does not go on with it. -/
theorem read?_name {cs : List Char} (hcs : IsName cs) (hrest : Text.EndsAt goesOn rest) :
    read? (cs ++ rest) = some (.name cs) := by
  have hend : Text.EndsAt isNamePart rest := by
    intro c hc
    exact (Bool.or_eq_false_iff.1 (hrest c hc)).1
  have hpart := hcs.isNamePart
  obtain ⟨c, tail, rfl, hstart, _⟩ := hcs
  rw [List.cons_append, read?_of_isNameStart hstart, ← List.cons_append,
    Text.takeWhile_append_of_endsAt hpart hend]

/-- A symbol is a lexeme whatever follows. -/
theorem read?_symbol (s : Symbol) (rest : List Char) :
    read? (s.char :: rest) = some (.symbol s) := by
  -- the nine symbols are no digits, no letters and no points
  have hmark : Text.isDigit s.char = false ∧ isNameStart s.char = false ∧ s.char ≠ '.' := by
    cases s <;> decide
  obtain ⟨hdigit, hstart, hpoint⟩ := hmark
  unfold read?
  rw [Numeral.split?_eq_none hdigit hpoint]
  dsimp only
  rw [if_neg (by rw [hstart]; decide), Symbol.ofChar?_char]
  rfl

/-- No lexeme starts with a blank. -/
theorem read?_of_isBlank {c : Char} (h : Text.isBlank c = true) (cs : List Char) :
    read? (c :: cs) = none := by
  -- letters, points and symbols are visible characters of ASCII, and no blank is one of these
  have hvisible (hlo : 33 ≤ c.toNat) (hhi : c.toNat ≤ 126) : False := by
    rw [Text.isBlank_eq_false hlo hhi] at h
    cases h
  have hdigit : Text.isDigit c = false := by
    rw [← Bool.not_eq_true]
    intro hc
    rw [Text.isBlank_of_isDigit hc] at h
    cases h
  have hstart : ¬ isNameStart c = true := by
    intro hc
    have hcases := isNameStart_cases hc
    exact hvisible (by omega) (by omega)
  have hpoint : c ≠ '.' := by
    rintro rfl
    exact hvisible (by decide) (by decide)
  have hsymbol : Symbol.ofChar? c = none := by
    cases hs : Symbol.ofChar? c with
    | none => rfl
    | some s =>
      rw [← Symbol.char_of_ofChar? hs] at h
      cases s <;> exact absurd h (by decide)
  unfold read?
  rw [Numeral.split?_eq_none hdigit hpoint]
  dsimp only
  rw [if_neg hstart, hsymbol]
  rfl

/-- Where a lexeme is read there is no blank. -/
theorem isBlank_of_read? {c : Char} {cs : List Char} {l : Lexeme} (h : read? (c :: cs) = some l) :
    Text.isBlank c = false := by
  rw [← Bool.not_eq_true]
  intro hc
  rw [read?_of_isBlank hc] at h
  cases h

end Lexeme

/-! ## Pieces -/

/-- The characters of a token that has been read are passed over. -/
theorem Token.scanFrom_skip (cs rest : List Char) (pos : Nat) :
    scanFrom pos cs.length (cs ++ rest) = scanFrom (pos + cs.length) 0 rest := by
  -- character by character, as the scanner counts down
  induction cs generalizing pos with
  | nil => rfl
  | cons c cs ih =>
    show scanFrom pos (cs.length + 1) (c :: (cs ++ rest)) = _
    rw [scanFrom, ih, List.length_cons]
    congr 1
    omega

/-- Blanks are passed over. -/
theorem Token.scanFrom_blanks {cs : List Char} (h : cs.all Text.isBlank = true) (rest : List Char)
    (pos : Nat) : scanFrom pos 0 (cs ++ rest) = scanFrom (pos + cs.length) 0 rest := by
  induction cs generalizing pos with
  | nil => rfl
  | cons c cs ih =>
    rw [List.all_cons, Bool.and_eq_true] at h
    rw [List.cons_append, scanFrom, if_pos h.1, ih h.2, List.length_cons, Nat.add_assoc,
      Nat.add_comm 1]

/-- A lexeme at the front is one token, and scanning goes on behind it. -/
theorem Token.scanFrom_lexeme {c : Char} {cs rest : List Char} {l : Lexeme}
    (hread : Lexeme.read? (c :: (cs ++ rest)) = some l) (hchars : l.chars = c :: cs) (pos : Nat) :
    scanFrom pos 0 (c :: (cs ++ rest)) = do
      let tokens ← scanFrom (pos + l.chars.length) 0 rest
      return ⟨l, pos⟩ :: tokens := by
  have hlen : l.chars.length - 1 = cs.length := by rw [hchars]; rfl
  have hpos : pos + 1 + cs.length = pos + l.chars.length := by rw [hchars, List.length_cons]; omega
  -- the first character is passed over already when the rest of the lexeme is skipped
  rw [scanFrom, if_neg (by rw [Lexeme.isBlank_of_read? hread]; decide), hread]
  dsimp only
  rw [hlen, scanFrom_skip, hpos]

namespace Scans

/-- An empty piece has no lexemes. -/
theorem nil (rest : List Char) : Scans [] [] rest := by
  intro pos
  refine ⟨[], rfl, ?_⟩
  show Token.scanFrom pos 0 rest = (Token.scanFrom pos 0 rest).map ([] ++ ·)
  cases Token.scanFrom pos 0 rest with
  | error e => rfl
  | ok tokens => rfl

/-- Two pieces are scanned one after the other, if the first one is scanned in front of the second
    one. -/
theorem append {cs cs' rest : List Char} {ls ls' : List Lexeme} (h : Scans cs ls (cs' ++ rest))
    (h' : Scans cs' ls' rest) : Scans (cs ++ cs') (ls ++ ls') rest := by
  intro pos
  obtain ⟨tokens, hlexemes, hscan⟩ := h pos
  obtain ⟨tokens', hlexemes', hscan'⟩ := h' (pos + cs.length)
  refine ⟨tokens ++ tokens', ?_, ?_⟩
  · rw [← hlexemes, ← hlexemes']
    exact List.map_append
  · -- the second piece starts where the first one ends
    rw [List.append_assoc, hscan, hscan', List.length_append, Nat.add_assoc]
    cases Token.scanFrom (pos + (cs.length + cs'.length)) 0 rest with
    | error e => rfl
    | ok rest =>
      show Except.ok (tokens ++ (tokens' ++ rest)) = Except.ok (tokens ++ tokens' ++ rest)
      rw [List.append_assoc]

/-- A blank is passed over. -/
theorem blank {c : Char} {cs rest : List Char} {ls : List Lexeme} (hc : Text.isBlank c = true)
    (h : Scans cs ls rest) : Scans (c :: cs) ls rest := by
  intro pos
  obtain ⟨tokens, hlexemes, hscan⟩ := h (pos + 1)
  have hpos : pos + 1 + cs.length = pos + (c :: cs).length := by rw [List.length_cons]; omega
  refine ⟨tokens, hlexemes, ?_⟩
  show Token.scanFrom pos 0 (c :: (cs ++ rest)) = _
  rw [Token.scanFrom, if_pos hc, hscan, hpos]

/-- The longest lexeme at the front is scanned. -/
theorem lexeme {c : Char} {cs rest : List Char} {l : Lexeme}
    (hread : Lexeme.read? (c :: (cs ++ rest)) = some l) (hchars : l.chars = c :: cs) :
    Scans (c :: cs) [l] rest := by
  intro pos
  refine ⟨[⟨l, pos⟩], rfl, ?_⟩
  rw [List.cons_append, Token.scanFrom_lexeme hread hchars, hchars]
  cases Token.scanFrom (pos + (c :: cs).length) 0 rest with
  | error e => rfl
  | ok tokens => rfl

/-- A text that is scanned with nothing behind it has these lexemes. -/
theorem exists_scan {text : String} {ls : List Lexeme} (h : Scans text.toList ls []) :
    ∃ tokens, Token.lexemes tokens = ls ∧ Token.scan text = .ok tokens := by
  obtain ⟨tokens, hlexemes, hscan⟩ := h 0
  refine ⟨tokens, hlexemes, ?_⟩
  unfold Token.scan
  rw [← List.append_nil text.toList, hscan]
  show Except.ok (tokens ++ []) = Except.ok tokens
  rw [List.append_nil]

/-- A numeral is one lexeme. -/
theorem number {n : Numeral} (hn : n.IsProper) {rest : List Char}
    (hrest : Text.EndsAt Lexeme.goesOn rest) : Scans n.text [.number n] rest := by
  have hread := Lexeme.read?_number hn.isWritten hrest
  -- a numeral has at least one digit in front of its point
  cases htext : n.text with
  | nil =>
    have hne : n.whole ≠ [] := hn.whole_ne_nil
    unfold Numeral.text at htext
    rw [List.append_assoc] at htext
    exact absurd (List.append_eq_nil_iff.1 htext).1 hne
  | cons c cs =>
    rw [htext] at hread
    exact lexeme hread htext

/-- A name is one lexeme. -/
theorem name {cs : List Char} (hcs : Lexeme.IsName cs) {rest : List Char}
    (hrest : Text.EndsAt Lexeme.goesOn rest) : Scans cs [.name cs] rest := by
  have hread := Lexeme.read?_name hcs hrest
  obtain ⟨c, tail, rfl, _⟩ := hcs
  exact lexeme hread rfl

/-- A symbol in front of a piece is one lexeme more, whatever the piece starts with. -/
theorem symbol (s : Symbol) {cs rest : List Char} {ls : List Lexeme} (h : Scans cs ls rest) :
    Scans (s.char :: cs) (.symbol s :: ls) rest := by
  have hread := Lexeme.read?_symbol s ([] ++ (cs ++ rest))
  exact (lexeme hread rfl).append h

end Scans

/-! ## What is scanned -/

/-- Every numeral that is read is one. -/
theorem isWritten_of_read? {cs : List Char} {n : Numeral}
    (h : Lexeme.read? cs = some (.number n)) : n.IsWritten := by
  unfold Lexeme.read? at h
  split at h
  · next n' rest hsplit =>
    cases h
    exact Numeral.isWritten_of_split? hsplit
  · cases h
  · split at h
    · cases h
    · obtain ⟨_, _, hsymbol⟩ := Option.map_eq_some_iff.1 h
      cases hsymbol

/-- Every name that is read is one. -/
theorem isName_of_read? {cs ns : List Char} (h : Lexeme.read? cs = some (.name ns)) :
    Lexeme.IsName ns := by
  unfold Lexeme.read? at h
  split at h
  · cases h
  · cases h
  · next c cs _ =>
    by_cases hstart : isNameStart c = true
    · rw [if_pos hstart] at h
      cases h
      -- a name is read up to the first character that is no part of one
      have hpart : isNamePart c = true := Bool.or_eq_true_iff.2 (.inl hstart)
      refine ⟨c, cs.takeWhile isNamePart, List.takeWhile_cons_of_pos hpart, hstart, ?_⟩
      exact fun d hd => List.all_eq_true.1 List.all_takeWhile d hd
    · rw [if_neg hstart] at h
      obtain ⟨s, _, hs⟩ := Option.map_eq_some_iff.1 h
      cases hs

/-- What an equation may be made of: numerals, names and symbols. -/
def Lexeme.IsWritten : Lexeme → Prop
  | .number n => n.IsWritten
  | .name cs => IsName cs
  | .symbol _ => True

namespace Lexeme.IsWritten

variable {l : Lexeme}

/-- Whatever is read is one of them. -/
theorem of_read? {cs : List Char} (h : read? cs = some l) : l.IsWritten := by
  cases l with
  | number n => exact isWritten_of_read? h
  | name ns => exact isName_of_read? h
  | symbol s => exact trivial

/-- A lexeme is read in front of what it cannot go on with. -/
theorem read?_append (hl : l.IsWritten) {rest : List Char} (hrest : Text.EndsAt goesOn rest) :
    read? (l.chars ++ rest) = some l := by
  cases l with
  | number n => exact read?_number hl hrest
  | name ns => exact read?_name hl hrest
  | symbol s => exact read?_symbol s rest

/-- By itself, a lexeme is read as what it is. -/
theorem read?_chars (hl : l.IsWritten) : read? l.chars = some l := by
  rw [← List.append_nil l.chars]
  exact hl.read?_append (Text.EndsAt.nil _)

end Lexeme.IsWritten

/-- Every name among the tokens of a text is one. -/
theorem isName_of_scanFrom {pos skip : Nat} {cs : List Char} {tokens : List Token}
    (h : Token.scanFrom pos skip cs = .ok tokens) {ns : List Char}
    (hmem : .name ns ∈ Token.lexemes tokens) : Lexeme.IsName ns := by
  induction cs generalizing pos skip tokens with
  | nil =>
    cases skip with
    | zero => rw [Token.scanFrom] at h; cases h; cases hmem
    | succ k => rw [Token.scanFrom] at h; cases h; cases hmem
  | cons c cs ih =>
    cases skip with
    | succ k =>
      -- the character belongs to a token that has been read
      rw [Token.scanFrom] at h
      exact ih h hmem
    | zero =>
      rw [Token.scanFrom] at h
      by_cases hblank : Text.isBlank c = true
      · rw [if_pos hblank] at h
        exact ih h hmem
      · rw [if_neg hblank] at h
        cases hread : Lexeme.read? (c :: cs) with
        | none => rw [hread] at h; cases h
        | some l =>
          rw [hread] at h
          obtain ⟨rest, hrest, h⟩ := (Except.bind_eq_ok_iff _ _ _).1 h
          cases h
          -- the name is the lexeme that was just read, or stands behind it
          rcases List.mem_cons.1 hmem with hl | hmem
          · have hname : Lexeme.name ns = l := hl
            rw [← hname] at hread
            exact isName_of_read? hread
          · exact ih hrest hmem

end DirectionField
