import DirectionField.Proofs.ScanAppend

/-!
# How far a text is scanned

`Token.Takes pos cs tokens stop rest` says that `cs`, which starts at position `pos` of a text, is
blanks and tokens up to `rest`, which starts at position `stop`. The scanner takes a text to its end, or
it stops where neither a blank nor a token starts (`Token.scan_eq_ok_iff`, `Token.scan_eq_error_iff`).
-/

namespace DirectionField

/-- A lexeme has a character. -/
theorem Lexeme.chars_ne_nil_of_read? {cs : List Char} {l : Lexeme} (h : read? cs = some l) :
    l.chars ≠ [] := by
  unfold read? at h
  split at h
  · next n tail hsplit =>
    cases h
    -- a numeral without characters would leave the whole text, but it leaves less
    intro hnil
    have happend := Numeral.text_append_of_split? hsplit
    have hlength := Numeral.length_lt_of_split? hsplit
    have htext : n.text = [] := hnil
    rw [htext, List.nil_append] at happend
    rw [happend] at hlength
    exact absurd hlength (Nat.lt_irrefl _)
  · cases h
  · next c tail _ =>
    by_cases hstart : isNameStart c = true
    · rw [if_pos hstart] at h
      cases h
      have hpart : isNamePart c = true := Bool.or_eq_true_iff.2 (.inl hstart)
      rw [chars, List.takeWhile_cons_of_pos hpart]
      exact List.cons_ne_nil _ _
    · rw [if_neg hstart] at h
      obtain ⟨s, _, rfl⟩ := Option.map_eq_some_iff.1 h
      exact List.cons_ne_nil _ _

namespace Token

/-- From position `pos` on, `cs` is blanks and tokens up to `rest`, which is at position `stop`. -/
inductive Takes : Nat → List Char → List Token → Nat → List Char → Prop where
  | nil (pos : Nat) (rest : List Char) : Takes pos rest [] pos rest
  | blank {pos c cs tokens stop rest} (hc : Text.isBlank c = true)
      (h : Takes (pos + 1) cs tokens stop rest) : Takes pos (c :: cs) tokens stop rest
  | token {pos l cs tokens stop rest} (hread : Lexeme.read? (l.chars ++ cs) = some l)
      (h : Takes (pos + l.chars.length) cs tokens stop rest) :
      Takes pos (l.chars ++ cs) (⟨l, pos⟩ :: tokens) stop rest

/-- Neither a blank nor a token starts with the character. -/
def Stuck (c : Char) (tail : List Char) : Prop :=
  Text.isBlank c = false ∧ Lexeme.read? (c :: tail) = none

namespace Takes

variable {pos stop : Nat} {cs rest : List Char} {tokens : List Token}

/-- What is taken and what is left make up the text. -/
theorem stop_add_length (h : Takes pos cs tokens stop rest) :
    stop + rest.length = pos + cs.length := by
  induction h with
  | nil => rfl
  | blank _ _ ih => rw [ih, List.length_cons]; omega
  | token _ _ ih => rw [ih, List.length_append]; omega

/-- Scanning does not go back. -/
theorem le_stop (h : Takes pos cs tokens stop rest) : pos ≤ stop := by
  induction h with
  | nil => exact Nat.le_refl _
  | blank _ _ ih => omega
  | token _ _ ih => omega

/-- Tokens are not empty, so each starts before the place where the scanner stops. -/
theorem pos_bounds (h : Takes pos cs tokens stop rest) :
    ∀ t ∈ tokens, pos ≤ t.pos ∧ t.pos < stop := by
  induction h with
  | nil => exact fun _ ht => nomatch ht
  | blank _ _ ih =>
    intro t ht
    have hbounds := ih t ht
    omega
  | token hread h ih =>
    have hpos := List.length_pos_iff.2 (Lexeme.chars_ne_nil_of_read? hread)
    have hle := h.le_stop
    refine List.forall_mem_cons.2 ⟨⟨Nat.le_refl _, by dsimp only; omega⟩, fun t ht => ?_⟩
    have hbounds := ih t ht
    omega

/-- Each token starts behind the one before. -/
theorem pairwise_pos (h : Takes pos cs tokens stop rest) :
    tokens.Pairwise fun t t' => t.pos < t'.pos := by
  induction h with
  | nil => exact .nil
  | blank _ _ ih => exact ih
  | token hread h ih =>
    have hpos := List.length_pos_iff.2 (Lexeme.chars_ne_nil_of_read? hread)
    refine List.pairwise_cons.2 ⟨fun t ht => ?_, ih⟩
    have hbounds := h.pos_bounds t ht
    dsimp only
    omega

/-- No token is taken from blanks alone. -/
theorem all_isBlank (h : Takes pos cs [] stop []) : cs.all Text.isBlank = true := by
  generalize htokens : ([] : List Token) = tokens at h
  generalize hrest : ([] : List Char) = rest at h
  induction h with
  | nil => rw [← hrest]; rfl
  | blank hc _ ih => rw [List.all_cons, hc, ih htokens hrest]; rfl
  | token => cases htokens

/-- The tokens that are taken are lexemes at the front of what is left of the text. -/
theorem exists_read? (h : Takes pos cs tokens stop rest) :
    ∀ t ∈ tokens, ∃ tail, Lexeme.read? (t.lexeme.chars ++ tail) = some t.lexeme := by
  induction h with
  | nil => exact fun _ ht => nomatch ht
  | blank _ _ ih => exact ih
  | token hread _ ih => exact List.forall_mem_cons.2 ⟨⟨_, hread⟩, ih⟩

end Takes

/-! ## Scanning -/

/-- What comes of scanning `cs`, which starts at position `pos`: everything is taken, or the scanner
    stops at a character that it reports. -/
def ScanOutcome (pos : Nat) (cs : List Char) : Except EquationError (List Token) → Prop
  | .ok tokens => Takes pos cs tokens (pos + cs.length) []
  | .error e => ∃ tokens stop c tail, Takes pos cs tokens stop (c :: tail) ∧ Stuck c tail ∧
      e = ⟨.unexpectedCharacter c, some stop⟩

/-- A blank in front changes where the tokens are and nothing else. -/
theorem ScanOutcome.blank {pos : Nat} {c : Char} {cs : List Char}
    {outcome : Except EquationError (List Token)} (hc : Text.isBlank c = true)
    (h : ScanOutcome (pos + 1) cs outcome) : ScanOutcome pos (c :: cs) outcome := by
  cases outcome with
  | ok tokens =>
    have hstop : pos + (c :: cs).length = pos + 1 + cs.length := by rw [List.length_cons]; omega
    unfold ScanOutcome
    rw [hstop]
    exact .blank hc h
  | error e =>
    obtain ⟨tokens, stop, d, tail, htakes, hstuck, he⟩ := h
    exact ⟨tokens, stop, d, tail, .blank hc htakes, hstuck, he⟩

/-- A lexeme in front is one token more. -/
theorem ScanOutcome.token {pos : Nat} {l : Lexeme} {cs : List Char}
    {outcome : Except EquationError (List Token)} (hread : Lexeme.read? (l.chars ++ cs) = some l)
    (h : ScanOutcome (pos + l.chars.length) cs outcome) :
    ScanOutcome pos (l.chars ++ cs) (do let tokens ← outcome; return ⟨l, pos⟩ :: tokens) := by
  cases outcome with
  | ok tokens =>
    show Takes pos (l.chars ++ cs) (⟨l, pos⟩ :: tokens) (pos + (l.chars ++ cs).length) []
    rw [List.length_append, ← Nat.add_assoc]
    exact .token hread h
  | error e =>
    obtain ⟨tokens, stop, d, tail, htakes, hstuck, he⟩ := h
    exact ⟨_, stop, d, tail, .token hread htakes, hstuck, he⟩

/-- Wherever it starts, the scanner takes tokens up to the end or up to where it is stuck. -/
theorem scanFrom_outcome (pos : Nat) : ∀ cs : List Char, ScanOutcome pos cs (scanFrom pos 0 cs)
  | [] => .nil pos []
  | c :: tail => by
    cases hblank : Text.isBlank c with
    | true =>
      rw [scanFrom, if_pos hblank]
      exact .blank hblank (scanFrom_outcome (pos + 1) tail)
    | false =>
      cases hread : Lexeme.read? (c :: tail) with
      | none =>
        rw [scanFrom, if_neg (by rw [hblank]; exact Bool.false_ne_true), hread]
        exact ⟨[], pos, c, tail, .nil pos _, ⟨hblank, hread⟩, rfl⟩
      | some l =>
        -- the lexeme is not empty, so that what is left is shorter
        obtain ⟨rest, hrest⟩ := Lexeme.exists_chars_append_of_read? hread
        obtain ⟨d, cs, hchars⟩ := List.exists_cons_of_ne_nil (Lexeme.chars_ne_nil_of_read? hread)
        obtain ⟨rfl, rfl⟩ : d = c ∧ cs ++ rest = tail := by
          rw [hchars, List.cons_append] at hrest
          exact List.cons.inj hrest
        have hlt : rest.length < (d :: (cs ++ rest)).length := by
          rw [List.length_cons, List.length_append]
          omega
        rw [scanFrom_lexeme hread hchars]
        rw [← List.cons_append, ← hchars] at hread ⊢
        exact .token hread (scanFrom_outcome (pos + l.chars.length) rest)
termination_by cs => cs.length

/-- A text is taken to its end, or the scanner stops inside it. -/
theorem scan_outcome (text : String) : ScanOutcome 0 text.toList (scan text) :=
  scanFrom_outcome 0 text.toList

/-- What is taken is scanned, and scanning goes on behind it. -/
theorem Takes.scanFrom_eq {pos stop : Nat} {cs rest : List Char} {tokens : List Token}
    (h : Takes pos cs tokens stop rest) :
    scanFrom pos 0 cs = (scanFrom stop 0 rest).map (tokens ++ ·) := by
  induction h with
  | nil pos rest =>
    cases scanFrom pos 0 rest with
    | error e => rfl
    | ok tokens => rfl
  | blank hc _ ih => rw [scanFrom, if_pos hc, ih]
  | @token pos l cs _ stop rest hread _ ih =>
    obtain ⟨c, ds, hchars⟩ := List.exists_cons_of_ne_nil (Lexeme.chars_ne_nil_of_read? hread)
    rw [hchars, List.cons_append] at hread ⊢
    rw [scanFrom_lexeme hread hchars, ih]
    cases scanFrom stop 0 rest with
    | error e => rfl
    | ok tokens => rfl

/-- A text has the tokens that are taken up to its end. -/
theorem scan_eq_ok_iff {text : String} {tokens : List Token} :
    scan text = .ok tokens ↔ Takes 0 text.toList tokens text.length [] := by
  constructor
  · intro h
    have houtcome := scan_outcome text
    rw [h] at houtcome
    unfold ScanOutcome at houtcome
    rw [Nat.zero_add, String.length_toList] at houtcome
    exact houtcome
  · intro h
    unfold scan
    rw [h.scanFrom_eq]
    show Except.ok (tokens ++ []) = Except.ok tokens
    rw [List.append_nil]

/-- A text has no tokens if what is taken ends in front of a character that nothing starts with. -/
theorem scan_eq_error_iff {text : String} {e : EquationError} :
    scan text = .error e ↔ ∃ tokens p c tail, Takes 0 text.toList tokens p (c :: tail) ∧
      Stuck c tail ∧ e = ⟨.unexpectedCharacter c, some p⟩ := by
  constructor
  · intro h
    have houtcome := scan_outcome text
    rw [h] at houtcome
    exact houtcome
  · rintro ⟨tokens, p, c, tail, htakes, ⟨hblank, hread⟩, rfl⟩
    unfold scan
    rw [htakes.scanFrom_eq, scanFrom, if_neg (by rw [hblank]; exact Bool.false_ne_true), hread]
    rfl

end Token

end DirectionField
