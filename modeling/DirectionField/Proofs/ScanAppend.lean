import DirectionField.Proofs.ScanText

/-!
# A text is scanned in the same way in front of a mark

No token reaches beyond its last character, except that a numeral, a name and an exponent take as much
as there is. Where what follows is a blank or a mark that is no sign, a text therefore has the tokens
that it has by itself, at any place (`Scans.of_scan`).
-/

namespace DirectionField

/-! ## Runs of characters -/

namespace Text

variable {p : Char → Bool} {rest : List Char}

/-- Where fewer characters go on, fewer texts do. -/
theorem EndsAt.mono {q : Char → Bool} (h : EndsAt q rest) (hpq : ∀ c, q c = false → p c = false) :
    EndsAt p rest := fun c hc => hpq c (h c hc)

/-- A run of characters is the same in front of a text that does not go on with it. -/
theorem takeWhile_append (hrest : EndsAt p rest) (cs : List Char) :
    (cs ++ rest).takeWhile p = cs.takeWhile p := by
  -- by the text in front; where it is used up, what follows ends the run
  induction cs with
  | nil => exact takeWhile_append_of_endsAt (by simp) hrest
  | cons c cs ih => by_cases hc : p c = true <;> simp [hc, ih]

/-- Behind a run, the text that follows stays as it is. -/
theorem dropWhile_append (hrest : EndsAt p rest) (cs : List Char) :
    (cs ++ rest).dropWhile p = cs.dropWhile p ++ rest := by
  induction cs with
  | nil => exact dropWhile_append_of_endsAt (by simp) hrest
  | cons c cs ih => by_cases hc : p c = true <;> simp [hc, ih]

end Text

/-! ## Numerals -/

/-- Could a token of several characters have the character behind the first one? A sign may stand in
    an exponent. -/
def Lexeme.isPart (c : Char) : Bool := goesOn c || c == '+' || c == '-'

namespace Numeral

variable {rest : List Char}

/-- What is no part of a lexeme is no digit. -/
theorem endsAt_isDigit (hrest : Text.EndsAt Lexeme.isPart rest) : Text.EndsAt Text.isDigit rest :=
  hrest.mono fun c hc => by
    simp only [Lexeme.isPart, Lexeme.goesOn, isPart, Bool.or_eq_false_iff] at hc
    exact hc.1.1.2.1.1.1

/-- The sign of an exponent is not taken from what follows. -/
theorem splitSign_append_of_endsAt (hrest : Text.EndsAt Lexeme.isPart rest) (cs : List Char) :
    splitSign (cs ++ rest) = ((splitSign cs).1, (splitSign cs).2 ++ rest) := by
  cases cs with
  | nil =>
    cases rest with
    | nil => rfl
    | cons c rest =>
      have hsign : ¬ (c = '+' ∨ c = '-') := by
        rintro (rfl | rfl)
        · exact absurd (hrest _ rfl) (by decide)
        · exact absurd (hrest _ rfl) (by decide)
      simp [splitSign, hsign]
  | cons c cs => by_cases hsign : c = '+' ∨ c = '-' <;> simp [splitSign, hsign]

/-- An exponent is not completed by what follows: its letter, its sign and its digits are parts of a
    lexeme. -/
theorem splitExponent_append_of_endsAt (hrest : Text.EndsAt Lexeme.isPart rest) (cs : List Char) :
    splitExponent (cs ++ rest) = ((splitExponent cs).1, (splitExponent cs).2 ++ rest) := by
  have hdigit := endsAt_isDigit hrest
  cases cs with
  | nil =>
    cases rest with
    | nil => rfl
    | cons c rest =>
      have hletter : ¬ (c = 'e' ∨ c = 'E') := by
        rintro (rfl | rfl)
        · exact absurd (hrest _ rfl) (by decide)
        · exact absurd (hrest _ rfl) (by decide)
      simp [splitExponent, hletter]
  | cons c cs =>
    show splitExponent (c :: (cs ++ rest)) = _
    unfold splitExponent
    dsimp only
    rw [splitSign_append_of_endsAt hrest]
    dsimp only
    rw [Text.takeWhile_append hdigit, Text.dropWhile_append hdigit]
    split
    · rfl
    · rfl

/-- The digits of a numeral and its point are not completed by what follows. -/
theorem splitDigits?_append_of_endsAt (hrest : Text.EndsAt Lexeme.isPart rest) (cs : List Char) :
    splitDigits? (cs ++ rest) =
      (splitDigits? cs).map fun (whole, fraction, tail) => (whole, fraction, tail ++ rest) := by
  have hdigit := endsAt_isDigit hrest
  unfold splitDigits?
  rw [Text.takeWhile_append hdigit, Text.dropWhile_append hdigit]
  cases cs.dropWhile Text.isDigit with
  | nil =>
    -- the digits end where the text ends, and no point follows
    have hpoint : ∀ tail, rest ≠ '.' :: tail := by
      rintro tail rfl
      exact absurd (hrest _ rfl) (by decide)
    by_cases hwhole : cs.takeWhile Text.isDigit = [] <;> simp [hwhole]
  -- the digits end within the text, at a point or at another character
  | cons c tail =>
    by_cases hpoint : c = '.'
    · subst hpoint
      simp only [List.cons_append, Text.takeWhile_append hdigit, Text.dropWhile_append hdigit]
      split
      · rfl
      · rfl
    · by_cases hwhole : cs.takeWhile Text.isDigit = [] <;> simp [hwhole, hpoint]

/-- A numeral is the same in front of what is no part of a lexeme. -/
theorem split?_append_of_endsAt (hrest : Text.EndsAt Lexeme.isPart rest) (cs : List Char) :
    split? (cs ++ rest) = (split? cs).map fun (n, tail) => (n, tail ++ rest) := by
  unfold split?
  rw [splitDigits?_append_of_endsAt hrest]
  cases splitDigits? cs with
  | none => rfl
  | some digits =>
    obtain ⟨whole, fraction, tail⟩ := digits
    simp only [Option.map_some, splitExponent_append_of_endsAt hrest]

end Numeral

/-! ## Lexemes -/

namespace Lexeme

/-- What follows makes no difference to the lexeme at the front. -/
theorem read?_append {c : Char} {rest : List Char} (hrest : Text.EndsAt isPart rest)
    (cs : List Char) : read? (c :: (cs ++ rest)) = read? (c :: cs) := by
  have hname : Text.EndsAt isNamePart rest := hrest.mono fun d hd => by
    simp only [isPart, goesOn, Bool.or_eq_false_iff] at hd
    exact hd.1.1.1
  have hnumeral := Numeral.split?_append_of_endsAt hrest (c :: cs)
  have htake := Text.takeWhile_append hname (c :: cs)
  rw [List.cons_append] at hnumeral htake
  unfold read?
  rw [hnumeral]
  cases Numeral.split? (c :: cs) with
  | some p => rfl
  | none =>
    dsimp only [Option.map_none]
    rw [htake]

/-- A lexeme is what stands at the front. -/
theorem exists_chars_append_of_read? {cs : List Char} {l : Lexeme} (h : read? cs = some l) :
    ∃ tail, l.chars ++ tail = cs := by
  unfold read? at h
  split at h
  · next n tail hsplit =>
    cases h
    exact ⟨tail, Numeral.text_append_of_split? hsplit⟩
  · cases h
  · next c tail _ =>
    -- where no numeral stands, a letter starts a name and any other character is a symbol
    by_cases hstart : isNameStart c = true
    · rw [if_pos hstart] at h
      cases h
      exact ⟨(c :: tail).dropWhile isNamePart, List.takeWhile_append_dropWhile⟩
    · rw [if_neg hstart] at h
      obtain ⟨s, hs, rfl⟩ := Option.map_eq_some_iff.1 h
      rw [chars, Symbol.char_of_ofChar? hs]
      exact ⟨tail, rfl⟩

end Lexeme

/-! ## Texts -/

/-- At any other place, and in front of anything that no token of several characters goes on with,
    the rest of a text has the same lexemes. -/
theorem exists_scanFrom_append {pos skip : Nat} {cs rest : List Char} {tokens : List Token}
    (hrest : Text.EndsAt Lexeme.isPart rest) (hskip : skip ≤ cs.length)
    (h : Token.scanFrom pos skip cs = .ok tokens) (pos' : Nat) :
    ∃ tokens', Token.lexemes tokens' = Token.lexemes tokens ∧
      Token.scanFrom pos' skip (cs ++ rest) =
        (Token.scanFrom (pos' + cs.length) 0 rest).map (tokens' ++ ·) := by
  -- along the scan, with the place and the number of characters that are still to be passed over
  induction cs generalizing pos pos' skip tokens with
  | nil =>
    obtain rfl : skip = 0 := Nat.le_zero.1 hskip
    rw [Token.scanFrom] at h
    cases h
    exact Scans.nil rest pos'
  | cons c cs ih =>
    have hpos : pos' + (c :: cs).length = pos' + 1 + cs.length := by rw [List.length_cons]; omega
    rw [List.cons_append, hpos]
    cases skip with
    | succ k =>
      -- the character belongs to a token that has been read
      rw [Token.scanFrom] at h ⊢
      exact ih (by rw [List.length_cons] at hskip; omega) h (pos' + 1)
    | zero =>
      rw [Token.scanFrom] at h ⊢
      by_cases hblank : Text.isBlank c = true
      · rw [if_pos hblank] at h ⊢
        exact ih (Nat.zero_le _) h (pos' + 1)
      · rw [if_neg hblank] at h ⊢
        rw [Lexeme.read?_append hrest]
        cases hread : Lexeme.read? (c :: cs) with
        | none => rw [hread] at h; cases h
        | some l =>
          rw [hread] at h
          obtain ⟨tail, htail, h⟩ := (Except.bind_eq_ok_iff _ _ _).1 h
          cases h
          -- the token ends within the text
          obtain ⟨_, hchars⟩ := Lexeme.exists_chars_append_of_read? hread
          have hlength := congrArg List.length hchars
          rw [List.length_append, List.length_cons] at hlength
          obtain ⟨tokens', hlexemes, hscan⟩ := ih (by omega) htail (pos' + 1)
          refine ⟨⟨l, pos'⟩ :: tokens', ?_, ?_⟩
          · rw [Token.lexemes_cons, Token.lexemes_cons, hlexemes]
          · dsimp only
            rw [hscan]
            cases Token.scanFrom (pos' + 1 + cs.length) 0 rest with
            | error e => rfl
            | ok more => rfl

/-- A text that has tokens has them in front of a blank or a mark that is no sign, too. -/
theorem Scans.of_scan {text : String} {tokens : List Token} (h : Token.scan text = .ok tokens)
    {rest : List Char} (hrest : Text.EndsAt Lexeme.isPart rest) :
    Scans text.toList (Token.lexemes tokens) rest :=
  exists_scanFrom_append hrest (Nat.zero_le _) h

end DirectionField
