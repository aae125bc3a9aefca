import DirectionField.Number.Numeral
import Mathlib.Algebra.Group.Nat.Defs

/-!
# Numerals are read as they are written

A numeral that stands in front of something that cannot belong to it is taken off whole by
`Numeral.split?`, so that whatever writes such numerals is read back numeral by numeral. Conversely,
whatever is taken off is such a numeral (`Numeral.isWritten_of_split?`).
-/

namespace DirectionField

/-! ## Digits -/

namespace Text

/-- All characters are the ASCII digits. -/
def AllDigits (cs : List Char) : Prop := ∀ c ∈ cs, c.isDigit = true

/-- Digits behind digits are digits. -/
theorem AllDigits.append {cs ds : List Char} (hc : AllDigits cs) (hd : AllDigits ds) :
    AllDigits (cs ++ ds) := by
  intro c h
  rcases List.mem_append.1 h with h | h
  · exact hc c h
  · exact hd c h

/-- A number is written with digits. -/
theorem allDigits_toDigits (n : Nat) : AllDigits (Nat.toDigits 10 n) :=
  fun _ hc => Nat.isDigit_of_mem_toDigits (by decide) (by decide) hc

theorem allDigits_replicate (n : Nat) : AllDigits (List.replicate n '0') := by
  intro c hc
  rw [List.eq_of_mem_replicate hc]
  rfl

/-- The ASCII digits have the values that they show. -/
theorem digitValue?_of_isDigit {c : Char} (h : c.isDigit = true) :
    digitValue? c = some (c.toNat - 48) := by
  obtain ⟨hlo, hhi⟩ : 48 ≤ c.toNat ∧ c.toNat ≤ 57 := Char.isDigit_iff_toNat.1 h
  unfold digitValue?
  rw [if_pos (by omega), if_pos (by omega)]

/-- The ASCII digits are among the decimal digits of all scripts. -/
theorem isDigit_of_isDigit {c : Char} (h : c.isDigit = true) : isDigit c = true := by
  unfold isDigit
  rw [digitValue?_of_isDigit h]
  rfl

/-- In ASCII digits, the value is that of the core library. -/
theorem digitsValue_eq_ofDigitChars {cs : List Char} (h : AllDigits cs) :
    digitsValue cs = Nat.ofDigitChars 10 cs 0 := by
  have hfold (cs : List Char) (h : AllDigits cs) (n : Nat) :
      cs.foldl (fun n c => 10 * n + (digitValue? c).getD 0) n = Nat.ofDigitChars 10 cs n := by
    -- digit by digit, from any number that stands in front
    induction cs generalizing n with
    | nil => rfl
    | cons c cs ih =>
      have hc := digitValue?_of_isDigit (h c List.mem_cons_self)
      rw [List.foldl_cons, hc, Nat.ofDigitChars_cons, Option.getD_some,
        ih fun d hd => h d (List.mem_cons_of_mem _ hd)]
      rfl
  exact hfold cs h 0

/-- A number is read as it was written. -/
theorem digitsValue_toDigits (n : Nat) : digitsValue (Nat.toDigits 10 n) = n := by
  rw [digitsValue_eq_ofDigitChars (allDigits_toDigits n), Nat.ofDigitChars_ten_toDigits]

/-- Zeros in front of a number do not matter. -/
theorem digitsValue_zeros_append (k : Nat) {cs : List Char} (h : AllDigits cs) :
    digitsValue (List.replicate k '0' ++ cs) = digitsValue cs := by
  rw [digitsValue_eq_ofDigitChars ((allDigits_replicate k).append h),
    digitsValue_eq_ofDigitChars h, Nat.ofDigitChars_append, Nat.ofDigitChars_replicate_zero,
    Nat.mul_zero]

/-- Zeros behind a number multiply it by powers of ten. -/
theorem digitsValue_append_zeros (k : Nat) {cs : List Char} (h : AllDigits cs) :
    digitsValue (cs ++ List.replicate k '0') = digitsValue cs * 10 ^ k := by
  rw [digitsValue_eq_ofDigitChars (h.append (allDigits_replicate k)),
    digitsValue_eq_ofDigitChars h, Nat.ofDigitChars_append, Nat.ofDigitChars_replicate_zero,
    Nat.mul_comm]

/-- A text does not go on with a character of a class. -/
def EndsAt (p : Char → Bool) (rest : List Char) : Prop := ∀ c, rest.head? = some c → p c = false

theorem EndsAt.nil (p : Char → Bool) : EndsAt p [] := fun _ h => nomatch h

theorem EndsAt.cons {p : Char → Bool} {c : Char} (h : p c = false) (cs : List Char) :
    EndsAt p (c :: cs) := by
  intro d hd
  rw [← Option.some.inj hd]
  exact h

theorem EndsAt.takeWhile_eq_nil {p : Char → Bool} {rest : List Char} (h : EndsAt p rest) :
    rest.takeWhile p = [] := by
  cases rest with
  | nil => rfl
  | cons c rest => exact List.takeWhile_cons_of_neg (by rw [h c rfl]; decide)

theorem EndsAt.dropWhile_eq_self {p : Char → Bool} {rest : List Char} (h : EndsAt p rest) :
    rest.dropWhile p = rest := by
  cases rest with
  | nil => rfl
  | cons c rest => exact List.dropWhile_cons_of_neg (by rw [h c rfl]; decide)

/-- A run of characters is taken whole in front of what does not go on with it. -/
theorem takeWhile_append_of_endsAt {p : Char → Bool} {cs rest : List Char} (h : ∀ c ∈ cs, p c = true)
    (hrest : EndsAt p rest) : (cs ++ rest).takeWhile p = cs := by
  rw [List.takeWhile_append_of_pos h, hrest.takeWhile_eq_nil, List.append_nil]

/-- Behind a run stands what does not go on with it. -/
theorem dropWhile_append_of_endsAt {p : Char → Bool} {cs rest : List Char} (h : ∀ c ∈ cs, p c = true)
    (hrest : EndsAt p rest) : (cs ++ rest).dropWhile p = rest := by
  rw [List.dropWhile_append_of_pos h, hrest.dropWhile_eq_self]

/-- There is nothing to drop from a text without characters of the class. -/
theorem trimBy_eq_self {p : Char → Bool} {cs : List Char} (h : ∀ c ∈ cs, p c = false) :
    trimBy p cs = cs := by
  have hdrop (ds : List Char) (hd : ∀ c ∈ ds, p c = false) : ds.dropWhile p = ds := by
    cases ds with
    | nil => rfl
    | cons c ds => simp [hd c List.mem_cons_self]
  -- nothing is dropped at the front, and nothing at the front of the reversed text
  unfold trimBy
  rw [hdrop cs h, hdrop cs.reverse fun c hc => h c (List.mem_reverse.1 hc), List.reverse_reverse]

end Text

/-! ## Numerals -/

namespace Numeral

/-- An exponent as it is read: a letter, perhaps a sign, and at least one digit. -/
structure Exponent.IsWritten (e : Exponent) : Prop where
  letter : e.letter = 'e' ∨ e.letter = 'E'
  sign : ∀ c, e.sign = some c → c = '+' ∨ c = '-'
  digits_ne_nil : e.digits ≠ []
  digits : ∀ c ∈ e.digits, Text.isDigit c = true

/-- A numeral as it is read: digits of any script, at least one of them before or behind the
    point. -/
structure IsWritten (n : Numeral) : Prop where
  digits_ne_nil : n.whole = [] → ∃ ds, n.fraction = some ds ∧ ds ≠ []
  whole : ∀ c ∈ n.whole, Text.isDigit c = true
  fraction : ∀ ds, n.fraction = some ds → ∀ c ∈ ds, Text.isDigit c = true
  exponent : ∀ e, n.exponent = some e → e.IsWritten

/-- An exponent in ASCII digits. -/
structure Exponent.IsProper (e : Exponent) : Prop where
  letter : e.letter = 'e' ∨ e.letter = 'E'
  sign : ∀ c, e.sign = some c → c = '+' ∨ c = '-'
  digits_ne_nil : e.digits ≠ []
  digits : Text.AllDigits e.digits

/-- A numeral in ASCII digits that starts with a digit. -/
structure IsProper (n : Numeral) : Prop where
  whole_ne_nil : n.whole ≠ []
  whole : Text.AllDigits n.whole
  fraction : ∀ ds, n.fraction = some ds → Text.AllDigits ds
  exponent : ∀ e, n.exponent = some e → e.IsProper

/-- ASCII digits are digits. -/
theorem Exponent.IsProper.isWritten {e : Exponent} (h : e.IsProper) : e.IsWritten where
  letter := h.letter
  sign := h.sign
  digits_ne_nil := h.digits_ne_nil
  digits c hc := Text.isDigit_of_isDigit (h.digits c hc)

/-- A numeral in ASCII digits is one that is read. -/
theorem IsProper.isWritten {n : Numeral} (h : n.IsProper) : n.IsWritten where
  digits_ne_nil hnil := absurd hnil h.whole_ne_nil
  whole c hc := Text.isDigit_of_isDigit (h.whole c hc)
  fraction ds hds c hc := Text.isDigit_of_isDigit (h.fraction ds hds c hc)
  exponent e he := (h.exponent e he).isWritten

/-- Can a numeral go on with the character? -/
def isPart (c : Char) : Bool := Text.isDigit c || c == '.' || c == 'e' || c == 'E'

/-! ## What is taken off -/

/-- A sign is taken off in front of a digit, and where there is none, nothing is. -/
theorem splitSign_append {sign : Option Char} (hs : ∀ c, sign = some c → c = '+' ∨ c = '-')
    {ds rest : List Char} (hne : ds ≠ []) (hd : ∀ c ∈ ds, Text.isDigit c = true) :
    splitSign (sign.toList ++ (ds ++ rest)) = (sign, ds ++ rest) := by
  cases sign with
  | some c =>
    show splitSign (c :: (ds ++ rest)) = _
    unfold splitSign
    dsimp only
    rw [if_pos (hs c rfl)]
  | none =>
    cases ds with
    | nil => exact absurd rfl hne
    | cons d ds =>
      have hdigit := hd d List.mem_cons_self
      -- a digit is no sign
      have hnot : ¬ (d = '+' ∨ d = '-') := by
        rintro (rfl | rfl)
        · exact absurd hdigit (by decide)
        · exact absurd hdigit (by decide)
      show splitSign (d :: (ds ++ rest)) = _
      unfold splitSign
      dsimp only
      rw [if_neg hnot]
      rfl

/-- An exponent is taken off with all digits that follow it. -/
theorem splitExponent_text_append {e : Exponent} (he : e.IsWritten) (rest : List Char) :
    splitExponent (e.text ++ rest) =
      (some ⟨e.letter, e.sign, e.digits ++ rest.takeWhile Text.isDigit⟩,
        rest.dropWhile Text.isDigit) := by
  have hne : e.digits ++ rest.takeWhile Text.isDigit ≠ [] :=
    List.append_ne_nil_of_left_ne_nil he.digits_ne_nil _
  show splitExponent (e.letter :: (e.sign.toList ++ e.digits ++ rest)) = _
  unfold splitExponent
  dsimp only
  rw [List.append_assoc, splitSign_append he.sign he.digits_ne_nil he.digits]
  dsimp only
  rw [List.takeWhile_append_of_pos he.digits, List.dropWhile_append_of_pos he.digits,
    if_pos ⟨he.letter, hne⟩]

/-- An exponent is taken off whole, and where there is none, nothing is taken off. -/
theorem splitExponent_append {exponent : Option Exponent} (he : ∀ e, exponent = some e → e.IsWritten)
    {rest : List Char} (hrest : Text.EndsAt isPart rest) :
    splitExponent (exponent.elim [] Exponent.text ++ rest) = (exponent, rest) := by
  cases exponent with
  | some e =>
    -- behind a numeral no digit follows, so the exponent ends where its digits do
    have hend : Text.EndsAt Text.isDigit rest := by
      intro c hc
      have h := hrest c hc
      simp only [isPart, Bool.or_eq_false_iff] at h
      exact h.1.1.1
    rw [Option.elim_some, splitExponent_text_append (he e rfl), hend.takeWhile_eq_nil,
      hend.dropWhile_eq_self, List.append_nil]
  | none =>
    show splitExponent rest = (none, rest)
    cases rest with
    | nil => rfl
    | cons c rest =>
      have h := hrest c rfl
      have hc : ¬ (c = 'e' ∨ c = 'E') := by
        rintro (rfl | rfl)
        · exact absurd h (by decide)
        · exact absurd h (by decide)
      unfold splitExponent
      dsimp only
      rw [if_neg fun hno => hc hno.1]

/-- The letter of an exponent ends the digits in front of it. -/
theorem Exponent.IsWritten.endsAt_text {e : Exponent} (he : e.IsWritten) (rest : List Char) :
    Text.EndsAt (fun c => Text.isDigit c || c == '.') (e.text ++ rest) := by
  refine Text.EndsAt.cons ?_ _
  rcases he.letter with h | h
  · rw [h]; decide
  · rw [h]; decide

/-- Digits around a point are taken off with all digits that follow them. -/
theorem splitDigits?_point_append {whole ds : List Char} (hne : whole = [] → ds ≠ [])
    (hwhole : ∀ c ∈ whole, Text.isDigit c = true) (hds : ∀ c ∈ ds, Text.isDigit c = true)
    (rest : List Char) :
    splitDigits? (whole ++ '.' :: ds ++ rest) =
      some (whole, some (ds ++ rest.takeWhile Text.isDigit), rest.dropWhile Text.isDigit) := by
  have hpoint : Text.EndsAt Text.isDigit ('.' :: (ds ++ rest)) := Text.EndsAt.cons (by decide) _
  have hdigit : ¬ (whole = [] ∧ ds ++ rest.takeWhile Text.isDigit = []) :=
    fun h => hne h.1 (List.append_eq_nil_iff.1 h.2).1
  -- up to the point the digits are the whole ones, and behind it they are the fraction
  unfold splitDigits?
  rw [List.append_assoc, List.cons_append, Text.takeWhile_append_of_endsAt hwhole hpoint,
    Text.dropWhile_append_of_endsAt hwhole hpoint]
  show (if whole = [] ∧ List.takeWhile Text.isDigit (ds ++ rest) = [] then none
    else some (whole, some (List.takeWhile Text.isDigit (ds ++ rest)),
      List.dropWhile Text.isDigit (ds ++ rest))) = _
  rw [List.takeWhile_append_of_pos hds, List.dropWhile_append_of_pos hds, if_neg hdigit]

/-- Digits, perhaps with a point and digits behind it, are taken off whole in front of something
    that is neither a digit nor a point. -/
theorem splitDigits?_append {whole : List Char} {fraction : Option (List Char)}
    (hne : whole = [] → ∃ ds, fraction = some ds ∧ ds ≠ [])
    (hwhole : ∀ c ∈ whole, Text.isDigit c = true)
    (hfraction : ∀ ds, fraction = some ds → ∀ c ∈ ds, Text.isDigit c = true) {rest : List Char}
    (hrest : Text.EndsAt (fun c => Text.isDigit c || c == '.') rest) :
    splitDigits? (whole ++ fraction.elim [] ('.' :: ·) ++ rest) = some (whole, fraction, rest) := by
  have hend : Text.EndsAt Text.isDigit rest := by
    intro c hc
    have h := hrest c hc
    simp only [Bool.or_eq_false_iff] at h
    exact h.1
  cases fraction with
  | some ds =>
    have hne' : whole = [] → ds ≠ [] := fun hnil => by simpa using hne hnil
    rw [Option.elim_some, splitDigits?_point_append hne' hwhole (hfraction ds rfl),
      hend.takeWhile_eq_nil, hend.dropWhile_eq_self, List.append_nil]
  | none =>
    have hne' : whole ≠ [] := fun hnil => by simpa using hne hnil
    unfold splitDigits?
    rw [Option.elim_none, List.append_nil, Text.takeWhile_append_of_endsAt hwhole hend,
      Text.dropWhile_append_of_endsAt hwhole hend]
    split
    · next hrest _ =>
      -- there is no point behind the digits
      exact absurd (hrest '.' rfl) (by decide)
    · dsimp only
      rw [if_neg hne']

/-- A numeral in front of something that it cannot go on with is taken off whole. -/
theorem split?_text_append {n : Numeral} (hn : n.IsWritten) {rest : List Char}
    (hrest : Text.EndsAt isPart rest) : split? (n.text ++ rest) = some (n, rest) := by
  obtain ⟨whole, fraction, exponent⟩ := n
  -- what comes behind the digits is the exponent or the end
  have htail : Text.EndsAt (fun c => Text.isDigit c || c == '.')
      (exponent.elim [] Exponent.text ++ rest) := by
    cases exponent with
    | none =>
      intro c hc
      have h := hrest c hc
      simp only [isPart, Bool.or_eq_false_iff] at h
      exact Bool.or_eq_false_iff.2 h.1.1
    | some e => exact (hn.exponent e rfl).endsAt_text rest
  have hdigits := splitDigits?_append hn.digits_ne_nil hn.whole hn.fraction htail
  unfold split? text
  dsimp only
  rw [List.append_assoc (whole ++ _), hdigits, Option.map_some]
  dsimp only
  rw [splitExponent_append hn.exponent hrest]

/-! ## What is left of a numeral that is taken off -/

/-- What is taken off as a sign is one. -/
theorem sign_of_splitSign {cs : List Char} {c : Char} (h : (splitSign cs).1 = some c) :
    c = '+' ∨ c = '-' := by
  cases cs with
  | nil => cases h
  | cons d cs =>
    unfold splitSign at h
    dsimp only at h
    by_cases hd : d = '+' ∨ d = '-'
    · rw [if_pos hd] at h
      rwa [← Option.some.inj h]
    · rw [if_neg hd] at h
      cases h

/-- What is taken off as an exponent is one: without a digit behind its letter, nothing is. -/
theorem isWritten_of_splitExponent {cs : List Char} {e : Exponent}
    (h : (splitExponent cs).1 = some e) : e.IsWritten := by
  cases cs with
  | nil => cases h
  | cons c cs =>
    unfold splitExponent at h
    dsimp only at h
    by_cases hc : (c = 'e' ∨ c = 'E') ∧ (splitSign cs).2.takeWhile Text.isDigit ≠ []
    · rw [if_pos hc] at h
      cases h
      exact ⟨hc.1, fun _ => sign_of_splitSign, hc.2, List.all_eq_true.1 List.all_takeWhile⟩
    · rw [if_neg hc] at h
      cases h

/-- What is taken off is a numeral. -/
theorem isWritten_of_split? {cs rest : List Char} {n : Numeral} (h : split? cs = some (n, rest)) :
    n.IsWritten := by
  unfold split? at h
  obtain ⟨⟨whole, fraction, tail⟩, hdigits, h⟩ := Option.map_eq_some_iff.1 h
  obtain ⟨rfl, _⟩ := Prod.mk.inj h
  have hexponent (e : Exponent) (he : (splitExponent tail).1 = some e) : e.IsWritten :=
    isWritten_of_splitExponent he
  unfold splitDigits? at hdigits
  split at hdigits
  · -- digits, a point and perhaps more digits: one of the two runs is not empty
    next rest' _ =>
    dsimp only at hdigits
    split at hdigits
    · cases hdigits
    · next hne =>
      cases hdigits
      refine ⟨fun hnil => ⟨_, rfl, fun hnil' => hne ⟨hnil, hnil'⟩⟩,
        List.all_eq_true.1 List.all_takeWhile, ?_, hexponent⟩
      intro ds hds
      cases hds
      exact List.all_eq_true.1 List.all_takeWhile
  · dsimp only at hdigits
    split at hdigits
    · cases hdigits
    · next hne =>
      cases hdigits
      -- digits without a point
      exact ⟨fun hnil => absurd hnil hne, List.all_eq_true.1 List.all_takeWhile,
        fun _ hds => (nomatch hds), hexponent⟩

/-- A numeral that is taken off a text is taken off whole by itself. -/
theorem split?_text {n : Numeral} (hn : n.IsWritten) : split? n.text = some (n, []) := by
  have h := split?_text_append hn (Text.EndsAt.nil isPart)
  rwa [List.append_nil] at h

end Numeral

end DirectionField
