import DirectionField.Proofs.ScanExtent

/-!
# The longest lexeme

A numeral is found by taking digits, a point, digits and an exponent off the front of a text one after
the other, without going back, and a name or a symbol is only looked for where there is no numeral. The
lexeme that is found is nevertheless the longest one of any kind, and there is one if any lexeme stands at
the front (`Lexeme.read?_eq_some_iff`, `Lexeme.read?_eq_none_iff`).
-/

namespace DirectionField

/-! ## Numerals -/

namespace Numeral

/-- Behind an exponent stands no more than stood in front of it. -/
theorem length_splitExponent_le (cs : List Char) : (splitExponent cs).2.length ≤ cs.length := by
  have happend := congrArg List.length (text_splitExponent cs)
  rw [List.length_append] at happend
  omega

/-- Digits and a point at the front are taken off, and perhaps more. -/
theorem exists_splitDigits?_append {whole : List Char} {fraction : Option (List Char)}
    (hne : whole = [] → ∃ ds, fraction = some ds ∧ ds ≠ [])
    (hwhole : ∀ c ∈ whole, Text.isDigit c = true)
    (hfraction : ∀ ds, fraction = some ds → ∀ c ∈ ds, Text.isDigit c = true) (rest : List Char) :
    ∃ whole' fraction' rest',
      splitDigits? (whole ++ fraction.elim [] ('.' :: ·) ++ rest) = some (whole', fraction', rest') ∧
        rest'.length ≤ rest.length := by
  cases fraction with
  | some ds =>
    have hne' : whole = [] → ds ≠ [] := fun hnil => by simpa using hne hnil
    rw [Option.elim_some, splitDigits?_point_append hne' hwhole (hfraction ds rfl)]
    exact ⟨_, _, _, rfl, (List.dropWhile_suffix _).length_le⟩
  | none =>
    have hne' : whole ≠ [] := fun hnil => by simpa using hne hnil
    have htake : whole ++ rest.takeWhile Text.isDigit ≠ [] :=
      List.append_ne_nil_of_left_ne_nil hne' _
    have hlength := (List.dropWhile_suffix Text.isDigit (l := rest)).length_le
    unfold splitDigits?
    rw [Option.elim_none, List.append_nil, List.takeWhile_append_of_pos hwhole,
      List.dropWhile_append_of_pos hwhole]
    split
    · next tail htail =>
      -- a point and digits follow, which are taken off as well
      have htailLength := (List.dropWhile_suffix Text.isDigit (l := tail)).length_le
      rw [htail, List.length_cons] at hlength
      dsimp only
      rw [if_neg fun hno => htake hno.1]
      exact ⟨_, _, _, rfl, by omega⟩
    · dsimp only
      rw [if_neg htake]
      exact ⟨_, _, _, rfl, hlength⟩

/-- Where a numeral stands at the front, it is taken off, or a longer one is. -/
theorem exists_split?_text_append {n : Numeral} (hn : n.IsWritten) (rest : List Char) :
    ∃ n' rest', split? (n.text ++ rest) = some (n', rest') ∧ rest'.length ≤ rest.length := by
  obtain ⟨whole, fraction, exponent⟩ := n
  unfold split? text
  dsimp only
  rw [List.append_assoc (whole ++ _)]
  cases exponent with
  | some e =>
    have he : e.IsWritten := hn.exponent e rfl
    -- the digits end at the exponent, whatever follows
    rw [Option.elim_some,
      splitDigits?_append hn.digits_ne_nil hn.whole hn.fraction (he.endsAt_text rest),
      Option.map_some]
    dsimp only
    rw [splitExponent_text_append he]
    exact ⟨_, _, rfl, (List.dropWhile_suffix _).length_le⟩
  | none =>
    obtain ⟨whole', fraction', tail, hdigits, htail⟩ :=
      exists_splitDigits?_append hn.digits_ne_nil hn.whole hn.fraction rest
    rw [Option.elim_none, List.nil_append, hdigits, Option.map_some]
    exact ⟨_, _, rfl, Nat.le_trans (length_splitExponent_le tail) htail⟩

end Numeral

/-! ## Lexemes -/

namespace Lexeme

/-- The lexeme stands at the front of the text, and no lexeme there is longer. -/
structure IsLongest (l : Lexeme) (cs : List Char) : Prop where
  isWritten : l.IsWritten
  front : l.chars <+: cs
  length_le : ∀ l' : Lexeme, l'.IsWritten → l'.chars <+: cs → l'.chars.length ≤ l.chars.length

variable {l : Lexeme} {cs : List Char}

/-- Where a lexeme stands at the front, it is read, or a longer one is. -/
theorem IsWritten.exists_read?_append (hl : l.IsWritten) (rest : List Char) :
    ∃ l', read? (l.chars ++ rest) = some l' ∧ l.chars.length ≤ l'.chars.length := by
  cases l with
  | number n =>
    obtain ⟨n', rest', hsplit, hlength⟩ := Numeral.exists_split?_text_append hl rest
    refine ⟨.number n', ?_, ?_⟩
    · show read? (n.text ++ rest) = _
      unfold read?
      rw [hsplit]
    · -- both numerals make up the text with what is left
      have happend := congrArg List.length (Numeral.text_append_of_split? hsplit)
      rw [List.length_append, List.length_append] at happend
      show n.text.length ≤ n'.text.length
      omega
  | name ns =>
    have hpart := IsName.isNamePart hl
    obtain ⟨c, tail, rfl, hstart, _⟩ := hl
    refine ⟨.name ((c :: tail) ++ rest.takeWhile isNamePart), ?_, ?_⟩
    · show read? (c :: (tail ++ rest)) = _
      rw [read?_of_isNameStart hstart, ← List.cons_append, List.takeWhile_append_of_pos hpart]
    · show (c :: tail).length ≤ ((c :: tail) ++ rest.takeWhile isNamePart).length
      rw [List.length_append]
      exact Nat.le_add_right _ _
  | symbol s =>
    exact ⟨.symbol s, read?_symbol s rest, Nat.le_refl _⟩

/-- A lexeme is read if and only if it is the longest one at the front. -/
theorem read?_eq_some_iff : read? cs = some l ↔ l.IsLongest cs := by
  constructor
  · intro h
    refine ⟨.of_read? h, exists_chars_append_of_read? h, ?_⟩
    rintro l' hl' ⟨rest, rfl⟩
    obtain ⟨l'', h', hlength⟩ := hl'.exists_read?_append rest
    rw [h] at h'
    cases h'
    exact hlength
  · rintro ⟨hl, hfront, hle⟩
    obtain ⟨rest, rfl⟩ := hfront
    obtain ⟨l', h', hlength⟩ := hl.exists_read?_append rest
    have hl' := IsWritten.of_read? h'
    obtain ⟨rest', happend⟩ := exists_chars_append_of_read? h'
    -- both stand at the front and are equally long, so they are the same characters
    have hsame : l'.chars.length = l.chars.length :=
      Nat.le_antisymm (hle l' hl' ⟨rest', happend⟩) hlength
    have hchars : l'.chars = l.chars := (List.append_inj happend hsame).1
    have hread := hl'.read?_chars
    rw [hchars, hl.read?_chars] at hread
    rw [h', hread]

/-- The longest lexeme is still the longest where the text is cut behind it. -/
theorem IsLongest.take (h : l.IsLongest cs) {n : Nat} (hn : l.chars.length ≤ n) :
    l.IsLongest (cs.take n) where
  isWritten := h.isWritten
  front := List.prefix_take_iff.2 ⟨h.front, hn⟩
  length_le l' hl' hfront := h.length_le l' hl' (hfront.trans (List.take_prefix _ _))

/-- Nothing is read if and only if no lexeme stands at the front. -/
theorem read?_eq_none_iff :
    read? cs = none ↔ ∀ l : Lexeme, l.IsWritten → ¬ l.chars <+: cs := by
  constructor
  · rintro h l hl ⟨rest, rfl⟩
    obtain ⟨l', h', _⟩ := hl.exists_read?_append rest
    rw [h] at h'
    cases h'
  · intro h
    cases hread : read? cs with
    | none => rfl
    | some l => exact absurd (exists_chars_append_of_read? hread) (h l (.of_read? hread))

end Lexeme

end DirectionField
