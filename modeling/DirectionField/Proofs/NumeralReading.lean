import DirectionField.Proofs.NumeralText

/-!
# A numeral is a number

The numerals of equations are among what input fields accept as numbers: `readFloat?` reads the text of
every numeral, in digits of any script, as the number that the numeral stands for
(`Numeral.readFloat?_text`).
-/

namespace DirectionField

/-! ## Blanks and separators -/

/-- Digits outside ASCII are not blank either. -/
theorem Text.toNat_of_isDigit {c : Char} (h : isDigit c = true) :
    (48 ≤ c.toNat ∧ c.toNat ≤ 57) ∨ (0x80 ≤ c.toNat ∧ c.toNat ∉ wideBlanks) := by
  have hapart : ∀ z ∈ digitZeros, ∀ b ∈ wideBlanks, ¬ (z ≤ b ∧ b < z + 10) := by decide
  unfold isDigit digitValue? at h
  by_cases hascii : c.toNat < 0x80
  · rw [if_pos hascii] at h
    by_cases hdigit : 0x30 ≤ c.toNat ∧ c.toNat ≤ 0x39
    · exact .inl hdigit
    · rw [if_neg hdigit] at h
      cases h
  · rw [if_neg hascii, Option.isSome_map] at h
    obtain ⟨z, hz⟩ := Option.isSome_iff_exists.1 h
    have hrange := List.find?_some hz
    simp only [Bool.and_eq_true, decide_eq_true_eq] at hrange
    exact .inr ⟨by omega, fun hb => hapart z (List.mem_of_find?_eq_some hz) _ hb hrange⟩

/-- No character from `!` to `~` is blank. -/
theorem Text.isBlank_eq_false {c : Char} (hlo : 33 ≤ c.toNat) (hhi : c.toNat ≤ 126) :
    isBlank c = false := by
  have hwide : c.toNat ∉ wideBlanks := by
    intro hmem
    have hall : ∀ n ∈ wideBlanks, 0x85 ≤ n := by decide
    have := hall c.toNat hmem
    omega
  rw [Bool.eq_false_iff]
  intro hblank
  simp only [isBlank, isPlainBlank, isWideBlank, Bool.or_eq_true, Bool.and_eq_true, beq_iff_eq,
    decide_eq_true_eq, List.contains_iff_mem, hwide, or_false] at hblank
  omega

/-- No digit is blank. -/
theorem Text.isBlank_of_isDigit {c : Char} (h : isDigit c = true) : isBlank c = false := by
  rcases toNat_of_isDigit h with ⟨hlo, hhi⟩ | ⟨hlo, hwide⟩
  · exact isBlank_eq_false (by omega) (by omega)
  · simp only [isBlank, isPlainBlank, isWideBlank, Bool.or_eq_false_iff, Bool.and_eq_false_iff,
      beq_eq_false_iff_ne, decide_eq_false_iff_not, List.contains_eq_mem, hwide, not_false_eq_true,
      and_true]
    omega

/-- The blanks around numbers are among the others. -/
theorem isNumberBlank_of_isBlank {c : Char} (h : Text.isBlank c = false) :
    isNumberBlank c = false := by
  simp only [Text.isBlank, Bool.or_eq_false_iff] at h
  rw [isNumberBlank, h.1.1, h.2]
  rfl

/-- Neither a digit nor a point is a capital letter. -/
theorem toLower_eq_self {c : Char} (h : Text.isDigit c = true ∨ c = '.') : c.toLower = c := by
  have hc : c.toNat < 65 ∨ 90 < c.toNat := by
    rcases h with h | rfl
    · have hdigit := Text.toNat_of_isDigit h
      omega
    · decide
  unfold Char.toLower
  rw [dif_neg]
  rintro ⟨hlo, hhi⟩
  have hlo' : 65 ≤ c.toNat := hlo
  have hhi' : c.toNat ≤ 90 := hhi
  omega

/-- There is nothing to drop from a text without underscores. -/
theorem dropSeparators?_eq_self {cs : List Char} (h : '_' ∉ cs) : dropSeparators? cs = some cs := by
  fun_induction dropSeparators? cs with
  | case1 => rfl
  | case2 => exact absurd List.mem_cons_self h
  | case3 => rfl
  | case4 => exact absurd (List.mem_cons_of_mem _ List.mem_cons_self) h
  | case5 => exact absurd (List.mem_cons_of_mem _ List.mem_cons_self) h
  | case6 => exact absurd List.mem_cons_self h
  | case7 c cs _ _ _ ih => rw [ih fun hmem => h (List.mem_cons_of_mem _ hmem)]; rfl

namespace Numeral

variable {n : Numeral}

/-- The characters of a numeral. -/
theorem mem_text (hn : n.IsWritten) {c : Char} (hc : c ∈ n.text) :
    Text.isDigit c = true ∨ c ∈ ['.', 'e', 'E', '+', '-'] := by
  unfold text at hc
  -- the digits before the point, the point and the digits behind it, and the exponent
  rcases List.mem_append.1 hc with hc | hc
  · rcases List.mem_append.1 hc with hc | hc
    · exact .inl (hn.whole c hc)
    · cases hfraction : n.fraction with
      | none => rw [hfraction] at hc; cases hc
      | some ds =>
        rw [hfraction] at hc
        rcases List.mem_cons.1 hc with rfl | hc
        · exact .inr (by decide)
        · exact .inl (hn.fraction ds hfraction c hc)
  · cases hexponent : n.exponent with
    | none => rw [hexponent] at hc; cases hc
    | some e =>
      have he := hn.exponent e hexponent
      rw [hexponent] at hc
      rcases List.mem_cons.1 hc with rfl | hc
      · rcases he.letter with h | h
        · rw [h]; exact .inr (by decide)
        · rw [h]; exact .inr (by decide)
      · rcases List.mem_append.1 hc with hc | hc
        · rcases he.sign c (Option.mem_toList.1 hc) with rfl | rfl
          · exact .inr (by decide)
          · exact .inr (by decide)
        · exact .inl (he.digits c hc)

/-- A numeral starts with a digit or a point. -/
theorem exists_text_eq_cons (hn : n.IsWritten) :
    ∃ c tail, n.text = c :: tail ∧ (Text.isDigit c = true ∨ c = '.') := by
  unfold text
  cases hwhole : n.whole with
  | cons c cs => exact ⟨c, _, rfl, .inl (hn.whole c (by rw [hwhole]; exact List.mem_cons_self))⟩
  | nil =>
    obtain ⟨ds, hds, _⟩ := hn.digits_ne_nil hwhole
    rw [hds]
    exact ⟨'.', _, rfl, .inr rfl⟩

/-- The text of a numeral is read as the number that it stands for. -/
theorem readFloat?_text (hn : n.IsWritten) : readFloat? (String.ofList n.text) = some n.value := by
  obtain ⟨c, tail, htext, hc⟩ := exists_text_eq_cons hn
  -- there is nothing to trim, to drop or to take off the front
  have htrim : Text.trimBy isNumberBlank n.text = n.text := by
    have hmarks (d : Char) (hd : d ∈ ['.', 'e', 'E', '+', '-']) : isNumberBlank d = false := by
      simp only [List.mem_cons, List.not_mem_nil, or_false] at hd
      rcases hd with rfl | rfl | rfl | rfl | rfl <;> decide
    exact Text.trimBy_eq_self fun d hd => (mem_text hn hd).elim (fun h =>
      isNumberBlank_of_isBlank (Text.isBlank_of_isDigit h)) (hmarks d)
  have hdrop : dropSeparators? n.text = some n.text := by
    refine dropSeparators?_eq_self fun hmem => ?_
    rcases mem_text hn hmem with h | h
    · exact absurd h (by decide)
    · exact absurd h (by decide)
  have hsign : splitSign n.text = (none, n.text) := by
    have hnot : ¬ (c = '+' ∨ c = '-') := by
      rintro (rfl | rfl)
      · exact absurd hc (by decide)
      · exact absurd hc (by decide)
    rw [htext, splitSign, if_neg hnot]
  -- and no word that stands for a number begins as a numeral does
  have hword {d : Char} {word : List Char} (hd : ∀ c, (Text.isDigit c = true ∨ c = '.') → c ≠ d) :
      n.text.map Char.toLower ≠ d :: word := by
    rw [htext, List.map_cons, toLower_eq_self hc]
    exact fun h => hd c hc (List.cons.inj h).1
  have hletter {d : Char} (hd : Text.isDigit d = false ∧ d ≠ '.') (c : Char)
      (hc : Text.isDigit c = true ∨ c = '.') : c ≠ d := by
    rintro rfl
    rw [hd.1] at hc
    exact hc.elim Bool.false_ne_true hd.2
  have hmagnitude : readMagnitude? n.text = some n.decimal.toBits := by
    unfold readMagnitude?
    dsimp only
    rw [if_neg ?_, split?_text hn]
    rintro (h | h)
    · exact hword (hletter (by decide)) h
    · exact hword (hletter (by decide)) h
  have hnan : n.text.map Char.toLower ≠ "nan".toList := hword (hletter (by decide))
  unfold readFloat?
  rw [String.toList_ofList, htrim, hdrop]
  simp only [Option.bind_eq_bind, Option.bind_some, hsign]
  rw [if_neg hnan, hmagnitude]
  rfl

end Numeral

end DirectionField
