import DirectionField.Proofs.ScanText
import DirectionField.Vocabulary.Basic

/-!
# What a line of the help text shows

A line of the help text is a call of its entry, with a description behind it if there is one. Whatever
the description is, the name and the number of parameters of that call can be read off the line again
(`Vocabulary.shownKey_helpLine`), so that no two entries of a vocabulary have the same line.
-/

namespace DirectionField

/-! ## Trimming -/

/-- Where a blank and perhaps more stands behind a text that does not end in a blank itself,
    trimming the end leaves the text, and behind it nothing or what starts with that blank. -/
theorem Text.exists_trimmed {cs : List Char} (hlast : ∀ c, cs.getLast? = some c → isBlank c = false)
    (tail : List Char) :
    ∃ rest, (trimEnd (String.ofList (cs ++ ' ' :: tail))).toList = cs ++ rest ∧
      EndsAt (· != ' ') rest := by
  have hkept : cs.reverse.dropWhile isBlank = cs.reverse := by
    refine EndsAt.dropWhile_eq_self fun c hc => hlast c ?_
    rwa [List.head?_reverse] at hc
  unfold trimEnd
  rw [String.toList_ofList, String.toList_ofList, List.reverse_append, List.dropWhile_append]
  split
  · -- all that stands behind the text is blank
    refine ⟨[], ?_, EndsAt.nil _⟩
    rw [hkept, List.reverse_reverse, List.append_nil]
  · refine ⟨((' ' :: tail).reverse.dropWhile isBlank).reverse, ?_, fun c hc => ?_⟩
    · rw [List.reverse_append, List.reverse_reverse]
    · -- dropping at the end leaves the front as it is
      have hfront : ((' ' :: tail).reverse.dropWhile isBlank).reverse <+: ' ' :: tail := by
        rw [← List.reverse_suffix, List.reverse_reverse]
        exact List.dropWhile_suffix _
      obtain ⟨dropped, hdropped⟩ := hfront
      have hhead := congrArg List.head? hdropped
      rw [List.head?_append, hc] at hhead
      cases hhead
      rfl

namespace Vocabulary

/-! ## Calls -/

/-- The parameters of a call as a line of the help text shows them, or nothing for a constant. -/
def parameterChars : Nat → List Char
  | 0 => []
  | n + 1 => '(' :: (", ".intercalate ((List.range (n + 1)).map parameterName)).toList ++ [')']

/-- Digits may stand in a name. -/
theorem isNamePart_of_isDigit {c : Char} (h : c.isDigit = true) : isNamePart c = true := by
  rw [isNamePart, h, Bool.or_true]

/-- No blank stands in a name. -/
theorem isBlank_of_isNamePart {c : Char} (h : isNamePart c = true) : Text.isBlank c = false := by
  rcases Bool.or_eq_true_iff.1 h with h | h
  · have hc := isNameStart_cases h
    exact Text.isBlank_eq_false (by omega) (by omega)
  · obtain ⟨hlo, hhi⟩ : 48 ≤ c.toNat ∧ c.toNat ≤ 57 := Char.isDigit_iff_toNat.1 h
    exact Text.isBlank_eq_false (by omega) (by omega)

/-- A parameter is named by a letter, perhaps with digits behind it. -/
theorem isNamePart_parameterName (i : Nat) : ∀ c ∈ (parameterName i).toList, isNamePart c = true := by
  intro c hc
  -- the first two parameters are `a` and `b`, and the others are numbered
  unfold parameterName at hc
  split at hc
  · rw [List.mem_singleton.1 (show c ∈ ['a'] from hc)]
    decide
  · rw [List.mem_singleton.1 (show c ∈ ['b'] from hc)]
    decide
  · rw [String.toList_append] at hc
    rcases List.mem_append.1 hc with hc | hc
    · rw [List.mem_singleton.1 (show c ∈ ['a'] from hc)]
      decide
    · change c ∈ (Nat.repr _).toList at hc
      rw [Nat.toList_repr] at hc
      exact isNamePart_of_isDigit (Text.allDigits_toDigits _ c hc)

/-- Between items without commas, a separator of a comma and a blank puts one comma each. No other
    character of a list is one that the items do not have. -/
theorem count_comma_intercalate {items : List (List Char)}
    (h : ∀ item ∈ items, ∀ c ∈ item, isNamePart c = true) :
    ([',', ' '].intercalate items).count ',' = items.length - 1 ∧
      ∀ c ∈ [',', ' '].intercalate items, c ≠ ')' := by
  -- neither a comma nor a parenthesis may stand in a name
  have hitem {item : List Char} (hitem : item ∈ items) : item.count ',' = 0 ∧ ∀ c ∈ item, c ≠ ')' := by
    refine ⟨List.count_eq_zero.2 fun hc => ?_, ?_⟩
    · exact absurd (h item hitem ',' hc) (by decide)
    · rintro c hc rfl
      exact absurd (h item hitem ')' hc) (by decide)
  -- each separator in front of a further item adds a comma
  induction items with
  | nil => exact ⟨rfl, nofun⟩
  | cons item items ih =>
    obtain ⟨hcount, hmem⟩ := hitem List.mem_cons_self
    cases items with
    | nil =>
      rw [List.intercalate_singleton]
      exact ⟨hcount, hmem⟩
    | cons item' items =>
      obtain ⟨hcount', hmem'⟩ := ih (fun i hi => h i (List.mem_cons_of_mem _ hi))
        fun hi => hitem (List.mem_cons_of_mem _ hi)
      rw [List.intercalate_cons_cons]
      constructor
      · rw [List.count_append, List.count_append, hcount, hcount']
        simp
        omega
      · intro c hc
        simp only [List.mem_append, List.mem_cons, List.not_mem_nil, or_false] at hc
        rcases hc with (hc | rfl | rfl) | hc
        · exact hmem c hc
        · decide
        · decide
        · exact hmem' c hc

/-! ## Lines -/

section

variable {α : Type} {e : Entry α}

/-- A call is shown as its name with its parameters behind it. -/
theorem toList_callShown (e : Entry α) :
    (callShown e).toList = e.name.toList ++ parameterChars e.arity := by
  obtain ⟨name, arity, meaning, description⟩ := e
  cases arity with
  | zero => exact (List.append_nil _).symm
  | succ n =>
    show (name ++ "(" ++ _ ++ ")").toList = _
    rw [String.toList_append, String.toList_append, String.toList_append, List.append_assoc,
      List.append_assoc]
    rfl

/-- A line is the call of its entry, and behind it nothing or what starts with a blank. -/
theorem exists_toList_helpLine (hname : Lexeme.IsName e.name.toList) :
    ∃ rest, (helpLine e).toList = e.name.toList ++ (parameterChars e.arity ++ rest) ∧
      Text.EndsAt (· != ' ') rest := by
  -- a call ends in the last character of its name or in a parenthesis
  have hlast : ∀ c, (e.name.toList ++ parameterChars e.arity).getLast? = some c →
      Text.isBlank c = false := by
    intro c hc
    cases harity : e.arity with
    | zero =>
      rw [harity, parameterChars, List.append_nil] at hc
      exact isBlank_of_isNamePart (hname.isNamePart c (List.mem_of_getLast? hc))
    | succ n =>
      rw [harity, parameterChars, ← List.append_assoc, List.getLast?_concat] at hc
      cases hc
      decide
  obtain ⟨rest, hrest, hend⟩ := Text.exists_trimmed hlast (' ' :: e.description.toList)
  refine ⟨rest, ?_, hend⟩
  -- the two blanks between call and description are where the end is trimmed to at most
  have hline : callShown e ++ "  " ++ e.description = String.ofList
      ((e.name.toList ++ parameterChars e.arity) ++ ' ' :: ' ' :: e.description.toList) := by
    rw [← toList_callShown, ← String.toList_inj, String.toList_ofList, String.toList_append,
      String.toList_append, List.append_assoc]
    rfl
  rw [helpLine, hline, hrest, List.append_assoc]

/-- The key of the entry that a line of the help text shows: the name at its front, and as many
    parameters as there are between parentheses behind it. -/
def shownKey (line : String) : String × Nat :=
  let arity :=
    match line.toList.dropWhile isNamePart with
    | '(' :: cs => (cs.takeWhile (· != ')')).count ',' + 1
    | _ => 0
  (String.ofList (line.toList.takeWhile isNamePart), arity)

/-- A line shows the name and the number of arguments of its entry. -/
theorem shownKey_helpLine (hname : Lexeme.IsName e.name.toList) : shownKey (helpLine e) = e.key := by
  obtain ⟨rest, hline, hrest⟩ := exists_toList_helpLine hname
  -- neither a parenthesis nor a blank belongs to the name
  have hend : Text.EndsAt isNamePart (parameterChars e.arity ++ rest) := by
    cases e.arity with
    | zero =>
      intro c hc
      have hblank : c = ' ' := by simpa using hrest c hc
      rw [hblank]
      decide
    | succ n => exact .cons (by decide) _
  unfold shownKey
  rw [hline, Text.takeWhile_append_of_endsAt hname.isNamePart hend,
    Text.dropWhile_append_of_endsAt hname.isNamePart hend, String.ofList_toList]
  refine Prod.ext rfl ?_
  show _ = e.arity
  cases e.arity with
  | zero =>
    cases rest with
    | nil => rfl
    | cons c rest =>
      have hblank : c = ' ' := by simpa using hrest c rfl
      rw [hblank]
      rfl
  | succ n =>
    have hparameters : ∀ item ∈ ((List.range (n + 1)).map parameterName).map String.toList,
        ∀ c ∈ item, isNamePart c = true := by
      intro item hitem
      obtain ⟨name, hmem, rfl⟩ := List.mem_map.1 hitem
      obtain ⟨i, _, rfl⟩ := List.mem_map.1 hmem
      exact isNamePart_parameterName i
    obtain ⟨hcount, hmem⟩ := count_comma_intercalate hparameters
    -- the parameters end at the closing parenthesis, so that nothing of the description is counted
    have hclosing : Text.EndsAt (· != ')') (')' :: rest) := .cons (by decide) _
    have htake : (((", ".intercalate ((List.range (n + 1)).map parameterName)).toList ++ [')'] ++
        rest).takeWhile (· != ')')) =
          [',', ' '].intercalate (((List.range (n + 1)).map parameterName).map String.toList) := by
      rw [List.append_assoc, String.toList_intercalate]
      exact Text.takeWhile_append_of_endsAt (fun c hc => by simpa using hmem c hc) hclosing
    show ((_ ++ [')'] ++ rest).takeWhile (· != ')')).count ',' + 1 = n + 1
    rw [htake, hcount, List.length_map, List.length_map, List.length_range]
    rfl

end

end Vocabulary

end DirectionField
