import DirectionField.Json
import DirectionField.Proofs.FloatKinds
import DirectionField.Proofs.NumberText

/-!
# What a JSON line says outside its strings

A number that is not finite shows in a JSON line as one of the names `NaN`, `Infinity` and
`-Infinity`, which are no JSON. Strings may hold these letters too, so that a line is read without
what is in its strings (`Json.outside`). `Json.outside_render` says what is left of the text of a
value, and `Json.namesNonfinite_render_iff` that a name stands there if and only if some number is
not finite.
-/

/-! ## Separated lists -/

namespace List

variable {α : Type}

/-- What is in separated lists is in the separator or in one of them. -/
theorem mem_or_exists_mem_of_mem_intercalate {a : α} {sep : List α} {ls : List (List α)}
    (h : a ∈ sep.intercalate ls) : a ∈ sep ∨ ∃ l ∈ ls, a ∈ l := by
  -- by the lists; the last one has no separator behind it
  induction ls with
  | nil =>
    rw [intercalate_nil] at h
    cases h
  | cons l ls ih =>
    cases ls with
    | nil =>
      rw [intercalate_singleton] at h
      exact .inr ⟨l, mem_cons_self, h⟩
    | cons l' ls =>
      simp only [intercalate_cons_cons, mem_append] at h
      rcases h with (h | h) | h
      · exact .inr ⟨l, mem_cons_self, h⟩
      · exact .inl h
      · exact (ih h).imp_right fun ⟨m, hm, h⟩ => ⟨m, mem_cons_of_mem _ hm, h⟩

/-- Each of the separated lists stands there as a whole. -/
theorem infix_intercalate_of_mem {l sep : List α} {ls : List (List α)} (h : l ∈ ls) :
    l <:+: sep.intercalate ls := by
  induction ls with
  | nil => cases h
  | cons m ls ih =>
    cases ls with
    | nil =>
      rw [intercalate_singleton, mem_singleton.1 h]
    | cons m' ls =>
      rw [intercalate_cons_cons]
      rcases mem_cons.1 h with rfl | h
      · exact (prefix_append _ _).isInfix.trans (prefix_append _ _).isInfix
      · exact (ih h).trans (suffix_append _ _).isInfix

end List

namespace DirectionField

/-! ## The text of a finite number -/

/-- May the character stand in the text of a finite number? -/
def NumberText.isPart (c : Char) : Bool :=
  c.isDigit || c == '.' || c == 'e' || c == 'E' || c == '+' || c == '-'

/-- Digits stand in the text of a finite number. -/
theorem NumberText.isPart_of_isDigit {c : Char} (h : c.isDigit = true) : isPart c = true := by
  unfold isPart
  simp only [h, Bool.true_or]

/-- A numeral has no letter but that of its exponent. -/
theorem Numeral.isPart_of_mem_text {n : Numeral} (hn : n.IsProper) {c : Char} (h : c ∈ n.text) :
    NumberText.isPart c = true := by
  simp only [text, List.mem_append] at h
  -- digits in front of the point, behind it, and an exponent
  rcases h with (h | h) | h
  · exact NumberText.isPart_of_isDigit (hn.whole c h)
  · cases hf : n.fraction with
    | none => simp [hf] at h
    | some ds =>
      simp only [hf, Option.elim_some, List.mem_cons] at h
      rcases h with rfl | h
      · rfl
      · exact NumberText.isPart_of_isDigit (hn.fraction ds hf c h)
  · cases he : n.exponent with
    | none => simp [he] at h
    | some e =>
      have hproper := hn.exponent e he
      simp only [he, Option.elim_some, Exponent.text, List.mem_cons, List.mem_append,
        Option.mem_toList] at h
      rcases h with rfl | h | h
      · rcases hproper.letter with hl | hl <;> (rw [hl]; rfl)
      · rcases hproper.sign c h with rfl | rfl <;> rfl
      · exact NumberText.isPart_of_isDigit (hproper.digits c h)

/-- The shortest text of a finite number has no letter but that of an exponent, either. -/
theorem NumberText.isPart_of_mem_plain {x : Float} (hx : x.isFinite = true) {c : Char}
    (h : c ∈ (plain x).toList) : isPart c = true := by
  obtain ⟨hnan, hinf⟩ := isNaN_isInf_of_isFinite hx
  obtain ⟨n, hn, htext, _⟩ := exists_numeral_plainMagnitude ((isFinite_iff x).1 hx)
  simp only [plain, signed, hnan, hinf, Bool.false_eq_true, if_false, String.toList_ofList,
    List.mem_append, ← htext] at h
  rcases h with h | h
  · -- in front of the digits there is nothing but the sign
    split at h
    · rw [List.mem_singleton.1 h]
      rfl
    · cases h
  · exact Numeral.isPart_of_mem_text hn h

namespace Json

/-! ## Reading a line without its strings -/

/-- Where a reader of a line is. -/
inductive Place where
  | outside
  | inside
  /-- Inside a string, behind a backslash. -/
  | escaped

/-- What stands outside the strings of a line. Of a string, its two quotes are left. -/
def outsideFrom : Place → List Char → List Char
  | _, [] => []
  | .outside, c :: cs => c :: outsideFrom (if c = '"' then .inside else .outside) cs
  | .inside, c :: cs =>
    if c = '"' then c :: outsideFrom .outside cs
    else outsideFrom (if c = '\\' then .escaped else .inside) cs
  | .escaped, _ :: cs => outsideFrom .inside cs

/-- What stands outside the strings of a line. -/
def outside (line : String) : List Char := outsideFrom .outside line.toList

/-- A line has the name of a number that is not finite outside its strings. The name of the negative
    infinity holds that of the positive one. -/
def NamesNonfinite (line : String) : Prop :=
  "NaN".toList <:+: outside line ∨ "Infinity".toList <:+: outside line

/-- Texts between two brackets, with commas between them. -/
def enclosed (start stop : Char) (ls : List (List Char)) : List Char :=
  start :: ([','].intercalate ls ++ [stop])

/-- A character between brackets is a bracket, a comma, or one of the texts. -/
theorem mem_enclosed {c start stop : Char} {ls : List (List Char)} (h : c ∈ enclosed start stop ls) :
    c ∈ [start, stop, ','] ∨ ∃ l ∈ ls, c ∈ l := by
  simp only [enclosed, List.mem_cons, List.mem_append, List.not_mem_nil, or_false] at h ⊢
  rcases h with h | h | h
  · exact .inl (.inl h)
  · rcases List.mem_or_exists_mem_of_mem_intercalate h with h | h
    · exact .inl (.inr (.inr (List.mem_singleton.1 h)))
    · exact .inr h
  · exact .inl (.inr (.inl h))

/-- Each of the enclosed texts stands there as a whole. -/
theorem infix_enclosed {l : List Char} {ls : List (List Char)} (h : l ∈ ls) (start stop : Char) :
    l <:+: enclosed start stop ls :=
  (List.infix_intercalate_of_mem h).trans
    ((List.prefix_append _ _).isInfix.trans (List.suffix_cons _ _).isInfix)

/-- A piece of a line that starts and ends outside strings, and what is left of it. -/
def ReadsAs (cs out : List Char) : Prop :=
  ∀ rest, outsideFrom .outside (cs ++ rest) = out ++ outsideFrom .outside rest

namespace ReadsAs

theorem nil : ReadsAs [] [] := fun _ => rfl

/-- Two pieces are read one after the other. -/
theorem append {cs cs' out out' : List Char} (h : ReadsAs cs out) (h' : ReadsAs cs' out') :
    ReadsAs (cs ++ cs') (out ++ out') := by
  intro rest
  rw [List.append_assoc, h, h', List.append_assoc]

/-- A piece without quotes is left as it is. -/
theorem of_no_quote {cs : List Char} (h : '"' ∉ cs) : ReadsAs cs cs := by
  intro rest
  -- outside of strings, only a quote changes the place
  induction cs with
  | nil => rfl
  | cons c cs ih =>
    rw [List.mem_cons, not_or] at h
    show c :: outsideFrom (if c = '"' then .inside else .outside) (cs ++ rest) = _
    rw [if_neg (Ne.symm h.1), ih h.2, List.cons_append]

/-- Separated pieces between two brackets are read piece by piece. -/
theorem enclosed {start stop : Char} (hstart : start ≠ '"') (hstop : stop ≠ '"')
    {ls outs : List (List Char)} (h : List.Forall₂ ReadsAs ls outs) :
    ReadsAs (Json.enclosed start stop ls) (Json.enclosed start stop outs) := by
  have hchar {c : Char} (hc : c ≠ '"') : ReadsAs [c] [c] :=
    of_no_quote fun h => hc (List.mem_singleton.1 h).symm
  have hlist : ReadsAs ([','].intercalate ls) ([','].intercalate outs) := by
    induction h with
    | nil => exact nil
    | @cons l out ls outs hl hls ih =>
      cases hls with
      | nil =>
        rw [List.intercalate_singleton, List.intercalate_singleton]
        exact hl
      | cons hl' hls =>
        rw [List.intercalate_cons_cons, List.intercalate_cons_cons]
        exact (hl.append (hchar (by decide))).append ih
  exact (hchar hstart).append (hlist.append (hchar hstop))

end ReadsAs

/-! ## Strings -/

theorem hexDigit_ne {d : Nat} (h : d < 16) : Text.hexDigit d ≠ '"' ∧ Text.hexDigit d ≠ '\\' := by
  revert d
  decide

/-- Hexadecimal digits are neither quotes nor backslashes. -/
theorem not_mem_hexDigits (k n : Nat) :
    '"' ∉ Text.hexDigits k n ∧ '\\' ∉ Text.hexDigits k n := by
  induction k generalizing n with
  | zero => exact ⟨List.not_mem_nil, List.not_mem_nil⟩
  | succ k ih =>
    obtain ⟨hquote, hslash⟩ := hexDigit_ne (Nat.mod_lt n (by decide : 0 < 16))
    simp [Text.hexDigits, ih, hquote.symm, hslash.symm]

/-- Nothing inside a string that is neither a quote nor a backslash has a meaning. -/
theorem outsideFrom_inside_append {cs : List Char} (hquote : '"' ∉ cs) (hslash : '\\' ∉ cs)
    (rest : List Char) : outsideFrom .inside (cs ++ rest) = outsideFrom .inside rest := by
  induction cs with
  | nil => rfl
  | cons c cs ih =>
    rw [List.mem_cons, not_or] at hquote hslash
    show (if c = '"' then _ else
      outsideFrom (if c = '\\' then .escaped else .inside) (cs ++ rest)) = _
    rw [if_neg (Ne.symm hquote.1), if_neg (Ne.symm hslash.1), ih hquote.2 hslash.2]

/-- A code unit in a string is passed over. -/
theorem outsideFrom_inside_unitChars (n : Nat) (rest : List Char) :
    outsideFrom .inside (unitChars n ++ rest) = outsideFrom .inside rest :=
  outsideFrom_inside_append (not_mem_hexDigits 4 n).1 (not_mem_hexDigits 4 n).2 rest

/-- A character as it is written in a string does not end the string. -/
theorem outsideFrom_inside_escape (c : Char) (rest : List Char) :
    outsideFrom .inside (escape c ++ rest) = outsideFrom .inside rest := by
  unfold escape
  dsimp only
  split
  · rfl
  · next hplain =>
    -- the five control characters with a letter of their own
    iterate 5
      split
      · rfl
    split
    · -- a character that stands for itself
      obtain ⟨hquote, hslash⟩ := not_or.1 hplain
      exact outsideFrom_inside_append (fun h => hquote (List.mem_singleton.1 h).symm)
        (fun h => hslash (List.mem_singleton.1 h).symm) rest
    · split
      · exact outsideFrom_inside_unitChars _ rest
      · rw [List.append_assoc, outsideFrom_inside_unitChars, outsideFrom_inside_unitChars]

/-- A string is left with its two quotes. -/
theorem readsAs_quote (s : String) : ReadsAs (quote s).toList ['"', '"'] := by
  intro rest
  -- the escaped characters are passed over one by one, up to the closing quote
  have hinside (cs : List Char) :
      outsideFrom .inside (cs.flatMap escape ++ '"' :: rest) = '"' :: outsideFrom .outside rest := by
    induction cs with
    | nil => rfl
    | cons c cs ih => rw [List.flatMap_cons, List.append_assoc, outsideFrom_inside_escape, ih]
  unfold quote
  rw [String.toList_ofList, List.cons_append, List.append_assoc]
  show '"' :: outsideFrom .inside (s.toList.flatMap escape ++ '"' :: rest) = _
  rw [hinside]
  rfl

/-! ## Values -/

mutual

/-- The text of a value without what is in its strings. -/
def bare : Json → List Char
  | .null => "null".toList
  | .flag b => (if b then "true" else "false").toList
  | .integer n => (toString n).toList
  | .number x => (numberText x).toList
  | .text _ => ['"', '"']
  | .array items => enclosed '[' ']' (bareAll items)
  | .object members => enclosed '\x7b' '\x7d' (bareMembers members)

/-- The texts of the items of an array without what is in their strings. -/
def bareAll : List Json → List (List Char)
  | [] => []
  | j :: js => bare j :: bareAll js

/-- The texts of the members of an object without what is in their strings. -/
def bareMembers : List (String × Json) → List (List Char)
  | [] => []
  | (_, j) :: members => ('"' :: '"' :: ':' :: bare j) :: bareMembers members

end

mutual

/-- The numbers in a value, from left to right. -/
def numbers : Json → List Float
  | .number x => [x]
  | .array items => numbersAll items
  | .object members => numbersMembers members
  | _ => []

/-- The numbers in the items of an array. -/
def numbersAll : List Json → List Float
  | [] => []
  | j :: js => numbers j ++ numbersAll js

/-- The numbers in the members of an object. -/
def numbersMembers : List (String × Json) → List Float
  | [] => []
  | (_, j) :: members => numbers j ++ numbersMembers members

end

@[simp] theorem numbers_null : numbers .null = [] := rfl

@[simp] theorem numbers_integer (n : Int) : numbers (.integer n) = [] := rfl

@[simp] theorem numbers_number (x : Float) : numbers (.number x) = [x] := rfl

@[simp] theorem numbers_text (s : String) : numbers (.text s) = [] := rfl

/-- A number that may be `null` is in the value if it is finite. -/
theorem mem_numbers_finite {x y : Float} :
    x ∈ numbers (finite y) ↔ x = y ∧ y.isFinite = true := by
  unfold finite
  split <;> simp [*]

@[simp] theorem mem_numbers_array {x : Float} {items : List Json} :
    x ∈ numbers (.array items) ↔ ∃ j ∈ items, x ∈ numbers j := by
  show x ∈ numbersAll items ↔ _
  induction items with
  | nil => simp [numbersAll]
  | cons j js ih => simp [numbersAll, ih]

@[simp] theorem mem_numbers_object {x : Float} {members : List (String × Json)} :
    x ∈ numbers (.object members) ↔ ∃ m ∈ members, x ∈ numbers m.2 := by
  show x ∈ numbersMembers members ↔ _
  induction members with
  | nil => simp [numbersMembers]
  | cons m members ih => simp [numbersMembers, ih]

/-- All numbers of a value have a form in JSON. -/
def IsStrict (j : Json) : Prop := ∀ x ∈ numbers j, x.isFinite = true

/-! ## The texts of numbers -/

/-- An integer is written with digits and a sign. -/
theorem isPart_of_mem_toString {n : Int} {c : Char} (h : c ∈ (toString n).toList) :
    NumberText.isPart c = true := by
  cases n with
  | ofNat m =>
    change c ∈ m.repr.toList at h
    rw [Nat.toList_repr] at h
    exact NumberText.isPart_of_isDigit (Text.allDigits_toDigits m c h)
  | negSucc m =>
    change c ∈ ("-" ++ m.succ.repr).toList at h
    rw [String.toList_append, Nat.toList_repr] at h
    rcases List.mem_cons.1 h with rfl | h
    · rfl
    · exact NumberText.isPart_of_isDigit (Text.allDigits_toDigits _ c h)

/-- A number that is not finite is written by its name. -/
theorem numberText_of_not_isFinite {x : Float} (h : x.isFinite = false) :
    numberText x = "NaN" ∨ numberText x = "Infinity" ∨ numberText x = "-Infinity" := by
  unfold numberText
  by_cases hnan : x.isNaN = true
  · rw [if_pos hnan]
    exact .inl rfl
  · have hinf := (isNaN_or_isInf_of_not_isFinite h).resolve_left hnan
    rw [if_neg hnan, if_pos hinf]
    split
    · exact .inr (.inl rfl)
    · exact .inr (.inr rfl)

/-- A finite number is written in its shortest text. -/
theorem numberText_of_isFinite {x : Float} (h : x.isFinite = true) :
    numberText x = NumberText.plain x := by
  obtain ⟨hnan, hinf⟩ := isNaN_isInf_of_isFinite h
  unfold numberText
  rw [hnan, hinf]
  rfl

/-- Characters of numbers are no quotes, and the names of numbers that are not finite have
    others. -/
theorem not_mem_of_isPart {cs : List Char} (h : ∀ c ∈ cs, NumberText.isPart c = true) :
    '"' ∉ cs ∧ 'N' ∉ cs ∧ 'I' ∉ cs := by
  refine ⟨?_, ?_, ?_⟩
  all_goals
    intro hmem
    have hpart := h _ hmem
    -- the three letters are no parts of a number, which is decided for each
    revert hpart
    decide

/-- An integer has neither quotes nor the first letters of names. -/
theorem not_mem_toString (n : Int) :
    '"' ∉ (toString n).toList ∧ 'N' ∉ (toString n).toList ∧ 'I' ∉ (toString n).toList :=
  not_mem_of_isPart fun _ => isPart_of_mem_toString

/-- A finite number has neither quotes nor the first letters of names. -/
theorem not_mem_numberText {x : Float} (hx : x.isFinite = true) :
    '"' ∉ (numberText x).toList ∧ 'N' ∉ (numberText x).toList ∧ 'I' ∉ (numberText x).toList := by
  rw [numberText_of_isFinite hx]
  exact not_mem_of_isPart fun _ => NumberText.isPart_of_mem_plain hx

/-- Numbers stand outside of strings, and names of numbers as well. -/
theorem readsAs_numberText (x : Float) : ReadsAs (numberText x).toList (numberText x).toList := by
  apply ReadsAs.of_no_quote
  cases hx : x.isFinite with
  | true => exact (not_mem_numberText hx).1
  | false => rcases numberText_of_not_isFinite hx with h | h | h <;> (rw [h]; decide)

/-! ## The texts of values -/

mutual

/-- Outside its strings, the text of a value is what it is without them. -/
theorem readsAs_render : ∀ j : Json, ReadsAs (render j).toList (bare j)
  | .null => .of_no_quote (by decide)
  | .flag b => by
    cases b
    · exact .of_no_quote (by decide)
    · exact .of_no_quote (by decide)
  | .integer n => .of_no_quote (not_mem_toString n).1
  | .number x => readsAs_numberText x
  | .text s => readsAs_quote s
  -- the brackets and commas of the text are those of `enclosed`
  | .array items => by
    have h : ReadsAs (enclosed '[' ']' ((renderAll items).map String.toList))
        (bare (.array items)) :=
      .enclosed (by decide) (by decide) (readsAs_renderAll items)
    unfold render
    rw [String.toList_append, String.toList_append, String.toList_intercalate]
    exact h
  | .object members => by
    have h : ReadsAs (enclosed '\x7b' '\x7d' ((renderMembers members).map String.toList))
        (bare (.object members)) :=
      .enclosed (by decide) (by decide) (readsAs_renderMembers members)
    unfold render
    rw [String.toList_append, String.toList_append, String.toList_intercalate]
    exact h

theorem readsAs_renderAll : ∀ js : List Json,
    List.Forall₂ ReadsAs ((renderAll js).map String.toList) (bareAll js)
  | [] => .nil
  | j :: js => .cons (readsAs_render j) (readsAs_renderAll js)

theorem readsAs_renderMembers : ∀ members : List (String × Json),
    List.Forall₂ ReadsAs ((renderMembers members).map String.toList) (bareMembers members)
  | [] => .nil
  | (name, j) :: members => by
    have hcolon : ReadsAs [':'] [':'] := .of_no_quote (by decide)
    -- a member is its name in quotes, a colon and its value
    have hmember := ((readsAs_quote name).append hcolon).append (readsAs_render j)
    refine .cons ?_ (readsAs_renderMembers members)
    rw [String.toList_append, String.toList_append]
    exact hmember

end

/-- Outside its strings, a line is the value without them. -/
theorem outside_render (j : Json) : outside (render j) = bare j := by
  have h := readsAs_render j []
  rw [List.append_nil] at h
  exact h.trans (List.append_nil _)

/-- A text has none of the letters that the names of numbers that are not finite start with. -/
def IsNameless (cs : List Char) : Prop := 'N' ∉ cs ∧ 'I' ∉ cs

/-- Brackets and commas start no name. -/
theorem IsNameless.enclosed {start stop : Char} {ls : List (List Char)}
    (hmarks : IsNameless [start, stop, ',']) (h : ∀ l ∈ ls, IsNameless l) :
    IsNameless (enclosed start stop ls) := by
  constructor
  · intro hmem
    rcases mem_enclosed hmem with hmem | ⟨l, hl, hmem⟩
    · exact hmarks.1 hmem
    · exact (h l hl).1 hmem
  · intro hmem
    rcases mem_enclosed hmem with hmem | ⟨l, hl, hmem⟩
    · exact hmarks.2 hmem
    · exact (h l hl).2 hmem

mutual

/-- Without its strings, a value whose numbers are finite has no letter that starts a name. -/
theorem isNameless_bare : ∀ j : Json, IsStrict j → IsNameless (bare j)
  | .null, _ => ⟨by decide, by decide⟩
  | .flag b, _ => by
    cases b
    · exact ⟨by decide, by decide⟩
    · exact ⟨by decide, by decide⟩
  | .integer n, _ => (not_mem_toString n).2
  | .number x, h => (not_mem_numberText (h x List.mem_cons_self)).2
  | .text _, _ => (by decide : 'N' ∉ ['"', '"'] ∧ 'I' ∉ ['"', '"'])
  | .array items, h => .enclosed ⟨by decide, by decide⟩ (isNameless_bareAll items h)
  | .object members, h => .enclosed ⟨by decide, by decide⟩ (isNameless_bareMembers members h)

theorem isNameless_bareAll : ∀ js : List Json, (∀ x ∈ numbersAll js, x.isFinite = true) →
    ∀ l ∈ bareAll js, IsNameless l
  | [], _ => fun _ hl => (nomatch hl)
  | j :: js, h => by
    intro l hl
    rcases List.mem_cons.1 hl with rfl | hl
    · exact isNameless_bare j fun x hx => h x (List.mem_append_left _ hx)
    · exact isNameless_bareAll js (fun x hx => h x (List.mem_append_right _ hx)) l hl

theorem isNameless_bareMembers : ∀ members : List (String × Json),
    (∀ x ∈ numbersMembers members, x.isFinite = true) → ∀ l ∈ bareMembers members, IsNameless l
  | [], _ => fun _ hl => (nomatch hl)
  | (_, j) :: members, h => by
    intro l hl
    rcases List.mem_cons.1 hl with rfl | hl
    · -- what is left of the name of a member is its two quotes
      have hj := isNameless_bare j fun x hx => h x (List.mem_append_left _ hx)
      unfold IsNameless at hj ⊢
      simp [hj]
    · exact isNameless_bareMembers members (fun x hx => h x (List.mem_append_right _ hx)) l hl

end

mutual

/-- Every number of a value stands outside the strings. -/
theorem numberText_infix_bare : ∀ (j : Json) (x : Float), x ∈ numbers j →
    (numberText x).toList <:+: bare j
  | .null, _, h => nomatch h
  | .flag _, _, h => nomatch h
  | .integer _, _, h => nomatch h
  | .number y, x, h => by
    rw [List.mem_singleton.1 h]
    exact List.infix_refl _
  | .text _, _, h => nomatch h
  | .array items, x, h => by
    obtain ⟨l, hl, hx⟩ := exists_infix_bareAll items x h
    exact hx.trans (infix_enclosed hl _ _)
  | .object members, x, h => by
    obtain ⟨l, hl, hx⟩ := exists_infix_bareMembers members x h
    exact hx.trans (infix_enclosed hl _ _)

theorem exists_infix_bareAll : ∀ (js : List Json) (x : Float), x ∈ numbersAll js →
    ∃ l ∈ bareAll js, (numberText x).toList <:+: l
  | [], _, h => nomatch h
  | j :: js, x, h => by
    rcases List.mem_append.1 h with h | h
    · exact ⟨_, List.mem_cons_self, numberText_infix_bare j x h⟩
    · obtain ⟨l, hl, hx⟩ := exists_infix_bareAll js x h
      exact ⟨l, List.mem_cons_of_mem _ hl, hx⟩

theorem exists_infix_bareMembers : ∀ (members : List (String × Json)) (x : Float),
    x ∈ numbersMembers members → ∃ l ∈ bareMembers members, (numberText x).toList <:+: l
  | [], _, h => nomatch h
  | (_, j) :: members, x, h => by
    rcases List.mem_append.1 h with h | h
    · have hx := numberText_infix_bare j x h
      exact ⟨_, List.mem_cons_self, hx.trans (List.suffix_append ['"', '"', ':'] (bare j)).isInfix⟩
    · obtain ⟨l, hl, hx⟩ := exists_infix_bareMembers members x h
      exact ⟨l, List.mem_cons_of_mem _ hl, hx⟩

end

/-- The text of a value names a number that is not finite if and only if the value has one. -/
theorem namesNonfinite_render_iff (j : Json) : NamesNonfinite (render j) ↔ ¬ IsStrict j := by
  unfold NamesNonfinite
  rw [outside_render]
  constructor
  · intro h hstrict
    obtain ⟨hN, hI⟩ := isNameless_bare j hstrict
    rcases h with h | h
    · exact hN (h.mem (by decide))
    · exact hI (h.mem (by decide))
  · -- the number stands in the line, and there it is its name
    intro hnot
    unfold IsStrict at hnot
    push Not at hnot
    obtain ⟨x, hx, hfinite⟩ := hnot
    have hinfix := numberText_infix_bare j x hx
    rcases numberText_of_not_isFinite (Bool.eq_false_iff.2 hfinite) with h | h | h
    · rw [h] at hinfix
      exact .inl hinfix
    · rw [h] at hinfix
      exact .inr hinfix
    · rw [h] at hinfix
      exact .inr ((List.suffix_cons '-' "Infinity".toList).isInfix.trans hinfix)

end Json

end DirectionField
