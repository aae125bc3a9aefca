import DirectionField.Proofs.CanonicalTokens
import DirectionField.Proofs.Declarations
import DirectionField.Proofs.HelpLine
import DirectionField.Proofs.ParseCorrect

/-!
# The listing of a vocabulary

The help text goes through the names and for each through its overloads, where it looks the entry up. It
finds one each time, and every entry once, in the order of the first declarations of the names and of the
numbers of arguments (`Vocabulary.listing_perm`, `Vocabulary.listing_pairwise`). What its lines show is
what can be called: a call of a name with some arguments is read if and only if the name is listed with
that number of them (`Vocabulary.help_lists_calls`).
-/

namespace DirectionField

/-! ## First places -/

section

variable {α : Type} [DecidableEq α]

/-- What is left of a row keeps its order. -/
theorem idxOf_lt_of_filter {p : α → Bool} {l : List α} {a b : α} (ha : p a = true) (hb : p b = true)
    (h : (l.filter p).idxOf a < (l.filter p).idxOf b) : l.idxOf a < l.idxOf b := by
  induction l with
  | nil => exact absurd h (Nat.lt_irrefl _)
  | cons c l ih =>
    by_cases hc : p c = true
    · rw [List.filter_cons_of_pos hc, List.idxOf_cons, List.idxOf_cons] at h
      rw [List.idxOf_cons, List.idxOf_cons]
      -- the first element is one of the two, or neither, and then both move up by one place
      cases hca : c == a <;> cases hcb : c == b <;> simp only [hca, hcb, cond_true, cond_false] at h ⊢
      · have hlt := ih (by omega)
        omega
      · omega
      · omega
      · omega
    · -- neither of the two is left out
      have hne {d : α} (hd : p d = true) : c ≠ d := by
        rintro rfl
        exact hc hd
      rw [List.filter_cons_of_neg hc] at h
      rw [List.idxOf_cons_ne _ (hne ha), List.idxOf_cons_ne _ (hne hb)]
      exact Nat.succ_lt_succ (ih h)

/-- Without repetitions, a row is in the order of the first places. -/
theorem pairwise_idxOf_eraseDups (l : List α) :
    l.eraseDups.Pairwise fun a b => l.idxOf a < l.idxOf b := by
  cases l with
  | nil => exact .nil
  | cons a l =>
    have hmem {b : α} (hb : b ∈ (l.filter fun c => !c == a).eraseDups) : (!b == a) = true :=
      (List.mem_filter.1 (List.mem_eraseDups.1 hb)).2
    have hne {b : α} (hb : b ∈ (l.filter fun c => !c == a).eraseDups) : a ≠ b := by
      rintro rfl
      simpa using hmem hb
    -- the first element comes first, and the others are those of the row without it
    rw [List.eraseDups_cons]
    refine List.pairwise_cons.2 ⟨fun b hb => ?_,
      (pairwise_idxOf_eraseDups (l.filter fun c => !c == a)).imp_of_mem fun hb hc h => ?_⟩
    · rw [List.idxOf_cons_self, List.idxOf_cons_ne _ (hne hb)]
      exact Nat.succ_pos _
    · rw [List.idxOf_cons_ne _ (hne hb), List.idxOf_cons_ne _ (hne hc)]
      exact Nat.succ_lt_succ (idxOf_lt_of_filter (hmem hb) (hmem hc) h)
termination_by l.length
decreasing_by
  rw [List.length_cons]
  exact Nat.lt_succ_of_le (List.length_filter_le _ _)

end

/-! ## Entries -/

namespace Vocabulary

variable {α : Type} (v : Vocabulary α)

/-- The entries of the help text. -/
def listing : List (Entry α) :=
  v.names.flatMap fun name => (v.arities name).filterMap (v.resolve? name)

/-- The name of the first entry is declared before that of the second, or they are overloads in
    ascending order. -/
def Before (e e' : Entry α) : Prop :=
  (v.entries.map Entry.name).idxOf e.name < (v.entries.map Entry.name).idxOf e'.name ∨
    (e.name = e'.name ∧ e.arity < e'.arity)

/-- The help text has one line for each entry of the listing. -/
theorem help_eq_map : v.help = v.listing.map helpLine := by
  unfold help listing
  rw [List.map_flatMap]

variable {v}

/-- The name of an entry is one of the names. -/
theorem mem_names {e : Entry α} (h : e ∈ v.entries) : e.name ∈ v.names :=
  List.mem_eraseDups.2 (List.mem_map_of_mem h)

/-- The number of arguments of an entry is one of those that its name takes. -/
theorem mem_arities {e : Entry α} (h : e ∈ v.entries) : e.arity ∈ v.arities e.name :=
  (v.mem_arities_iff e.name e.arity).2 ⟨e, h, rfl, rfl⟩

/-- An entry is what its key is looked up as. -/
theorem resolve?_of_mem {e : Entry α} (h : e ∈ v.entries) : v.resolve? e.name e.arity = some e := by
  obtain ⟨e', he'⟩ := exists_resolve?_of_mem_arities (mem_arities h)
  obtain ⟨hmem, hname, harity⟩ := mem_of_resolve? he'
  have hkey : e'.key = e.key := by rw [Entry.key, Entry.key, hname, harity]
  rw [he', List.inj_on_of_nodup_map v.keys_nodup hmem h hkey]

/-- What is listed is what is declared. -/
theorem mem_listing_iff {e : Entry α} : e ∈ v.listing ↔ e ∈ v.entries := by
  unfold listing
  simp only [List.mem_flatMap, List.mem_filterMap]
  constructor
  · rintro ⟨name, _, n, _, h⟩
    exact (mem_of_resolve? h).1
  · intro h
    exact ⟨e.name, mem_names h, e.arity, mem_arities h, resolve?_of_mem h⟩

/-- The listing is in the order of the names, and in that of the numbers of arguments for each of
    them. -/
theorem listing_pairwise : v.listing.Pairwise v.Before := by
  refine List.pairwise_flatMap.2 ⟨fun name _ => ?_, ?_⟩
  · -- the overloads of a name are in ascending order
    refine List.pairwise_filterMap.2 ((v.arities_pairwise_lt name).imp fun hlt e he e' he' => .inr ?_)
    obtain ⟨_, hname, rfl⟩ := mem_of_resolve? he
    obtain ⟨_, hname', rfl⟩ := mem_of_resolve? he'
    exact ⟨hname.trans hname'.symm, hlt⟩
  · -- entries with different names are in the order of the names
    refine (pairwise_idxOf_eraseDups (v.entries.map Entry.name)).imp fun hlt e he e' he' => .inl ?_
    obtain ⟨_, _, h⟩ := List.mem_filterMap.1 he
    obtain ⟨_, _, h'⟩ := List.mem_filterMap.1 he'
    rw [(mem_of_resolve? h).2.1, (mem_of_resolve? h').2.1]
    exact hlt

/-- Every entry is listed once. -/
theorem listing_perm : v.listing.Perm v.entries := by
  have hnodup : v.listing.Nodup := listing_pairwise.imp fun h heq => by
    subst heq
    rcases h with h | ⟨_, h⟩
    · exact Nat.lt_irrefl _ h
    · exact Nat.lt_irrefl _ h
  exact (List.perm_ext_iff_of_nodup hnodup v.keys_nodup.of_map).2 fun e => mem_listing_iff

/-- A name is listed with the numbers of arguments that it takes. -/
theorem mem_keys_listing_iff {name : String} {n : Nat} :
    (name, n) ∈ v.listing.map Entry.key ↔ n ∈ v.signature.arities name := by
  show _ ↔ n ∈ v.arities name
  rw [mem_arities_iff, List.mem_map]
  simp only [mem_listing_iff, Entry.key, Prod.mk.injEq]

end Vocabulary

/-! ## Calls -/

namespace Expr

/-- The text that calls a name with `k` arguments, each of them `x`. -/
def callText (name : String) (k : Nat) : String :=
  name ++ "(" ++ ", ".intercalate (List.replicate k "x") ++ ")"

/-- The arguments of that call. -/
def xArguments (k : Nat) : List Expr := List.replicate k (.var .x)

/-- The arguments are written as the canonical text of a call writes them. -/
theorem toList_intercalate_xArguments (k : Nat) :
    (", ".intercalate (List.replicate (k + 1) "x")).toList =
      'x' :: canonicalArguments (xArguments k) := by
  rw [String.toList_intercalate, List.map_replicate]
  unfold xArguments
  -- by the number of arguments behind the first one
  induction k with
  | zero => rfl
  | succ k ih =>
    rw [List.replicate_succ, List.replicate_succ, List.intercalate_cons_cons, ← List.replicate_succ, ih,
      List.replicate_succ, canonicalArguments]
    rfl

/-- The arguments are scanned as variables with commas between them. -/
theorem scans_xArguments (k : Nat) {rest : List Char} (hrest : Text.EndsAt Lexeme.goesOn rest) :
    Scans (", ".intercalate (List.replicate k "x")).toList (listLexemes (xArguments k)) rest := by
  have hname : Lexeme.IsName ['x'] := ⟨'x', [], rfl, by decide, by simp⟩
  cases k with
  | zero => exact .nil rest
  | succ k =>
    have hvariable : ∀ e ∈ xArguments k, ∀ rest, Text.EndsAt Lexeme.goesOn rest →
        Scans e.canonicalChars e.canonicalLexemes rest := by
      intro e he rest hrest
      rw [List.eq_of_mem_replicate he]
      exact .name hname hrest
    rw [toList_intercalate_xArguments]
    exact (Scans.name hname (endsAt_canonicalArguments _ hrest)).append
      (scans_canonicalArguments hvariable hrest)

/-- The call is scanned as its name, its arguments and two parentheses. -/
theorem exists_scan_callText {name : String} (hname : Lexeme.IsName name.toList) (k : Nat) :
    ∃ tokens, Token.lexemes tokens = .name name.toList :: .symbol .opening ::
        (listLexemes (xArguments k) ++ [.symbol .closing]) ∧
      Token.scan (callText name k) = .ok tokens := by
  apply Scans.exists_scan
  unfold callText
  rw [String.toList_append, String.toList_append, String.toList_append, List.append_assoc,
    List.append_assoc]
  exact (Scans.name hname (Text.EndsAt.cons (by decide) _)).append
    (.symbol .opening ((scans_xArguments k (endsAt_closing [])).append (.symbol .closing (.nil []))))

/-- Each argument is a token, and so is each comma between two of them. -/
theorem length_listLexemes_xArguments (k : Nat) : (listLexemes (xArguments k)).length = 2 * k - 1 := by
  cases k with
  | zero => rfl
  | succ k =>
    have harguments : (argumentLexemes (xArguments k)).length = 2 * k := by
      unfold xArguments
      induction k with
      | zero => rfl
      | succ k ih =>
        rw [List.replicate_succ, argumentLexemes, List.length_cons, List.length_append, ih]
        show 1 + 2 * k + 1 = _
        omega
    show ([Lexeme.name ['x']] ++ argumentLexemes (xArguments k)).length = _
    rw [List.length_append, harguments, List.length_singleton]
    omega

/-- Arguments that are variables are written without anything open. -/
theorem derives_xArguments (sig : Signature) (k : Nat) :
    Derives sig (.arguments (xArguments k)) 0 (listLexemes (xArguments k) ++ [.symbol .closing]) [] := by
  have hvariable (l : Lexeme) (rest : List Lexeme) (hl : l ≠ .symbol .opening) :
      Derives sig (.expression (.var .x)) 0 (.name Variable.x.name.toList :: l :: rest) (l :: rest) :=
    expression_of_primary (.primary_variable (by simpa using hl))
  cases k with
  | zero => exact .arguments_none
  | succ k =>
    refine .arguments_list ?_
    unfold xArguments
    induction k with
    | zero => exact .list_one (hvariable _ _ nofun)
    | succ k ih => exact .list_cons (hvariable _ _ nofun) ih

section

variable {sig : Signature} {stop : Nat} {deeper : Option (Reader Expr)} {t : Token} {name : String}
  {tokens rest : List Token}

/-- A call with a number of arguments that the name does not take is refused for that number, or
    because the name is not known at all. -/
theorem callOf_eq_error {args : List Expr}
    (happ : application sig stop deeper t name tokens = .ok (args, rest))
    (harity : args.length ∉ sig.arities name) :
    callOf sig stop deeper t name tokens = .error
      ⟨if sig.knows name then .argumentCount name (sig.arities name) args.length
        else .unknownName name, some t.pos⟩ := by
  unfold callOf
  cases hknows : sig.knows name with
  | true =>
    have hnot : ¬ sig.accepts name args.length = true := mt (sig.accepts_iff name _).1 harity
    rw [if_pos rfl, if_pos rfl, happ]
    exact if_neg hnot
  | false => rfl

/-- A name alone that is not a constant is refused too, whatever numbers of arguments it takes. -/
theorem callOf_nil_eq_error (harity : 0 ∉ sig.arities name) :
    callOf sig stop deeper t name [] = .error
      ⟨if sig.knows name then .needsArgument name else .unknownName name, some t.pos⟩ := by
  have hnot : ¬ sig.accepts name 0 = true := mt (sig.accepts_iff name 0).1 harity
  unfold callOf
  cases sig.knows name with
  | true =>
    unfold application
    dsimp only
    rw [if_neg hnot]
    rfl
  | false => rfl

/-- Whatever is open around it, the argument list is read whole. -/
theorem application_xArguments {k levels : Nat}
    (htokens : Token.lexemes tokens =
      .symbol .opening :: (listLexemes (xArguments k) ++ [.symbol .closing])) :
    application sig stop (some (operandReader sig stop levels)) t name tokens =
      .ok (xArguments k, []) := by
  obtain ⟨s, rest, rfl, hs, hrest⟩ := lexemes_eq_cons htokens
  obtain ⟨after, hafter, haccepts⟩ :=
    accepts_of_derives (derives_xArguments sig k) stop levels (Nat.zero_le _) rest hrest
  obtain rfl : after = [] := List.map_eq_nil_iff.1 hafter
  rw [application_opening hs]
  exact haccepts s

/-! ### Whole texts -/

/-- A chain without a first operand is none. -/
theorem chain_eq_error {op? : Lexeme → Option BinaryOp} {operand : Reader Expr} {e : EquationError}
    (h : operand tokens = .error e) : chain op? operand tokens = .error e := by
  unfold chain
  rw [h]
  rfl

/-- A text that starts with a name is refused if the call of it is. -/
theorem parse_eq_error_of_callOf {text : String} {e : EquationError}
    (hscan : Token.scan text = .ok (t :: tokens)) (ht : t.lexeme = .name name.toList)
    (hvar : ∀ v, Variable.name v ≠ name) (hlength : (t :: tokens).length ≤ tokenLimit)
    (h : callOf sig text.length (some (operandReader sig text.length 99)) t name tokens = .error e) :
    parse sig text = .error e := by
  have hoperand : operandReader sig text.length nestingLimit (t :: tokens) = .error e :=
    (unary_name ht hvar).trans h
  have hexpression : expression (operandReader sig text.length nestingLimit) (t :: tokens) = .error e :=
    chain_eq_error (chain_eq_error hoperand)
  unfold parse
  rw [hscan]
  show ofTokens sig text.length (t :: tokens) = .error e
  unfold ofTokens
  rw [List.getElem?_eq_none hlength, hexpression]
  rfl

end

section

variable (sig : Signature) {name : String} (hname : Lexeme.IsName name.toList)
  (hvar : ∀ v, Variable.name v ≠ name)

include hname hvar

/-- A call is parsed if the name takes that many arguments, and it is refused otherwise. -/
theorem parse_callText {k : Nat} (hk : 2 * k + 2 ≤ tokenLimit) :
    (k ∈ sig.arities name → parse sig (callText name k) = .ok (.call name (xArguments k))) ∧
      (k ∉ sig.arities name → ∃ position, parse sig (callText name k) = .error
        ⟨if sig.knows name then .argumentCount name (sig.arities name) k else .unknownName name,
          position⟩) := by
  obtain ⟨tokens, hlexemes, hscan⟩ := exists_scan_callText hname k
  have hcount := length_listLexemes_xArguments k
  have hargs : (xArguments k).length = k := List.length_replicate
  -- a name, two parentheses and the arguments: `2 * k + 2` tokens, or three without arguments
  have hlength : 1 ≤ tokens.length ∧ tokens.length ≤ tokenLimit := by
    rw [← Token.length_lexemes, hlexemes]
    simp only [List.length_cons, List.length_append, hcount, List.length_nil]
    unfold tokenLimit at hk ⊢
    omega
  constructor
  · intro harity
    rw [← hargs] at harity
    refine (parse_eq_ok_iff ..).2 ⟨tokens, hscan, hlength.1, hlength.2, 1, by decide, ?_⟩
    rw [hlexemes]
    exact expression_of_primary (.primary_call (.call_arguments hvar harity (derives_xArguments sig k)))
  · intro harity
    obtain ⟨t, rest, rfl, ht, hrest⟩ := lexemes_eq_cons hlexemes
    refine ⟨some t.pos, parse_eq_error_of_callOf hscan ht hvar hlength.2 ?_⟩
    exact (callOf_eq_error (application_xArguments hrest) (by rwa [hargs])).trans (by rw [hargs])

/-- A call is read if the name takes that many arguments. Otherwise it is refused with a problem,
    unless one of the numbers that the name does take is too long to be written. -/
theorem read_callText {k : Nat} (hk : 2 * k + 2 ≤ tokenLimit) :
    (k ∈ sig.arities name → read sig (callText name k) = .ok (.call name (xArguments k))) ∧
      (k ∉ sig.arities name → (∀ n ∈ sig.arities name, NumberText.isTooLong (n : Nat) = false) →
        ∃ message position,
          read sig (callText name k) = .error (.problem (.equation message position))) ∧
      (k ∉ sig.arities name → ∀ n ∈ sig.arities name, NumberText.isTooLong (n : Nat) = true →
        read sig (callText name k) = .error (.fault (.integerTooLong NumberText.digitLimit))) := by
  obtain ⟨hparsed, hrefused⟩ := parse_callText sig hname hvar hk
  refine ⟨fun harity => ?_, fun harity hshort => ?_, fun harity n hn hlong => ?_⟩
  · rw [read, hparsed harity]
    rfl
  · obtain ⟨position, h⟩ := hrefused harity
    rcases read_cases sig (callText name k) with ⟨_, htree, _⟩ | ⟨e, message, _, _, hread⟩ |
      ⟨⟨name', _, _, h', n, hn, hlong⟩, _⟩
    · rw [h] at htree
      cases htree
    · exact ⟨message, e.position, hread⟩
    · -- it would have to be the number of arguments that is wrong, and of this very name
      rw [h] at h'
      split at h'
      · cases h'
        rw [hshort n hn] at hlong
        cases hlong
      · cases h'
  · obtain ⟨position, h⟩ := hrefused harity
    have hknows : sig.knows name = true := by
      rw [Signature.knows, List.isEmpty_eq_false_iff_exists_mem.2 ⟨n, hn⟩]
      rfl
    rw [if_pos hknows] at h
    exact read_eq_fault_iff.2 ⟨rfl, name, k, position, h, n, hn, hlong⟩

/-- A name alone is read if it is a constant, and it is refused with a problem otherwise. -/
theorem read_name :
    (0 ∈ sig.arities name → read sig name = .ok (.call name [])) ∧
      (0 ∉ sig.arities name →
        ∃ message position, read sig name = .error (.problem (.equation message position))) := by
  obtain ⟨tokens, hlexemes, hscan⟩ := (Scans.name hname (Text.EndsAt.nil _)).exists_scan
  obtain ⟨t, rest, rfl, ht, hrest⟩ := lexemes_eq_cons hlexemes
  obtain rfl : rest = [] := List.map_eq_nil_iff.1 hrest
  constructor
  · intro harity
    rw [read, (parse_eq_ok_iff ..).2 ⟨[t], hscan, by simp, by simp, 0, by decide, ?_⟩]
    · rfl
    · rw [hlexemes]
      exact expression_of_primary
        (.primary_call (.call_constant hvar (by simp) (by simp) harity))
  · intro harity
    have hlength : [t].length ≤ tokenLimit := by simp [tokenLimit]
    have h := parse_eq_error_of_callOf hscan ht hvar hlength (callOf_nil_eq_error harity)
    rw [read, h]
    -- neither refusal shows a number
    split
    · exact ⟨_, _, rfl⟩
    · exact ⟨_, _, rfl⟩

end

end Expr

namespace Vocabulary

/-- The help text has a line for each entry, and no line twice: name by name in the order of the first
    declarations, and for each name in ascending order of the numbers of arguments, each of which has an
    entry. A line shows the name and the number of arguments of its entry.

    Of the names that are no variables, whether they are declared or not, those calls are read that are
    listed, as long as they are not longer than equations may be. Other calls of such a length are refused
    with a problem, unless the name is listed with a number of arguments that is too long to be written,
    and then there is a fault instead. A name alone is read if it is listed without arguments, and it is
    refused with a problem otherwise. -/
theorem help_lists_calls {α : Type} (v : Vocabulary α)
    (hnames : ∀ e ∈ v.entries, Lexeme.IsName e.name.toList) :
    (v.help = v.listing.map helpLine ∧ v.help.map shownKey = v.listing.map Entry.key ∧
      v.help.Nodup) ∧
    v.listing.Perm v.entries ∧ v.listing.Pairwise v.Before ∧
    (∀ name ∈ v.names, ∀ n ∈ v.arities name, (v.resolve? name n).isSome) ∧
    ∀ name : String, Lexeme.IsName name.toList → name ≠ "x" → name ≠ "y" →
      (∀ k, 2 * k + 2 ≤ tokenLimit →
        ((name, k) ∈ v.listing.map Entry.key →
          Expr.read v.signature (Expr.callText name k) =
            .ok (.call name (List.replicate k (.var .x)))) ∧
        ((name, k) ∉ v.listing.map Entry.key →
          (∀ n : Nat, (name, n) ∈ v.listing.map Entry.key → NumberText.isTooLong n = false) →
          ∃ message position, Expr.read v.signature (Expr.callText name k) =
            .error (.problem (.equation message position))) ∧
        ((name, k) ∉ v.listing.map Entry.key →
          ∀ n : Nat, (name, n) ∈ v.listing.map Entry.key → NumberText.isTooLong n = true →
          Expr.read v.signature (Expr.callText name k) =
            .error (.fault (.integerTooLong NumberText.digitLimit)))) ∧
      ((∃ e, Expr.read v.signature name = .ok e) ↔ (name, 0) ∈ v.listing.map Entry.key) ∧
      ((name, 0) ∉ v.listing.map Entry.key → ∃ message position,
        Expr.read v.signature name = .error (.problem (.equation message position))) := by
  have hshown : v.help.map shownKey = v.listing.map Entry.key := by
    rw [help_eq_map, List.map_map]
    exact List.map_congr_left fun e he => shownKey_helpLine (hnames e (mem_listing_iff.1 he))
  -- lines that show different keys are different
  have hnodup : v.help.Nodup := by
    have hkeys : (v.listing.map Entry.key).Nodup :=
      ((listing_perm.map Entry.key).nodup_iff).2 v.keys_nodup
    rw [← hshown] at hkeys
    exact hkeys.of_map
  refine ⟨⟨v.help_eq_map, hshown, hnodup⟩, listing_perm, listing_pairwise,
    fun name _ n hn => (v.mem_arities_iff_resolve? name n).1 hn, fun name hname hx hy => ?_⟩
  have hvar : ∀ u, Variable.name u ≠ name := by
    intro u
    cases u with
    | x => exact hx.symm
    | y => exact hy.symm
  simp only [mem_keys_listing_iff]
  obtain ⟨halone, hrefused⟩ := Expr.read_name v.signature hname hvar
  refine ⟨fun k hk => Expr.read_callText v.signature hname hvar hk, ⟨?_, fun h => ⟨_, halone h⟩⟩,
    hrefused⟩
  -- a name alone that is read is not refused
  rintro ⟨e, he⟩
  by_contra harity
  obtain ⟨message, position, h⟩ := hrefused harity
  rw [he] at h
  cases h

/-- The names of the standard vocabulary are names of the language. -/
theorem standard_isName (lib : Elementary) :
    ∀ e ∈ (standard lib).entries, Lexeme.IsName e.name.toList := by
  have hnames : ∀ name ∈ (standardDeclarations lib).map Declaration.name,
      (name.toList.head?.any isNameStart && name.toList.tail.all isNamePart) = true := by
    -- the declarations are gone through by their names, whatever the mathematics library
    unfold standardDeclarations
    simp only [List.map_cons, List.map_nil]
    decide
  intro e he
  obtain ⟨d, hd, rfl⟩ := List.mem_map.1 he
  obtain ⟨hstart, hpart⟩ := Bool.and_eq_true_iff.1 (hnames _ (List.mem_map_of_mem hd))
  show Lexeme.IsName d.name.toList
  cases hname : d.name.toList with
  | nil => rw [hname] at hstart; cases hstart
  | cons c tail =>
    rw [hname] at hstart hpart
    exact ⟨c, tail, rfl, hstart, List.all_eq_true.1 hpart⟩

/-- The standard vocabulary has logarithms of one and of two arguments and no constant of that
    name. -/
theorem help_lists_calls_log :
    let v := standard Elementary.native
    (∀ e ∈ v.entries, Lexeme.IsName e.name.toList) ∧ ("log", 2) ∈ v.help.map shownKey ∧
      Expr.read v.signature "log(x, x)" = .ok (.call "log" [.var .x, .var .x]) ∧
      (∃ message position, Expr.read v.signature "log(x, x, x)" =
        .error (.problem (.equation message position))) ∧
      ¬ ∃ e, Expr.read v.signature "log" = .ok e := by
  intro v
  have hname : Lexeme.IsName "log".toList :=
    ⟨'l', ['o', 'g'], rfl, by decide, by simp [isNamePart, isNameStart]⟩
  have hlisted (n : Nat) : ("log", n) ∈ v.listing.map Entry.key ↔ n = 1 ∨ n = 2 := by
    rw [mem_keys_listing_iff]
    show n ∈ v.arities "log" ↔ _
    simp [v, mem_arities_iff, standard, standardEntries, standardDeclarations]
    omega
  have hnames := standard_isName Elementary.native
  obtain ⟨⟨_, hshown, _⟩, _, _, _, hcalls⟩ := help_lists_calls v hnames
  obtain ⟨hcall, halone, _⟩ := hcalls "log" hname (by decide) (by decide)
  -- both numbers of arguments are short
  have hshort (n : Nat) (hn : ("log", n) ∈ v.listing.map Entry.key) :
      NumberText.isTooLong n = false := by
    rcases (hlisted n).1 hn with rfl | rfl
    · decide +kernel
    · decide +kernel
  refine ⟨hnames, hshown ▸ (hlisted 2).2 (by decide),
    (hcall 2 (by decide)).1 ((hlisted 2).2 (by decide)), (hcall 3 (by decide)).2.1
      (mt (hlisted 3).1 (by decide)) hshort, ?_⟩
  rw [halone, hlisted]
  decide

section

-- A power is that of the core library, also where another library has its own.
attribute [local instance (2000)] instPowNat

/-- A call that is not listed, and is not refused with a problem either. -/
theorem unlisted_call_without_problem :
    let v : Vocabulary Unit := ⟨[⟨"f", 10 ^ 5000, (), ""⟩], List.pairwise_singleton _ _⟩
    ("f", 1) ∉ v.listing.map Entry.key ∧ ∀ message position,
      Expr.read v.signature (Expr.callText "f" 1) ≠ .error (.problem (.equation message position)) := by
  intro v
  have hname : Lexeme.IsName "f".toList := ⟨'f', [], rfl, by decide, nofun⟩
  have hvar : ∀ u, Variable.name u ≠ "f" := by
    intro u
    cases u <;> decide
  have harities : v.signature.arities "f" = [10 ^ 5000] := by decide +kernel
  have hnot : 1 ∉ v.signature.arities "f" := by
    rw [harities]
    decide +kernel
  have hread := (Expr.read_callText v.signature hname hvar (k := 1) (by decide)).2.2 hnot (10 ^ 5000)
    (harities ▸ List.mem_singleton.2 rfl) (by decide +kernel)
  exact ⟨mem_keys_listing_iff.not.2 hnot, fun message position => hread ▸ nofun⟩

end

end Vocabulary

end DirectionField
