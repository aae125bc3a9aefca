import DirectionField.Proofs.Listing

/-!
# What a vocabulary answers

A vocabulary is made declaration by declaration, and a declaration is refused if its number of arguments
is negative or its key is taken. So the first declaration that is wrong decides what is reported
(`Vocabulary.ofDeclarations_eq_error_iff`). All that is asked of a vocabulary, which names there are,
what overloads they have and what a call means, is answered from its entries, and the answers agree with
each other and with the declarations (`Vocabulary.Reflects`).
-/

namespace DirectionField

variable {α : Type}

/-- Where at most one element passes, all that pass are the first one. -/
theorem filter_eq_toList_find? {β : Type} {p : β → Bool} {l : List β}
    (h : l.Pairwise fun a b => ¬ (p a = true ∧ p b = true)) : l.filter p = (l.find? p).toList := by
  induction l with
  | nil => rfl
  | cons a l ih =>
    obtain ⟨ha, hl⟩ := List.pairwise_cons.1 h
    by_cases hp : p a = true
    · -- the first element that passes keeps all later ones from passing
      rw [List.filter_cons_of_pos hp, List.find?_cons_of_pos hp, Option.toList_some,
        List.filter_eq_nil_iff.2 fun b hb hpb => ha b hb ⟨hp, hpb⟩]
    · rw [List.filter_cons_of_neg hp, List.find?_cons_of_neg hp, ih hl]

/-! ## Declarations -/

namespace Declaration

/-- What tells one declaration from another. -/
def key (d : Declaration α) : String × Int := (d.name, d.arity)

/-- Nothing is wrong with the declarations: none has a negative number of arguments, and all have
    different keys. -/
structure Compatible (ds : List (Declaration α)) : Prop where
  nonneg : ∀ d ∈ ds, 0 ≤ d.arity
  keys_nodup : (ds.map key).Nodup

/-- Behind the declarations `before`, something is wrong with `d`, and the error tells what. -/
inductive IsRefused (before : List (Declaration α)) (d : Declaration α) : VocabularyError → Prop where
  | negative (harity : d.arity < 0) : IsRefused before d (.negativeArity d.name)
  | repeated (harity : 0 ≤ d.arity) (hkey : d.key ∈ before.map key) :
    IsRefused before d (.duplicate d.name d.arity.toNat)

/-- Put the name of a declaration behind other names, unless it is one of them. -/
def addName (names : List String) (d : Declaration α) : List String :=
  if d.name ∈ names then names else names ++ [d.name]

/-- The names as they are kept up from one declaration to the next. -/
def index (ds : List (Declaration α)) : List String := ds.foldl addName []

/-- Where there is no negative number of arguments, the key of an entry is that of its
    declaration. -/
theorem key_eq_iff {d : Declaration α} (h : 0 ≤ d.arity) {name : String} {n : Nat} :
    d.key = (name, (n : Int)) ↔ d.entry.key = (name, n) := by
  show (d.name, d.arity) = (name, (n : Int)) ↔ (d.name, d.arity.toNat) = (name, n)
  rw [Prod.mk.injEq, Prod.mk.injEq]
  exact and_congr_right fun _ => by omega

/-- Two declarations have one key if and only if their entries have. -/
theorem key_eq_key_iff {d d' : Declaration α} (h : 0 ≤ d.arity) (h' : 0 ≤ d'.arity) :
    d.key = d'.key ↔ d.entry.key = d'.entry.key := by
  have hkey : d'.key = (d'.name, (d'.arity.toNat : Int)) := (key_eq_iff h').2 rfl
  rw [hkey, key_eq_iff h]
  rfl

variable {ds : List (Declaration α)}

/-- The declarations have different keys if and only if the entries have. -/
theorem nodup_keys_iff (h : ∀ d ∈ ds, 0 ≤ d.arity) :
    (ds.map key).Nodup ↔ ((ds.map entry).map Entry.key).Nodup := by
  unfold List.Nodup
  rw [List.pairwise_map, List.pairwise_map, List.pairwise_map]
  exact List.Pairwise.iff_of_mem fun hd hd' => not_congr (key_eq_key_iff (h _ hd) (h _ hd'))

/-- The key of a declaration is taken by others if and only if that of its entry is taken by theirs.
    -/
theorem key_mem_iff (h : ∀ d ∈ ds, 0 ≤ d.arity) {d : Declaration α} (hd : 0 ≤ d.arity) :
    d.key ∈ ds.map key ↔ d.entry.key ∈ (ds.map entry).map Entry.key := by
  simp only [List.mem_map, exists_exists_and_eq_and]
  exact exists_congr fun d' => and_congr_right fun hd' => key_eq_key_iff (h d' hd') hd

end Declaration

open Declaration (Compatible IsRefused)

namespace Vocabulary

variable {v w : Vocabulary α} {ds : List (Declaration α)} {name : String}

/-! ### Which declarations are refused -/

/-- Declarations make a vocabulary if nothing is wrong with them, and only then. -/
theorem exists_ofDeclarations_iff : (∃ v, ofDeclarations ds = .ok v) ↔ Compatible ds := by
  constructor
  · rintro ⟨v, hv⟩
    obtain ⟨harity, hentries⟩ := ofDeclarations_eq_ok_iff.1 hv
    refine ⟨harity, (Declaration.nodup_keys_iff harity).2 ?_⟩
    rw [← hentries]
    exact v.keys_nodup
  · rintro ⟨harity, hkeys⟩
    exact ⟨⟨_, (Declaration.nodup_keys_iff harity).1 hkeys⟩,
      ofDeclarations_eq_ok_iff.2 ⟨harity, rfl⟩⟩

/-- A declaration is refused if its number of arguments is negative or its key is taken. -/
theorem declare_eq_error_iff {d : Declaration α} {e : VocabularyError} :
    v.declare d = .error e ↔ (d.arity < 0 ∧ e = .negativeArity d.name) ∨
      (0 ≤ d.arity ∧ d.entry.key ∈ v.entries.map Entry.key ∧ e = .duplicate d.name d.arity.toNat) := by
  obtain ⟨name, arity, meaning, description⟩ := d
  -- the sign is looked at before the key, so a negative number of arguments is never a duplicate
  cases arity with
  | negSucc n =>
    have hneg : Int.negSucc n < 0 := Int.negSucc_lt_zero n
    constructor
    · intro h
      cases h
      exact .inl ⟨hneg, rfl⟩
    · rintro (⟨_, rfl⟩ | ⟨h, _⟩)
      · rfl
      · exact absurd h (Int.not_le.2 hneg)
  | ofNat n =>
    have hnonneg : 0 ≤ Int.ofNat n := Int.natCast_nonneg n
    unfold declare
    dsimp only
    split
    · next hmem =>
      constructor
      · intro h
        cases h
        exact .inr ⟨hnonneg, hmem, rfl⟩
      · rintro (⟨h, _⟩ | ⟨_, _, rfl⟩)
        · exact absurd hnonneg (Int.not_le.2 h)
        · rfl
    · next hnew =>
      constructor
      · intro h
        cases h
      · rintro (⟨h, _⟩ | ⟨_, hmem, _⟩)
        · exact absurd hnonneg (Int.not_le.2 h)
        · exact absurd hmem hnew

/-- Declarations are refused for the first of them that something is wrong with. -/
theorem ofDeclarations_eq_error_iff {e : VocabularyError} :
    ofDeclarations ds = .error e ↔
      ∃ before d after, ds = before ++ d :: after ∧ Compatible before ∧ IsRefused before d e := by
  unfold ofDeclarations
  -- the fold stops at the first declaration that is refused, and those before it made a vocabulary
  rw [Except.foldlM_eq_error_iff]
  constructor
  · rintro ⟨before, d, after, v, hds, hv, hd⟩
    have hentries := (ofDeclarations_eq_ok_iff.1 hv).2
    have hbefore := exists_ofDeclarations_iff.1 ⟨v, hv⟩
    refine ⟨before, d, after, hds, hbefore, ?_⟩
    rcases declare_eq_error_iff.1 hd with ⟨harity, rfl⟩ | ⟨harity, hmem, rfl⟩
    · exact .negative harity
    · rw [hentries] at hmem
      exact .repeated harity ((Declaration.key_mem_iff hbefore.nonneg harity).2 hmem)
  · rintro ⟨before, d, after, hds, hbefore, hd⟩
    obtain ⟨v, hv⟩ := exists_ofDeclarations_iff.2 hbefore
    have hentries := (ofDeclarations_eq_ok_iff.1 hv).2
    refine ⟨before, d, after, v, hds, hv, declare_eq_error_iff.2 ?_⟩
    cases hd with
    | negative harity => exact .inl ⟨harity, rfl⟩
    | repeated harity hmem =>
      rw [hentries]
      exact .inr ⟨harity, (Declaration.key_mem_iff hbefore.nonneg harity).1 hmem, rfl⟩

/-! ### Names -/

/-- A declaration puts its name behind the others, unless it is one of them. -/
theorem names_of_declare {d : Declaration α} (h : v.declare d = .ok w) :
    w.names = Declaration.addName v.names d := by
  obtain ⟨_, hentries⟩ := declare_eq_ok_iff.1 h
  have hname : [d.entry].map Entry.name = [d.name] := rfl
  unfold names Declaration.addName
  rw [hentries, List.map_append, hname, List.eraseDups_append]
  generalize v.entries.map Entry.name = names
  -- dropping duplicates of names with one more behind them drops it, or keeps it there
  by_cases hmem : d.name ∈ names
  · rw [if_pos (List.mem_eraseDups.2 hmem)]
    simp [List.removeAll, hmem]
  · rw [if_neg (mt List.mem_eraseDups.1 hmem)]
    simp [List.removeAll, hmem, List.eraseDups_cons]

/-- Declaration by declaration, the names of the vocabulary are those that are kept up. -/
theorem names_of_foldlM_declare (h : ds.foldlM declare v = .ok w) :
    w.names = ds.foldl Declaration.addName v.names := by
  -- by the declarations, from any vocabulary that those before have made
  induction ds generalizing v with
  | nil =>
    cases h
    rfl
  | cons d ds ih =>
    rw [List.foldlM_cons, Except.bind_eq_ok_iff] at h
    obtain ⟨u, hu, h⟩ := h
    rw [List.foldl_cons, ← names_of_declare hu]
    exact ih h

/-! ### Entries -/

/-- No entry has a negative number of arguments. -/
theorem entry?_of_neg {k : Int} (h : k < 0) : v.entry? name k = none := if_pos h

@[simp] theorem entry?_natCast (v : Vocabulary α) (name : String) (n : Nat) :
    v.entry? name n = v.resolve? name n := if_neg (by omega)

/-- The entries with a key are the one that is found. -/
theorem filter_key_eq (v : Vocabulary α) (name : String) (n : Nat) :
    v.entries.filter (fun e => e.key = (name, n)) = (v.resolve? name n).toList := by
  apply filter_eq_toList_find?
  refine (List.pairwise_map.1 v.keys_nodup).imp fun hne hboth => hne ?_
  rw [of_decide_eq_true hboth.1, of_decide_eq_true hboth.2]

/-- The lengths of the rows of overloads add up to the number of entries. -/
theorem sum_length_arities (v : Vocabulary α) :
    (v.names.map fun name => (v.arities name).length).sum = v.size := by
  -- each number of arguments of a name is found, so the listing has as many entries as there are
  have hrow (name : String) :
      ((v.arities name).filterMap (v.resolve? name)).length = (v.arities name).length :=
    List.filterMap_length_eq_length.2 fun n hn => (v.mem_arities_iff_resolve? name n).1 hn
  have hlength := (listing_perm (v := v)).length_eq
  unfold listing at hlength
  rw [List.length_flatMap] at hlength
  simp only [hrow] at hlength
  exact hlength

/-- Something is found for a number of arguments if it is one of those of the name. -/
theorem entry?_ne_none_iff {k : Int} :
    v.entry? name k ≠ none ↔ ∃ n ∈ v.arities name, (n : Int) = k := by
  rcases lt_or_ge k 0 with hneg | hnonneg
  · rw [entry?_of_neg hneg]
    constructor
    · exact absurd rfl
    · rintro ⟨n, _, rfl⟩
      exact absurd (Int.natCast_nonneg n) (Int.not_le.2 hneg)
  · obtain ⟨n, rfl⟩ := Int.eq_ofNat_of_zero_le hnonneg
    rw [entry?_natCast, ← Option.isSome_iff_ne_none, ← mem_arities_iff_resolve?]
    simp

/-- The names are those that have an overload. -/
theorem mem_names_iff : name ∈ v.names ↔ v.arities name ≠ [] := by
  rw [← knows_iff]
  simp [Signature.knows, signature]

/-- A name is callable if something is found for some positive number of arguments. -/
theorem isCallable_iff_entry? :
    v.signature.isCallable name = true ↔ ∃ k > 0, v.entry? name k ≠ none := by
  rw [isCallable_iff]
  simp only [entry?_ne_none_iff, ← mem_arities_iff_resolve?]
  constructor
  · rintro ⟨n, hpos, hn⟩
    exact ⟨n, Int.natCast_pos.2 hpos, n, hn, rfl⟩
  · rintro ⟨_, hpos, n, hn, rfl⟩
    exact ⟨n, Int.natCast_pos.1 hpos, hn⟩

/-- What is looked up is the one declaration with that key. -/
theorem toList_entry? (hds : ∀ d ∈ ds, 0 ≤ d.arity) (hv : v.entries = ds.map Declaration.entry)
    (name : String) (k : Int) :
    (v.entry? name k).toList = (ds.filter fun d => d.key = (name, k)).map Declaration.entry := by
  rcases lt_or_ge k 0 with hneg | hnonneg
  · rw [entry?_of_neg hneg, List.filter_eq_nil_iff.2]
    · rfl
    · -- no declaration has a negative number of arguments
      intro d hd hkey
      have harity : d.arity = k := (Prod.mk.inj (of_decide_eq_true hkey)).2
      have hpos := hds d hd
      omega
  · -- both sides keep the entries with the key
    obtain ⟨n, rfl⟩ := Int.eq_ofNat_of_zero_le hnonneg
    rw [entry?_natCast, ← filter_key_eq, hv, List.filter_map]
    congr 1
    exact List.filter_congr fun d hd => decide_eq_decide.2 (Declaration.key_eq_iff (hds d hd)).symm

/-! ### All questions -/

/-- Every question to the vocabulary is answered as the declarations say. -/
structure Reflects (v : Vocabulary α) (ds : List (Declaration α)) : Prop where
  /-- What is looked up is the one declaration with that key, and nothing if there is none. -/
  entry? : ∀ name k, (v.entry? name k).toList =
    (ds.filter fun d => d.key = (name, k)).map Declaration.entry
  ascending : ∀ name, (v.arities name).Pairwise (· < ·)
  mem_arities : ∀ name (k : Int), (∃ n ∈ v.arities name, (n : Int) = k) ↔ v.entry? name k ≠ none
  knows : ∀ name, v.signature.knows name = true ↔ v.arities name ≠ []
  mem_names : ∀ name, name ∈ v.names ↔ v.arities name ≠ []
  isCallable : ∀ name, v.signature.isCallable name = true ↔ ∃ k > 0, v.entry? name k ≠ none
  /-- The names are kept up while the declarations are made. -/
  names_eq : v.names = Declaration.index ds
  names_nodup : v.names.Nodup
  declared : ∀ name, name ∈ v.names ↔ ∃ d ∈ ds, d.name = name
  names_order : v.names.Pairwise fun a b =>
    (ds.map Declaration.name).idxOf a < (ds.map Declaration.name).idxOf b
  size_eq_sum : v.size = (v.names.map fun name => (v.arities name).length).sum
  size_eq : v.size = ds.length

/-- Declarations that are accepted make a vocabulary that reflects them. -/
theorem reflects_of_ofDeclarations (h : ofDeclarations ds = .ok v) : v.Reflects ds := by
  obtain ⟨hds, hentries⟩ := ofDeclarations_eq_ok_iff.1 h
  have hnames : v.entries.map Entry.name = ds.map Declaration.name := by
    rw [hentries, List.map_map]
    rfl
  have horder : v.names.Pairwise fun a b =>
      (ds.map Declaration.name).idxOf a < (ds.map Declaration.name).idxOf b := by
    unfold names
    rw [hnames]
    exact pairwise_idxOf_eraseDups _
  exact {
    entry? := toList_entry? hds hentries
    ascending := v.arities_pairwise_lt
    mem_arities := fun name k => entry?_ne_none_iff.symm
    knows := fun name => (v.knows_iff name).trans mem_names_iff
    mem_names := fun name => mem_names_iff
    isCallable := fun name => isCallable_iff_entry?
    names_eq := names_of_foldlM_declare h
    names_nodup := horder.imp fun hlt heq => by
      subst heq
      exact Nat.lt_irrefl _ hlt
    declared := fun name => by
      unfold names
      rw [hnames, List.mem_eraseDups, List.mem_map]
    names_order := horder
    size_eq_sum := v.sum_length_arities.symm
    size_eq := by rw [size, hentries, List.length_map] }

/-- Declarations make a vocabulary if and only if none has a negative number of arguments and all
    have different keys, and otherwise they are refused for the first of them that breaks this. A
    vocabulary that they make answers every question as they say. -/
theorem ofDeclarations_reflected (ds : List (Declaration α)) :
    ((∃ v, ofDeclarations ds = .ok v) ↔ Compatible ds) ∧
    (∀ e, ofDeclarations ds = .error e ↔
      ∃ before d after, ds = before ++ d :: after ∧ Compatible before ∧ IsRefused before d e) ∧
    ∀ v, ofDeclarations ds = .ok v → v.Reflects ds :=
  ⟨exists_ofDeclarations_iff, fun _ => ofDeclarations_eq_error_iff,
    fun _ => reflects_of_ofDeclarations⟩

/-- The standard vocabulary is what its declarations make. -/
theorem ofDeclarations_standard (lib : Elementary) :
    ofDeclarations (standardDeclarations lib) = .ok (standard lib) :=
  ofDeclarations_eq_ok_iff.2 ⟨by simp [standardDeclarations], rfl⟩

/-- The standard vocabulary answers as its declarations say. -/
theorem ofDeclarations_reflected_standard :
    ofDeclarations (standardDeclarations .native) = .ok (standard .native) ∧
      (standard .native).Reflects (standardDeclarations .native) :=
  ⟨ofDeclarations_standard _, (ofDeclarations_reflected _).2.2 _ (ofDeclarations_standard _)⟩

/-- Of two declarations that are wrong, the first one is reported. -/
example : ofDeclarations [⟨"f", 0, (), ""⟩, ⟨"f", 1, (), ""⟩, ⟨"f", 0, (), ""⟩, ⟨"g", -1, (), ""⟩] =
    .error (.duplicate "f" 0) := by rfl

end Vocabulary

end DirectionField
