import Mathlib.Data.List.Sort
import DirectionField.Proofs.Except
import DirectionField.Proofs.VocabularyLookup

/-!
# Overloads and declarations

Whatever the grammar asks about a name is answered by its overloads, the numbers of arguments that it has
a meaning for. Their list is in ascending order and without repetition, so it is the same for vocabularies
in which the name has the same overloads (`arities_eq_of_mem_iff`), and the order of the declarations has
no part in it. Declarations of other names have none either (`exists_ofDeclarations_of_subperm`).
-/

namespace DirectionField

/-- The entry that a declaration makes if it is accepted. -/
def Declaration.entry {α : Type} (d : Declaration α) : Entry α :=
  ⟨d.name, d.arity.toNat, d.meaning, d.description⟩

namespace Vocabulary

variable {α β : Type} {v w : Vocabulary α} {name : String} {n : Nat}

/-! ## Overloads -/

/-- A name takes a number of arguments if a call with that number has a meaning. -/
theorem mem_arities_iff_resolve? (v : Vocabulary α) (name : String) (n : Nat) :
    n ∈ v.arities name ↔ (v.resolve? name n).isSome := by
  rw [Option.isSome_iff_exists]
  constructor
  · exact exists_resolve?_of_mem_arities
  · rintro ⟨e, he⟩
    exact (mem_arities_iff v name n).2 ⟨e, mem_of_resolve? he⟩

/-- A name is known if it is one of the names. -/
theorem knows_iff (v : Vocabulary α) (name : String) :
    v.signature.knows name = true ↔ name ∈ v.names := by
  have hknows : v.signature.knows name = true ↔ ∃ n, n ∈ v.arities name := by
    simp [Signature.knows, signature, List.eq_nil_iff_forall_not_mem]
  have hnames : name ∈ v.names ↔ ∃ e ∈ v.entries, e.name = name := by
    simp [names]
  rw [hknows, hnames]
  constructor
  · rintro ⟨n, hn⟩
    obtain ⟨e, he, hname, _⟩ := (mem_arities_iff v name n).1 hn
    exact ⟨e, he, hname⟩
  · rintro ⟨e, he, hname⟩
    exact ⟨e.arity, (mem_arities_iff v name _).2 ⟨e, he, hname, rfl⟩⟩

/-- A name takes a number of arguments if a call of it with as many has a meaning. -/
theorem accepts_eq (v : Vocabulary α) (name : String) (n : Nat) :
    v.signature.accepts name n = (v.resolve? name n).isSome := by
  rw [Bool.eq_iff_iff, ← mem_arities_iff_resolve?]
  exact List.contains_iff_mem

/-- A name is callable if some call of it with arguments has a meaning. -/
theorem isCallable_iff (v : Vocabulary α) (name : String) :
    v.signature.isCallable name = true ↔ ∃ n, 0 < n ∧ (v.resolve? name n).isSome := by
  simp only [Signature.isCallable, signature, List.any_eq_true, decide_eq_true_eq,
    ← mem_arities_iff_resolve?, and_comm]

/-- The overloads are listed in ascending order, none of them twice. -/
theorem arities_pairwise_lt (v : Vocabulary α) (name : String) :
    (v.arities name).Pairwise (· < ·) := by
  have hsorted : (v.arities name).Pairwise fun n n' => decide (n ≤ n') = true :=
    List.pairwise_mergeSort (by intro a b c; simp; omega) (by intro a b; simp; omega) _
  have hnodup : (v.arities name).Nodup := by
    have hkeys : ((v.entries.filter (·.name = name)).map Entry.key).Nodup :=
      List.Nodup.sublist (List.filter_sublist.map _) v.keys_nodup
    rw [arities, (List.mergeSort_perm _ _).nodup_iff]
    rw [List.Nodup, List.pairwise_map] at hkeys ⊢
    apply hkeys.imp_of_mem
    intro e e' he he' hne harity
    -- the names are the same, so the numbers tell the entries apart
    simp only [List.mem_filter, decide_eq_true_eq] at he he'
    exact hne (by rw [Entry.key, Entry.key, he.2, he'.2, harity])
  apply hsorted.imp₂ _ hnodup
  intro n n' hle hne
  exact Nat.lt_of_le_of_ne (of_decide_eq_true hle) hne

/-- The list of the overloads is the same wherever the overloads are the same. -/
theorem arities_eq_of_mem_iff {v : Vocabulary α} {w : Vocabulary β}
    (h : ∀ n, n ∈ v.arities name ↔ n ∈ w.arities name) : v.arities name = w.arities name :=
  (v.arities_pairwise_lt name).eq_of_mem_iff (w.arities_pairwise_lt name) h

/-! ## Declarations -/

/-- A vocabulary is determined by its entries. -/
theorem eq_of_entries (h : v.entries = w.entries) : v = w := by
  cases v
  cases w
  cases h
  rfl

/-- A declaration is accepted if its number of arguments is not negative and its key is new, and its
    entry comes behind the others. -/
theorem declare_eq_ok_iff {d : Declaration α} :
    v.declare d = .ok w ↔ 0 ≤ d.arity ∧ w.entries = v.entries ++ [d.entry] := by
  obtain ⟨name, arity, meaning, description⟩ := d
  cases arity with
  | negSucc n =>
    constructor
    · intro h
      cases h
    · rintro ⟨h, _⟩
      exact absurd h (Int.not_le.2 (Int.negSucc_lt_zero n))
  | ofNat n =>
    unfold declare
    dsimp only
    split
    · next hmem =>
      -- the key would stand in the new vocabulary twice
      constructor
      · intro h
        cases h
      · rintro ⟨_, h⟩
        have hkeys := w.keys_nodup
        rw [h, List.map_append, List.nodup_append] at hkeys
        exact absurd rfl (hkeys.2.2 _ hmem _ List.mem_cons_self)
    · constructor
      · intro h
        cases h
        exact ⟨Int.natCast_nonneg n, rfl⟩
      · rintro ⟨_, h⟩
        exact congrArg Except.ok (eq_of_entries h.symm)

/-- Declaration by declaration, the entries are appended. -/
theorem foldlM_declare_eq_ok_iff {ds : List (Declaration α)} :
    ds.foldlM declare v = .ok w ↔
      (∀ d ∈ ds, 0 ≤ d.arity) ∧ w.entries = v.entries ++ ds.map Declaration.entry := by
  induction ds generalizing v with
  | nil =>
    rw [List.foldlM_nil, List.map_nil, List.append_nil]
    constructor
    · intro h
      cases h
      exact ⟨nofun, rfl⟩
    · rintro ⟨_, h⟩
      exact congrArg Except.ok (eq_of_entries h.symm)
  | cons d ds ih =>
    rw [List.foldlM_cons, Except.bind_eq_ok_iff, List.forall_mem_cons, List.map_cons]
    constructor
    · rintro ⟨u, hd, hds⟩
      obtain ⟨harity, hu⟩ := declare_eq_ok_iff.1 hd
      obtain ⟨harities, hw⟩ := ih.1 hds
      rw [hw, hu, List.append_assoc, List.singleton_append]
      exact ⟨⟨harity, harities⟩, rfl⟩
    · rintro ⟨⟨harity, harities⟩, hw⟩
      rw [← List.singleton_append, ← List.append_assoc] at hw
      -- the entries up to this one are a vocabulary, as they begin one
      have hkeys : ((v.entries ++ [d.entry]).map Entry.key).Nodup := by
        apply List.Nodup.sublist _ w.keys_nodup
        rw [hw]
        exact (List.sublist_append_left _ _).map _
      exact ⟨⟨v.entries ++ [d.entry], hkeys⟩, declare_eq_ok_iff.2 ⟨harity, rfl⟩, ih.2 ⟨harities, hw⟩⟩

/-- Declarations are accepted if no number of arguments is negative and their entries are those of a
    vocabulary. -/
theorem ofDeclarations_eq_ok_iff {ds : List (Declaration α)} :
    ofDeclarations ds = .ok v ↔ (∀ d ∈ ds, 0 ≤ d.arity) ∧ v.entries = ds.map Declaration.entry :=
  foldlM_declare_eq_ok_iff

/-- Some of the declarations of a vocabulary, in any order, are accepted as well, and a name has the
    same overloads if all its declarations are among them. -/
theorem exists_ofDeclarations_of_subperm {ds ds' : List (Declaration α)}
    (hv : ofDeclarations ds = .ok v) (hsub : ds'.Subperm ds) :
    ∃ w, ofDeclarations ds' = .ok w ∧
      ∀ name, (∀ d ∈ ds, d.name = name → d ∈ ds') → v.arities name = w.arities name := by
  obtain ⟨harities, hentries⟩ := ofDeclarations_eq_ok_iff.1 hv
  have hkeys : ((ds'.map Declaration.entry).map Entry.key).Nodup := by
    obtain ⟨ds'', hperm, hsublist⟩ := hsub
    rw [← ((hperm.map _).map _).nodup_iff]
    apply List.Nodup.sublist _ v.keys_nodup
    rw [hentries]
    exact (hsublist.map _).map _
  refine ⟨⟨ds'.map Declaration.entry, hkeys⟩, ofDeclarations_eq_ok_iff.2 ⟨?_, rfl⟩, ?_⟩
  · intro d hd
    exact harities d (hsub.subset hd)
  · intro name hname
    apply arities_eq_of_mem_iff
    intro n
    -- an overload is a declaration of the name, in whichever list it stands
    rw [mem_arities_iff, mem_arities_iff, hentries]
    simp only [List.mem_map, exists_exists_and_eq_and]
    constructor
    · rintro ⟨d, hd, hdname, hn⟩
      exact ⟨d, hname d hd hdname, hdname, hn⟩
    · rintro ⟨d, hd, h⟩
      exact ⟨d, hsub.subset hd, h⟩

end Vocabulary

end DirectionField
