import DirectionField.Vocabulary.Standard

/-!
# Looking names up in a vocabulary

A vocabulary is asked in two ways: which numbers of arguments a name takes, and what a call of it
means. Both answers come from the entries with that name. `forall_mem_standard` goes through the entries
of the standard vocabulary, of which there are four kinds, and none of them has a fault of its own
(`standard_refusesMisfits`).
-/

namespace DirectionField

/-- Two values are only not combined if their shapes do not fit. -/
theorem Value.fault_of_zipWith {f : Float → Float → Float} {g : Complex → Complex → Complex}
    {a b : Value} {fault : Fault} (h : zipWith f g a b = .error fault) :
    ∃ s t, fault = .operandShapes s t := by
  -- real and complex values are combined in the same way
  have hcombine {α β : Type} {k : α → α → β} {a b : Batch α} {fault : Fault}
      (h : combine k a b = .error fault) : ∃ s t, fault = .operandShapes s t := by
    unfold combine at h
    split at h
    · cases h
    · cases h
      exact ⟨_, _, rfl⟩
  unfold zipWith at h
  split at h
  · generalize hc : combine f _ _ = c at h
    cases c with
    | ok c => cases h
    | error fault' => cases h; exact hcombine hc
  · generalize hc : combine g _ _ = c at h
    cases c with
    | ok c => cases h
    | error fault' => cases h; exact hcombine hc

/-- The implementation refuses nothing but a wrong number of arguments and shapes that do not
    fit. -/
def Meaning.RefusesMisfits (m : Meaning) : Prop :=
  ∀ args fault, m args = .error fault →
    (∃ expected, fault = wrongCount expected args) ∨ ∃ s t, fault = .operandShapes s t

namespace Vocabulary

variable {α : Type} {v : Vocabulary α} {name : String} {n : Nat}

/-- A name takes a number of arguments if some entry with that name has it. -/
theorem mem_arities_iff (v : Vocabulary α) (name : String) (n : Nat) :
    n ∈ v.arities name ↔ ∃ e ∈ v.entries, e.name = name ∧ e.arity = n := by
  unfold arities
  rw [List.mem_mergeSort, List.mem_map]
  constructor
  · rintro ⟨e, he, rfl⟩
    rw [List.mem_filter, decide_eq_true_eq] at he
    exact ⟨e, he.1, he.2, rfl⟩
  · rintro ⟨e, he, hname, rfl⟩
    exact ⟨e, List.mem_filter.2 ⟨he, decide_eq_true hname⟩, rfl⟩

/-- What a call means is an entry for the name with that number of arguments. -/
theorem mem_of_resolve? {e : Entry α} (h : v.resolve? name n = some e) :
    e ∈ v.entries ∧ e.name = name ∧ e.arity = n := by
  have hkey := List.find?_some h
  simp only [Entry.key, decide_eq_true_eq, Prod.mk.injEq] at hkey
  exact ⟨List.mem_of_find?_eq_some h, hkey⟩

/-- A call with a number of arguments that the name takes has a meaning. -/
theorem exists_resolve?_of_mem_arities (h : n ∈ v.arities name) :
    ∃ e, v.resolve? name n = some e := by
  obtain ⟨e, he, rfl, rfl⟩ := (mem_arities_iff v name n).1 h
  cases hr : v.resolve? e.name e.arity with
  | some e' => exact ⟨e', rfl⟩
  | none =>
    -- an entry with that key is there, so one is found
    have hnone := List.find?_eq_none.1 hr e he
    simp [Entry.key] at hnone

/-- What holds of each kind of implementation with its number of arguments holds of every entry of
    the standard vocabulary, whatever the mathematics library. -/
theorem forall_mem_standard (lib : Elementary) {p : Meaning → Nat → Prop}
    (hunary : ∀ f, p (Meaning.ofUnary f) 1) (hbinary : ∀ f, p (Meaning.ofBinary f) 2)
    (habs : p Meaning.abs 1) (hconstant : ∀ x, p (Meaning.constant x) 0) :
    ∀ e ∈ (standard lib).entries, p e.meaning e.arity := by
  unfold standard standardEntries standardDeclarations
  simp only [List.map_cons, List.map_nil, List.forall_mem_cons]
  -- entry by entry, in the order of the declarations
  exact ⟨hunary _, hunary _, hbinary _, hunary _, hbinary _, hunary _, hunary _, hunary _, hunary _,
    hunary _, hunary _, hunary _, hunary _, hunary _, hunary _, habs, hconstant _, hconstant _,
    fun _ h => (nomatch h)⟩

/-- The standard implementations have no fault of their own, domain errors and poles included. -/
theorem standard_refusesMisfits (lib : Elementary) :
    ∀ e ∈ (standard lib).entries, e.meaning.RefusesMisfits := by
  -- an implementation matches on the number of its arguments, and refuses in the last branch
  refine forall_mem_standard lib (p := fun m _ => m.RefusesMisfits) ?_ ?_ ?_ ?_
  · intro f args fault h
    unfold Meaning.ofUnary at h
    split at h
    · cases h
    · cases h
      exact .inl ⟨1, rfl⟩
  · intro f args fault h
    unfold Meaning.ofBinary at h
    split at h
    · exact .inr (Value.fault_of_zipWith h)
    · cases h
      exact .inl ⟨2, rfl⟩
  · intro args fault h
    unfold Meaning.abs at h
    split at h
    · cases h
    · cases h
    · cases h
      exact .inl ⟨1, rfl⟩
  · intro x args fault h
    unfold Meaning.constant at h
    split at h
    · cases h
    · cases h
      exact .inl ⟨0, rfl⟩

end Vocabulary

end DirectionField
