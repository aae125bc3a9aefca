/-!
# Outcomes that can fail

Lemmas about `Except` that are useful beyond this library: when a sequence of steps, a mapped step, a
run of steps or a step with a translated error succeeds or fails. -/

namespace Except

variable {ε ε' α β γ : Type}

/-- A sequence of two steps succeeds if both do. -/
theorem bind_eq_ok_iff (x : Except ε α) (f : α → Except ε β) (b : β) :
    (x >>= f) = .ok b ↔ ∃ a, x = .ok a ∧ f a = .ok b := by
  cases x with
  | error e => exact ⟨fun h => (nomatch h), fun ⟨_, h, _⟩ => (nomatch h)⟩
  | ok a => exact ⟨fun h => ⟨a, rfl, h⟩, fun ⟨_, ha, h⟩ => by cases ha; exact h⟩

/-- A sequence of two steps fails if the first does, or the second after it. -/
theorem bind_eq_error_iff (x : Except ε α) (f : α → Except ε β) (e : ε) :
    (x >>= f) = .error e ↔ x = .error e ∨ ∃ a, x = .ok a ∧ f a = .error e := by
  cases x with
  | error e' =>
    constructor
    · intro h
      cases h
      exact .inl rfl
    · rintro (h | ⟨_, ha, _⟩)
      · cases h; rfl
      · cases ha
  | ok a =>
    constructor
    · intro h
      exact .inr ⟨a, rfl, h⟩
    · rintro (h | ⟨_, ha, h⟩)
      · cases h
      · cases ha; exact h

/-- Returning a value succeeds with that value. -/
theorem pure_eq_ok_iff (a b : α) : (pure a : Except ε α) = .ok b ↔ a = b :=
  ⟨fun h => by cases h; rfl, fun h => by rw [h]; rfl⟩

/-- Another wording of the error does not make a success. -/
theorem mapError_eq_ok_iff (f : ε → ε') (r : Except ε α) (a : α) :
    r.mapError f = .ok a ↔ r = .ok a := by
  cases r with
  | error e => exact ⟨fun h => (nomatch h), fun h => (nomatch h)⟩
  | ok b => exact ⟨fun h => by cases h; rfl, fun h => by cases h; rfl⟩

/-- Another wording of the error does not make a failure either. -/
theorem mapError_eq_error_iff (f : ε → ε') (r : Except ε α) (e' : ε') :
    r.mapError f = .error e' ↔ ∃ e, r = .error e ∧ f e = e' := by
  cases r with
  | error e =>
    exact ⟨fun h => ⟨e, rfl, Except.error.inj h⟩, fun ⟨_, he, h⟩ => by cases he; rw [← h]; rfl⟩
  | ok a => exact ⟨fun h => (nomatch h), fun ⟨_, he, _⟩ => (nomatch he)⟩

/-- The error of an outcome. It can be compared also where results cannot. -/
def error? : Except ε α → Option ε
  | .ok _ => none
  | .error e => some e

/-- An outcome has an error if it is that error. -/
theorem error?_eq_some_iff {r : Except ε α} {e : ε} : r.error? = some e ↔ r = .error e := by
  cases r with
  | error e' => exact ⟨fun h => congrArg Except.error (Option.some.inj h), fun h => by cases h; rfl⟩
  | ok a => exact ⟨fun h => (nomatch h), fun h => (nomatch h)⟩

/-- Every result of a mapped step comes from one of the elements. -/
theorem exists_of_mem_mapM {f : α → Except ε β} {as : List α} {bs : List β}
    (h : as.mapM f = .ok bs) {b : β} (hb : b ∈ bs) : ∃ a ∈ as, f a = .ok b := by
  induction as generalizing bs with
  | nil => cases h; cases hb
  | cons a as ih =>
    rw [List.mapM_cons] at h
    obtain ⟨b', hb', h⟩ := (bind_eq_ok_iff _ _ _).1 h
    obtain ⟨bs', hbs', h⟩ := (bind_eq_ok_iff _ _ _).1 h
    cases h
    rcases List.mem_cons.1 hb with rfl | hb
    · exact ⟨a, List.mem_cons_self, hb'⟩
    · obtain ⟨a', ha', hf⟩ := ih hbs' hb
      exact ⟨a', List.mem_cons_of_mem _ ha', hf⟩

/-- A mapped step has a result for every element. -/
theorem length_of_mapM {f : α → Except ε β} {as : List α} {bs : List β} (h : as.mapM f = .ok bs) :
    bs.length = as.length := by
  induction as generalizing bs with
  | nil => cases h; rfl
  | cons a as ih =>
    rw [List.mapM_cons] at h
    obtain ⟨b, _, h⟩ := (bind_eq_ok_iff _ _ _).1 h
    obtain ⟨bs', hbs', h⟩ := (bind_eq_ok_iff _ _ _).1 h
    cases h
    rw [List.length_cons, List.length_cons, ih hbs']

/-- A mapped step fails where it fails for one of the elements. -/
theorem exists_of_mapM_eq_error {f : α → Except ε β} {as : List α} {e : ε}
    (h : as.mapM f = .error e) : ∃ a ∈ as, f a = .error e := by
  induction as with
  | nil => cases h
  | cons a as ih =>
    rw [List.mapM_cons] at h
    rcases (bind_eq_error_iff _ _ _).1 h with ha | ⟨_, _, h⟩
    · exact ⟨a, List.mem_cons_self, ha⟩
    · rcases (bind_eq_error_iff _ _ _).1 h with has | ⟨_, _, h⟩
      · obtain ⟨a', ha', hf⟩ := ih has
        exact ⟨a', List.mem_cons_of_mem _ ha', hf⟩
      · cases h

/-- If a mapped step fails in one way only, it fails where it does for one of the elements. -/
theorem mapM_eq_error_iff {f : α → Except ε β} {as : List α} {e : ε}
    (hf : ∀ a e', f a = .error e' → e' = e) : as.mapM f = .error e ↔ ∃ a ∈ as, f a = .error e := by
  refine ⟨exists_of_mapM_eq_error, ?_⟩
  induction as with
  | nil => rintro ⟨_, ha, _⟩; cases ha
  | cons a as ih =>
    rintro ⟨a', ha', h⟩
    rw [List.mapM_cons, bind_eq_error_iff]
    cases hfa : f a with
    | error e' => exact .inl (congrArg Except.error (hf a e' hfa))
    | ok b =>
      -- the failure is behind the first element
      rcases List.mem_cons.1 ha' with rfl | ha'
      · rw [hfa] at h
        cases h
      · exact .inr ⟨b, rfl, (bind_eq_error_iff _ _ _).2 (.inl (ih ⟨a', ha', h⟩))⟩

/-- A mapped step that never fails maps every element, up to what is kept of the result. -/
theorem exists_mapM_eq_ok {f : α → Except ε β} {g : α → γ} {h : β → γ}
    (hf : ∀ a, ∃ b, f a = .ok b ∧ h b = g a) (as : List α) :
    ∃ bs, as.mapM f = .ok bs ∧ bs.map h = as.map g := by
  induction as with
  | nil => exact ⟨[], rfl, rfl⟩
  | cons a as ih =>
    obtain ⟨b, hb, hg⟩ := hf a
    obtain ⟨bs, hbs, hgs⟩ := ih
    refine ⟨b :: bs, ?_, by rw [List.map_cons, List.map_cons, hg, hgs]⟩
    rw [List.mapM_cons, hb, hbs]
    rfl

/-- A run of steps fails where the first step fails that does. -/
theorem foldlM_eq_error_iff {f : β → α → Except ε β} {as : List α} {b : β} {e : ε} :
    as.foldlM f b = .error e ↔ ∃ before a after b', as = before ++ a :: after ∧
      before.foldlM f b = .ok b' ∧ f b' a = .error e := by
  -- from any accumulator: the first element fails, or one behind it does
  induction as generalizing b with
  | nil =>
    constructor
    · intro h
      cases h
    · rintro ⟨before, a, after, _, h, _⟩
      cases before with
      | nil => cases h
      | cons _ _ => cases h
  | cons a as ih =>
    rw [List.foldlM_cons, bind_eq_error_iff]
    constructor
    · rintro (h | ⟨b₁, hb₁, h⟩)
      · exact ⟨[], a, as, b, rfl, rfl, h⟩
      · obtain ⟨before, a', after, b', has, hbefore, ha'⟩ := ih.1 h
        refine ⟨a :: before, a', after, b', by rw [has, List.cons_append], ?_, ha'⟩
        rw [List.foldlM_cons, hb₁]
        exact hbefore
    · rintro ⟨before, a', after, b', has, hbefore, ha'⟩
      cases before with
      | nil =>
        cases has
        cases hbefore
        exact .inl ha'
      | cons a₁ before =>
        cases has
        rw [List.foldlM_cons, bind_eq_ok_iff] at hbefore
        obtain ⟨b₁, hb₁, hbefore⟩ := hbefore
        exact .inr ⟨b₁, hb₁, ih.2 ⟨before, a', after, b', rfl, hbefore, ha'⟩⟩

end Except
