import DirectionField.Proofs.CompileFailure
import DirectionField.Proofs.SessionStep
import DirectionField.Proofs.TreeSize

/-!
# What each stage of a graph can fail of

A request to graph is validated, compiled and sampled. A problem that is found at one stage has a kind
that no other stage has: validation finds what is wrong with the format of a field or with the bounds of
a domain (`Session.kind_of_validate`), compiling what is wrong with the equation
(`Equation.kind_of_compile`), and sampling a number of rows that is too small (`Field.kind_of_request`).
-/

namespace DirectionField

/-! ## Validation -/

/-- What is wrong with the bounds of a domain is a problem of the domain. -/
theorem Domain.kind_of_ofBounds {left right lower upper : Float} {p : Problem}
    (h : Domain.ofBounds left right lower upper = .error p) : p.kind = .domain := by
  unfold ofBounds at h
  split at h
  · split at h
    · split at h
      · cases h
      · cases h; rfl
    · cases h; rfl
  · cases h; rfl

namespace Input

variable {failure : Failure}

/-- A text that is no number is refused for its format. -/
theorem problem_of_number {label s : String} (h : number label (.text s) = .error failure) :
    ∃ p, failure = .problem p ∧ p.kind = .inputFormat := by
  rcases (Except.bind_eq_error_iff _ _ _).1 h with h | ⟨text, _, h⟩
  · -- a text can always be shown
    cases h
  · split at h
    · cases h
    · cases h
      exact ⟨.notANumber label (Text.quote s), rfl, rfl⟩

/-- A text that is no pair is refused for its format. -/
theorem problem_of_pair {label s : String} (h : pair label (.text s) = .error failure) :
    ∃ p, failure = .problem p ∧ p.kind = .inputFormat := by
  -- a text that is quoted in a refusal can always be shown
  have hrefusal : ∃ p, Failure.ofWorded ((Datum.text s).literal.map (.notAPair label)) = .problem p ∧
      p.kind = .inputFormat := ⟨.notAPair label (Text.quote s), rfl, rfl⟩
  rcases (Except.bind_eq_error_iff _ _ _).1 h with h | ⟨text, _, h⟩
  · cases h
  · dsimp only at h
    split at h
    · split at h
      · cases h
        exact hrefusal
      · cases h
    · cases h
      exact hrefusal

/-- Bounds are refused for the format of the pair or of one of its numbers. -/
theorem problem_of_bounds {label s : String} (h : bounds label (.text s) = .error failure) :
    ∃ p, failure = .problem p ∧ p.kind = .inputFormat := by
  unfold bounds at h
  rcases (Except.bind_eq_error_iff _ _ _).1 h with h | ⟨⟨a, b⟩, _, h⟩
  · exact problem_of_pair h
  · rcases (Except.bind_eq_error_iff _ _ _).1 h with h | ⟨low, _, h⟩
    · exact problem_of_number h
    · rcases (Except.bind_eq_error_iff _ _ _).1 h with h | ⟨high, _, h⟩
      · exact problem_of_number h
      · cases h

/-- A domain is refused for the format of its fields, or for its bounds. -/
theorem problem_of_domain {domainField rangeField : String}
    (h : Input.domain (.text domainField) (.text rangeField) = .error failure) :
    ∃ p, failure = .problem p ∧ (p.kind = .inputFormat ∨ p.kind = .domain) := by
  unfold Input.domain at h
  rcases (Except.bind_eq_error_iff _ _ _).1 h with h | ⟨⟨left, right⟩, _, h⟩
  · obtain ⟨p, hp, hkind⟩ := problem_of_bounds h
    exact ⟨p, hp, .inl hkind⟩
  · rcases (Except.bind_eq_error_iff _ _ _).1 h with h | ⟨⟨lower, upper⟩, _, h⟩
    · obtain ⟨p, hp, hkind⟩ := problem_of_bounds h
      exact ⟨p, hp, .inl hkind⟩
    · obtain ⟨p, hp, hfailure⟩ := (Except.mapError_eq_error_iff _ _ _).1 h
      exact ⟨p, hfailure.symm, .inr (Domain.kind_of_ofBounds hp)⟩

/-- The field has an integer with more digits than are read. -/
def TooManyDigits (d : Datum) (given : Nat) : Prop :=
  ∃ text sign ds, d.display = .ok text ∧
    integerDigits? (Text.trimBy Text.isBlank text.toList) = some (sign, ds) ∧
    ds.length = given ∧ NumberText.digitLimit < given

/-- A text that is no row count is refused for its format, or it has too many digits. -/
theorem failure_of_rowCount {s : String} (h : rowCount (.text s) = .error failure) :
    (∃ p, failure = .problem p ∧ p.kind = .inputFormat) ∨
      ∃ given, TooManyDigits (.text s) given ∧
        failure = .fault (.tooManyDigits NumberText.digitLimit given) := by
  rcases (Except.bind_eq_error_iff _ _ _).1 h with h | ⟨text, htext, h⟩
  · cases h
  · cases htext
    split at h
    · cases h
      exact .inl ⟨.notAnInteger (Text.quote s), rfl, rfl⟩
    · next sign ds hdigits =>
      split at h
      · next hlong =>
        cases h
        exact .inr ⟨ds.length, ⟨s, sign, ds, rfl, hdigits, rfl, hlong⟩, rfl⟩
      · cases h

/-- Too many digits are not read, whatever number they write. -/
theorem rowCount_of_tooManyDigits {d : Datum} {given : Nat} (h : TooManyDigits d given) :
    rowCount d = .error (.fault (.tooManyDigits NumberText.digitLimit given)) := by
  obtain ⟨text, sign, ds, htext, hdigits, rfl, hlong⟩ := h
  unfold rowCount
  rw [htext]
  refine (Except.bind_eq_error_iff _ _ _).2 (.inr ⟨text, rfl, ?_⟩)
  dsimp only
  rw [hdigits]
  exact if_pos hlong

/-- A row count that is read can be written. -/
theorem isTooLong_of_rowCount {d : Datum} {n : Int} (h : rowCount d = .ok n) :
    NumberText.isTooLong n = false := by
  obtain ⟨text, _, h⟩ := (Except.bind_eq_ok_iff _ _ _).1 h
  split at h
  · cases h
  · next sign ds _ =>
    split at h
    · cases h
    · next hshort =>
      have hlt := Text.digitsValue_lt ds
      have hpow := Nat.pow_le_pow_right (by decide : 10 > 0) (Nat.not_lt.1 hshort)
      -- the sign does not count as a digit
      have habs : n.natAbs = Text.digitsValue ds := by
        cases h
        split
        · rw [Int.natAbs_neg, Int.natAbs_natCast]
        · rw [Int.natAbs_natCast]
      exact decide_eq_false (habs ▸ Nat.not_le.2 (Nat.lt_of_lt_of_le hlt hpow))

end Input

namespace Session

variable {domainField rangeField rowsField : String}

/-- Validation fails for the format of a field or the bounds of a domain, or because the row count
    has too many digits. -/
theorem failure_of_validate {failure : Failure}
    (h : validate domainField rangeField rowsField = .error failure) :
    (∃ p, failure = .problem p ∧ (p.kind = .inputFormat ∨ p.kind = .domain)) ∨
      ∃ given, Input.TooManyDigits (.text rowsField) given ∧
        failure = .fault (.tooManyDigits NumberText.digitLimit given) := by
  unfold validate at h
  rcases (Except.bind_eq_error_iff _ _ _).1 h with h | ⟨rows, _, h⟩
  · rcases Input.failure_of_rowCount h with ⟨p, hp, hkind⟩ | hlong
    · exact .inl ⟨p, hp, .inl hkind⟩
    · exact .inr hlong
  · rcases (Except.bind_eq_error_iff _ _ _).1 h with h | ⟨d, _, h⟩
    · exact .inl (Input.problem_of_domain h)
    · cases h

/-- A problem that validation finds concerns the format of a field or the bounds of a domain. -/
theorem kind_of_validate {p : Problem}
    (h : validate domainField rangeField rowsField = .error (.problem p)) :
    p.kind = .inputFormat ∨ p.kind = .domain := by
  rcases failure_of_validate h with ⟨p', hp, hkind⟩ | ⟨_, _, hfault⟩
  · cases hp
    exact hkind
  · cases hfault

/-- Validation comes to a fault only if the row count has too many digits. -/
theorem validate_eq_fault_iff (domainField rangeField : String) {fault : Fault} :
    validate domainField rangeField rowsField = .error (.fault fault) ↔
      ∃ given, Input.TooManyDigits (.text rowsField) given ∧
        fault = .tooManyDigits NumberText.digitLimit given := by
  constructor
  · intro h
    rcases failure_of_validate h with ⟨_, hp, _⟩ | ⟨given, hlong, hfault⟩
    · cases hp
    · cases hfault
      exact ⟨given, hlong, rfl⟩
  · rintro ⟨given, hlong, rfl⟩
    -- the row count is read first
    exact (Except.bind_eq_error_iff _ _ _).2 (.inl (Input.rowCount_of_tooManyDigits hlong))

end Session

/-! ## Compiling -/

/-- A problem is reported under a name of its own: by the fault, or instead of its words. -/
def Fault.reports : Fault → Bool
  | .reported .. => true
  | .wordless signalled fault => signalled.reports || fault.reports
  | _ => false

/-- The implementation signals no problem under a name of its own. -/
def Meaning.ReportsNothing (m : Meaning) : Prop :=
  ∀ args fault, m args = .error fault → fault.reports = false

/-- No implementation of the vocabulary signals a problem under a name of its own. -/
def Vocabulary.ReportsNothing (v : Vocabulary Meaning) : Prop :=
  ∀ e ∈ v.entries, e.meaning.ReportsNothing

/-- The standard implementations signal no problems of their own. -/
theorem Vocabulary.standard_reportsNothing (lib : Elementary) : (standard lib).ReportsNothing := by
  intro e he args fault h
  rcases standard_refusesMisfits lib e he args _ h with ⟨expected, rfl⟩ | ⟨s, t, rfl⟩
  · rfl
  · rfl

variable {v : Vocabulary Meaning} {text : String}

/-- The first constant without a value is one of the vocabulary. -/
theorem FirstFault.exists_lacksValue {fault : Fault} {names : List String}
    (h : FirstFault v fault names) :
    ∃ entry ∈ v.entries, entry.arity = 0 ∧ entry.meaning.LacksValue fault := by
  -- along the constants: it is the first one, or one behind it
  induction h with
  | here hentry hfault =>
    obtain ⟨hmem, _, harity⟩ := Vocabulary.mem_of_resolve? hentry
    exact ⟨_, hmem, harity, hfault⟩
  | later _ _ ih => exact ih

/-- The fault of a constant is one that evaluation may come to. -/
theorem FirstFault.evaluationFault {fault : Fault} {names : List String}
    (h : FirstFault v fault names) : v.EvaluationFault fault := by
  obtain ⟨entry, hmem, _, hlacks⟩ := h.exists_lacksValue
  cases hlacks with
  | signals h => exact .signalled hmem h
  | complex _ _ => exact .notOneReal

/-- What evaluation comes to reports no problem if no implementation does. -/
theorem Vocabulary.EvaluationFault.reports_eq_false (hv : v.ReportsNothing) {fault : Fault}
    (h : v.EvaluationFault fault) : fault.reports = false := by
  cases h with
  | signalled hmem h => exact hv _ hmem _ _ h
  | notOneReal => rfl
  | operandShapes s t => rfl

namespace Equation

/-- A fault escapes because an arity is too long to be written, or it is met in evaluation, or there
    it takes the place of words. -/
theorem Escapes.cases {fault : Fault} (h : Escapes v text fault) :
    Expr.Unreportable v.signature text ∧ fault = .integerTooLong NumberText.digitLimit ∨
      v.EvaluationFault fault ∨ ∃ inner, v.EvaluationFault (.wordless inner fault) := by
  cases h with
  | unreportable h => exact .inl ⟨h, rfl⟩
  | constant _ h => exact .inr (.inl h.evaluationFault)
  | @wordless _ inner _ htree _ heval =>
    -- evaluation of a tree over the vocabulary comes to nothing else
    have hmeets := Expr.meets_eval_of_formed (.ofFloat 0.0) (.ofFloat 0.0) _ (Expr.formed_of_parse htree)
    rw [heval] at hmeets
    exact .inr (.inr ⟨inner, hmeets⟩)

/-- A problem that compiling finds is one of the equation, if no implementation signals problems of
    its own. -/
theorem kind_of_compile (hv : v.ReportsNothing) {p : Problem}
    (h : compile v text = .error (.problem p)) : p.kind = .equation := by
  rcases compile_eq_error h with ⟨message, position, heq⟩ | ⟨fault, hescapes, _, heq⟩
  · cases heq
    rfl
  · have hreports : fault.reports = false := by
      rcases hescapes.cases with ⟨_, rfl⟩ | hfault | ⟨inner, hfault⟩
      · rfl
      · exact hfault.reports_eq_false hv
      · exact (Bool.or_eq_false_iff.1 (hfault.reports_eq_false hv)).2
    -- a fault that reports no problem stays a fault
    unfold Failure.ofFault at heq
    split at heq
    · cases hreports
    · cases heq

end Equation

/-! ## Sampling -/

/-- A fault that does not concern a single slope only is no problem under another name. -/
theorem Failure.ofFault_of_not_isLocal {fault : Fault} (h : fault.isLocal = false) :
    Failure.ofFault fault = .fault fault := by
  unfold ofFault
  split
  · cases h
  · rfl

namespace Field

/-- A fault of a single slope gives a NaN, so that another one is left. -/
theorem isLocal_of_slopeOrNaN {f : SlopeFunction} {x y : Float} {fault : Fault}
    (h : f.slopeOrNaN x y = .error fault) : fault.isLocal = false := by
  unfold SlopeFunction.slopeOrNaN at h
  split at h
  · cases h
  · split at h
    · cases h
    · next hlocal => cases h; exact Bool.eq_false_iff.2 hlocal

/-- Sampling fails only with a fault that does not concern a single slope. -/
theorem exists_fault_of_samplePoints {f : SlopeFunction} {xs ys : Array Float} {failure : Failure}
    (h : (samplePoints f xs ys).outcome = .error failure) : ∃ fault, failure = .fault fault := by
  unfold samplePoints at h
  rw [Report.outcome_bind, Report.outcome_ofFault] at h
  rcases (Except.bind_eq_error_iff _ _ _).1 h with h | ⟨rows, _, h⟩
  · obtain ⟨fault, hfault, rfl⟩ := (Except.mapError_eq_error_iff _ _ _).1 h
    -- the fault is that of a row, and in the row that of a point
    obtain ⟨y, _, hrow⟩ := Except.exists_of_mapM_eq_error hfault
    obtain ⟨x, _, hpoint⟩ := Except.exists_of_mapM_eq_error hrow
    rcases (Except.bind_eq_error_iff _ _ _).1 hpoint with hpoint | ⟨_, _, hpoint⟩
    · exact ⟨fault, Failure.ofFault_of_not_isLocal (isLocal_of_slopeOrNaN hpoint)⟩
    · cases hpoint
  · cases h

/-- However a lattice is sampled, it fails only with such a fault. -/
theorem exists_fault_of_sampleLattice {f : SlopeFunction} {xs ys : Array Float} {failure : Failure}
    (h : (sampleLattice f xs ys).outcome = .error failure) : ∃ fault, failure = .fault fault := by
  unfold sampleLattice at h
  split at h
  · exact exists_fault_of_samplePoints h
  · split at h
    · cases h
    · -- evaluation of the whole lattice failed: point by point, or with that very fault
      next fault _ =>
      split at h
      · rw [Report.outcome_bind] at h
        exact exists_fault_of_samplePoints h
      · next hlocal =>
        cases h
        exact ⟨fault, Failure.ofFault_of_not_isLocal (Bool.eq_false_iff.2 hlocal)⟩

/-- A problem that sampling finds is a number of rows that is too small. -/
theorem kind_of_request {f : SlopeFunction} {d : Domain} {rows : Int} {p : Problem}
    (h : (request f d (.integer rows)).outcome = .error (.problem p)) : p.kind = .gridSize := by
  unfold request sample at h
  rw [Report.outcome_bind, Report.outcome_ofExcept] at h
  rcases (Except.bind_eq_error_iff _ _ _).1 h with h | ⟨n, _, h⟩
  · -- too few rows, or too few of them to be written
    rcases rowsOf_integer_eq_error h with ⟨_, hp⟩ | ⟨_, hp⟩
    · cases hp
      rfl
    · cases hp
  · rw [Report.outcome_bind] at h
    rcases (Except.bind_eq_error_iff _ _ _).1 h with h | ⟨slopes, _, h⟩
    · obtain ⟨fault, heq⟩ := exists_fault_of_sampleLattice h
      cases heq
    · cases h

end Field

end DirectionField
