import DirectionField.Proofs.FieldSampling
import DirectionField.Proofs.PhaseTrace
import DirectionField.Proofs.ScanText

/-!
# What a request to graph comes to

With the standard vocabulary, a request to graph is answered, whatever its fields are and whatever was
asked before, unless the row count has more digits than are read (`Input.TooManyDigits`). This is the
only fault that any of the three stages can come to, and it leaves the session in the middle of the
first of them. `Session.Reached.graph_answered_unless_long` says so of every session that requests can
lead to.
-/

namespace DirectionField

/-! ## Row counts -/

/-- Every long run of digits is too long, whatever number it writes. -/
theorem Input.tooManyDigits_of_allDigits {ds : List Char} (h : Text.AllDigits ds)
    (hlong : NumberText.digitLimit < ds.length) :
    TooManyDigits (.text (String.ofList ds)) ds.length := by
  -- no digit is trimmed away
  have htrim : Text.trimBy Text.isBlank (String.ofList ds).toList = ds := by
    rw [String.toList_ofList]
    refine Text.trimBy_eq_self fun c hc => ?_
    obtain ⟨hlo, hhi⟩ : 48 ≤ c.toNat ∧ c.toNat ≤ 57 := Char.isDigit_iff_toNat.1 (h c hc)
    exact Text.isBlank_eq_false (by omega) (by omega)
  refine ⟨_, none, ds, rfl, ?_, rfl, hlong⟩
  rw [htrim]
  cases ds with
  | nil => cases hlong
  | cons c ds =>
    -- a digit is no sign
    have hdigit : c.isDigit = true := h c List.mem_cons_self
    have hsign : ¬ (c = '+' ∨ c = '-') := by
      rintro (rfl | rfl) <;> exact absurd hdigit (by decide)
    have hall : (c :: ds).all Text.isDigit = true :=
      List.all_eq_true.2 fun d hd => Text.isDigit_of_isDigit (h d hd)
    simp [integerDigits?, Numeral.splitSign, hsign, hall]

/-- The same number may be written with too many digits. -/
theorem Input.tooManyDigits_zeros_two {n : Nat} (hn : NumberText.digitLimit ≤ n) :
    Text.digitsValue (List.replicate n '0' ++ ['2']) = 2 ∧
      TooManyDigits (.text (String.ofList (List.replicate n '0' ++ ['2']))) (n + 1) := by
  have htwo : Text.AllDigits ['2'] := by simp [Text.AllDigits]
  have hall : Text.AllDigits (List.replicate n '0' ++ ['2']) :=
    (Text.allDigits_replicate n).append htwo
  have hlength : (List.replicate n '0' ++ ['2']).length = n + 1 := by simp
  constructor
  · rw [Text.digitsValue_zeros_append n htwo]
    decide
  · have hlong := tooManyDigits_of_allDigits hall (by omega)
    rw [hlength] at hlong
    exact hlong

/-! ## Equations -/

/-- Every constant of the vocabulary has a real number for its value. -/
def Vocabulary.HasConstantValues (v : Vocabulary Meaning) : Prop :=
  ∀ e ∈ v.entries, e.arity = 0 → ∃ x, e.meaning [] = .ok (.ofFloat x)

/-- The standard constants are numbers. -/
theorem Vocabulary.standard_hasConstantValues (lib : Elementary) :
    (standard lib).HasConstantValues := by
  refine forall_mem_standard lib (p := fun m n => n = 0 → ∃ x, m [] = .ok (.ofFloat x)) ?_ ?_ ?_ ?_
  · exact fun _ h => nomatch h
  · exact fun _ h => nomatch h
  · exact fun h => nomatch h
  · exact fun x _ => ⟨x, rfl⟩

/-- There are words for all that can be said about the vocabulary: no number of arguments is too
    long to be written, and no implementation signals a fault without words. -/
structure Vocabulary.HasWords (v : Vocabulary Meaning) : Prop where
  arity : ∀ e ∈ v.entries, NumberText.isTooLong e.arity = false
  fault : ∀ e ∈ v.entries, ∀ args inner fault, e.meaning args ≠ .error (.wordless inner fault)

/-- There are words for all that can be said about the standard vocabulary. -/
theorem Vocabulary.standard_hasWords (lib : Elementary) : (standard lib).HasWords where
  arity := by
    refine forall_mem_standard lib (p := fun _ n => NumberText.isTooLong n = false) ?_ ?_ ?_ ?_
    · exact fun _ => by decide +kernel
    · exact fun _ => by decide +kernel
    · decide +kernel
    · exact fun _ => by decide +kernel
  fault e he args inner fault h := by
    rcases standard_refusesMisfits lib e he args _ h with ⟨_, h⟩ | ⟨_, _, h⟩
    · cases h
    · cases h

/-- Where there are words for everything, evaluation comes to nothing without. -/
theorem Vocabulary.HasWords.evaluationFault_ne {v : Vocabulary Meaning} (hw : v.HasWords)
    {inner fault : Fault} : ¬ v.EvaluationFault (.wordless inner fault) := by
  intro h
  cases h with
  | signalled hmem h => exact hw.fault _ hmem _ _ _ h

/-- If all constants have values and there are words for everything, all that compiling can find is
    a problem of the equation. -/
theorem Equation.exists_problem_of_compile {v : Vocabulary Meaning} (hv : v.HasConstantValues)
    (hw : v.HasWords) {text : String} {failure : Failure} (h : compile v text = .error failure) :
    ∃ message position, failure = .problem (.equation message position) := by
  rcases compile_eq_error h with hp | ⟨fault, hescapes, _, _⟩
  · exact hp
  · -- each way for a fault to escape is closed by one of the two hypotheses
    cases hescapes with
    | unreportable h =>
      obtain ⟨name, _, _, _, n, hn, hlong⟩ := h
      obtain ⟨e, he, _, rfl⟩ := (Vocabulary.mem_arities_iff v name n).1 hn
      rw [hw.arity e he] at hlong
      cases hlong
    | constant _ h =>
      obtain ⟨entry, hentry, harity, hlacks⟩ := h.exists_lacksValue
      obtain ⟨x, hx⟩ := hv entry hentry harity
      cases hlacks with
      | signals hm => rw [hx] at hm; cases hm
      | complex hm _ => rw [hx] at hm; cases hm
    | wordless htree _ heval =>
      have hmeets := Expr.meets_eval_of_formed (.ofFloat 0.0) (.ofFloat 0.0) _
        (Expr.formed_of_parse htree)
      rw [heval] at hmeets
      exact absurd hmeets hw.evaluationFault_ne

/-! ## Fields -/

/-- Over an elementwise vocabulary, a field is sampled, or there are too few rows. -/
theorem Field.request_ok_or_problem {eq : Equation} (hv : eq.vocabulary.IsElementwise) (d : Domain)
    {rows : Int} (hshort : NumberText.isTooLong rows = false) :
    (∃ field, (request eq.toSlopeFunction d (.integer rows)).outcome = .ok field) ∨
      ∃ p, (request eq.toSlopeFunction d (.integer rows)).outcome = .error (.problem p) := by
  -- the rows are refused before anything is sampled, and sampling itself always succeeds
  cases hrows : rowsOf (.integer rows) with
  | error failure =>
    right
    rcases rowsOf_integer_eq_error hrows with ⟨_, rfl⟩ | ⟨hlong, _⟩
    · refine ⟨.tooFewRows leastRows (toString rows), ?_⟩
      unfold request
      rw [Report.outcome_bind, Report.outcome_ofExcept, hrows]
      rfl
    · rw [hshort] at hlong
      cases hlong
  | ok n =>
    left
    refine ⟨⟨d, n, d.abscissae n, d.ordinates n, cells eq.toSlopeFunction (d.abscissae n)
      (d.ordinates n)⟩, ?_⟩
    unfold request
    rw [Report.outcome_bind, Report.outcome_ofExcept, hrows]
    exact outcome_sample (outcome_sampleLattice hv _ _)

namespace Session

/-! ## Requests -/

variable {vocabulary : Vocabulary Meaning} {limit : Int} {history : List Exchange} {s : Session}

/-- An attempt comes to a fault only if the row count has too many digits, and then it ends before
    the equation is looked at. -/
theorem attempt_eq_fault_iff (hv : s.vocabulary.IsElementwise)
    (hc : s.vocabulary.HasConstantValues) (hw : s.vocabulary.HasWords)
    {equation domainField rangeField rowsField : String} {fault : Fault} :
    (s.attempt equation domainField rangeField rowsField).outcome = .error (.fault fault) ↔
      ∃ given, Input.TooManyDigits (.text rowsField) given ∧
        fault = .tooManyDigits NumberText.digitLimit given := by
  rw [← validate_eq_fault_iff domainField rangeField]
  constructor
  · intro h
    rcases (attempt_cases s equation domainField rangeField rowsField).2 with
      ⟨_, hvalidate, ho, _, _⟩ | ⟨_, hcompile, ho, _, _⟩ | ⟨eq, d, rows, hvalidate, hcompile, ho, _, _⟩
    · rw [ho] at h
      cases h
      exact hvalidate
    · -- neither compiling nor sampling comes to a fault
      obtain ⟨message, position, hp⟩ := Equation.exists_problem_of_compile hc hw hcompile
      rw [ho, hp] at h
      cases h
    · have hv' : eq.vocabulary.IsElementwise := Equation.vocabulary_of_compile hcompile ▸ hv
      rw [ho] at h
      -- a row count that has been read can be written, should it be too low
      have hshort := Input.isTooLong_of_rowCount ((validate_eq_ok_iff ..).1 hvalidate).1
      rcases Field.request_ok_or_problem hv' d hshort with ⟨field, hf⟩ | ⟨p, hf⟩
      · rw [hf] at h; cases h
      · rw [hf] at h; cases h
  · intro h
    unfold attempt
    simp only [h]

/-- A row count with too many digits ends the request in the middle of validation. -/
theorem graph_of_tooManyDigits (s : Session) {rowsField : String} {given : Nat}
    (h : Input.TooManyDigits (.text rowsField) given) (equation domainField rangeField : String) :
    (s.graph equation domainField rangeField rowsField).answer =
        .error (.tooManyDigits NumberText.digitLimit given) ∧
      (s.graph equation domainField rangeField rowsField).session =
        { s with phase := .validating, error := none, hasCompiled := false } := by
  have hvalidate := (validate_eq_fault_iff domainField rangeField).2 ⟨given, h, rfl⟩
  unfold graph attempt
  rw [hvalidate]
  exact ⟨rfl, rfl⟩

/-! ## Runs -/

/-- With the standard vocabulary, every session that requests can lead to answers a request to
    graph, unless the row count has too many digits: it succeeds, or it fails, and then all that
    changes is that the phase and the error tell so. Where the row count has too many digits there
    is a fault instead, and the session stays in the phase of validation. -/
theorem Reached.graph_answered_unless_long {lib : Elementary}
    (h : Reached (.standard lib) limit history s) (i : Inputs) :
    let reply := s.graph i.equation i.domain i.range i.rows
    ((¬ ∃ given, Input.TooManyDigits (.text i.rows) given) →
      (reply.answer = .ok true ∧ ∃ g, g.Shows (.standard lib) i ∧ reply.session = { s with
        phase := .ready, snapshot := some g, path := none, error := none, hasCompiled := true }) ∨
      (reply.answer = .ok false ∧ ∃ message, reply.session = { s with
        phase := .failed, error := some message, hasCompiled := false })) ∧
    ∀ given, Input.TooManyDigits (.text i.rows) given →
      reply.answer = .error (.tooManyDigits NumberText.digitLimit given) ∧
      reply.session = { s with phase := .validating, error := none, hasCompiled := false } := by
  have hvocabulary : s.vocabulary = .standard lib := h.vocabulary_eq.1
  have helementwise : s.vocabulary.IsElementwise :=
    hvocabulary ▸ Vocabulary.standard_isElementwise lib
  have hconstants : s.vocabulary.HasConstantValues :=
    hvocabulary ▸ Vocabulary.standard_hasConstantValues lib
  have hwords : s.vocabulary.HasWords := hvocabulary ▸ Vocabulary.standard_hasWords lib
  constructor
  · intro hshort
    -- a graph, a problem at some stage, or a fault, which only a long row count comes to
    rcases graph_cases s i.equation i.domain i.range i.rows with
      ⟨g, hg, hanswer, hs⟩ | ⟨p, _, hanswer, hs⟩ | ⟨fault, hf, _, _⟩
    · exact .inl ⟨hanswer, g, hvocabulary ▸ (attempt_eq_ok_iff s i g).1 hg, hs⟩
    · exact .inr ⟨hanswer, p.message, hs⟩
    · obtain ⟨given, hlong, _⟩ := (attempt_eq_fault_iff helementwise hconstants hwords).1 hf
      exact absurd ⟨given, hlong⟩ hshort
  · intro given hlong
    exact graph_of_tooManyDigits s hlong i.equation i.domain i.range

/-- A graph of two rows, and then one whose row count is no number. -/
theorem graph_answered_standard :
    let i : Inputs := ⟨"x", "0, 1", "0, 1", "2"⟩
    let v := Vocabulary.standard Elementary.native
    let s := ((new v 10).graph i.equation i.domain i.range i.rows).session
    let reply := s.graph "sin x" "0, 1" "0, 1" "two"
    (∃ history, Reached v 10 history s) ∧
      (¬ ∃ given, Input.TooManyDigits (.text "two") given) ∧
      reply.answer = .ok false ∧ ∃ message, reply.session = { s with
        phase := .failed, error := some message, hasCompiled := false } := by
  intro i v s reply
  have hreached : Reached v 10 _ s := .graph .new i
  -- the text of the row count is no integer at all
  have hshort : ¬ ∃ given, Input.TooManyDigits (.text "two") given := by
    rintro ⟨given, text, sign, ds, htext, hdigits, _⟩
    have hno : (integerDigits? (Text.trimBy Text.isBlank "two".toList)).isNone = true := by
      decide +kernel
    rw [Option.isNone_iff_eq_none] at hno
    cases htext
    rw [hno] at hdigits
    cases hdigits
  rcases (hreached.graph_answered_unless_long ⟨"sin x", "0, 1", "0, 1", "two"⟩).1 hshort with
    ⟨hanswer, g, hshows, _⟩ | ⟨hanswer, hsession⟩
  · obtain ⟨rows, hrows, _⟩ := hshows.field
    have hno : (Input.rowCount (.text "two")).toOption.isNone = true := by decide +kernel
    rw [show Input.rowCount (.text "two") = .ok rows from hrows] at hno
    cases hno
  · exact ⟨⟨_, hreached⟩, hshort, hanswer, hsession⟩

/-- Leading zeros count: a row count that writes the number two is too long. -/
theorem graph_leading_zeros :
    let rows := List.replicate 4300 '0' ++ ['2']
    let reply := (new (.standard Elementary.native) stepLimit).graph "x" "-1, 1" "-1, 1"
      (String.ofList rows)
    Text.digitsValue rows = 2 ∧ reply.answer = .error (.tooManyDigits NumberText.digitLimit 4301) ∧
      reply.session.phase = .validating ∧ reply.session.error = none := by
  obtain ⟨hvalue, hlong⟩ := Input.tooManyDigits_zeros_two (n := 4300) (by decide)
  obtain ⟨hanswer, hsession⟩ := graph_of_tooManyDigits (new (.standard Elementary.native) stepLimit)
    hlong "x" "-1, 1" "-1, 1"
  exact ⟨hvalue, hanswer, congrArg Session.phase hsession, congrArg Session.error hsession⟩

end Session

end DirectionField
