import DirectionField.Equation
import DirectionField.Proofs.ErrorPosition
import DirectionField.Proofs.ParsedTree
import DirectionField.Proofs.VocabularyLookup

/-!
# How compiling an equation fails

Whatever the implementations of a vocabulary do, compiling an equation finds a problem of the
equation, with three exceptions (`Equation.Escapes`). The trial evaluation at the origin turns every
fault into such a problem, but the constants are evaluated before it, and the first one without a value
ends everything with its own fault. And a problem has to be put into words: what is wrong with the text
may take an integer that is too long, and the fault that the trial evaluation meets may have no words.
No other fault escapes (`Equation.compile_error_iff`).
-/

namespace DirectionField

/-- An implementation without arguments has no real value: it signals a fault, or its result is a
    single complex number. -/
inductive Meaning.LacksValue (m : Meaning) : Fault → Prop where
  | signals {fault} (h : m [] = .error fault) : LacksValue m fault
  | complex {b} (h : m [] = .ok (.complex b)) (hshape : b.shape = []) : LacksValue m .notOneReal

/-- Of constants that are evaluated one after the other, the first one without a value has a
    fault. -/
inductive FirstFault (v : Vocabulary Meaning) (fault : Fault) : List String → Prop where
  | here {name names entry} (hentry : v.resolve? name 0 = some entry)
      (hfault : entry.meaning.LacksValue fault) : FirstFault v fault (name :: names)
  | later {name names value} (hvalue : Expr.constantValue v name = .ok value)
      (h : FirstFault v fault names) : FirstFault v fault (name :: names)

/-! ## Constants -/

namespace Expr

variable {v : Vocabulary Meaning} {fault : Fault}

/-- A constant has a fault if its implementation lacks a value. -/
theorem constantValue_eq_error_iff {name : String} {entry : Entry Meaning}
    (hentry : v.resolve? name 0 = some entry) :
    constantValue v name = .error fault ↔ entry.meaning.LacksValue fault := by
  unfold constantValue
  rw [hentry]
  dsimp only
  constructor
  · intro h
    cases hm : entry.meaning [] with
    | error fault' =>
      rw [hm] at h
      cases h
      exact .signals hm
    | ok value =>
      rw [hm] at h
      cases value with
      | real b => cases h
      | complex b =>
        -- several complex numbers keep their real parts
        by_cases hshape : b.shape.isEmpty = true
        · have hfault := (if_pos hshape).symm.trans h
          cases hfault
          exact .complex hm (List.isEmpty_iff.1 hshape)
        · have hvalue := (if_neg hshape).symm.trans h
          cases hvalue
  · intro h
    cases h with
    | signals hm => rw [hm]; rfl
    | complex hm hshape =>
      rw [hm]
      exact if_pos (List.isEmpty_iff.2 hshape)

/-- The constants of arguments are those of each of them. -/
theorem mem_constantsList (name : String) (es : List Expr) :
    name ∈ constantsList es ↔ ∃ e ∈ es, name ∈ e.constants := by
  induction es with
  | nil => simp [constantsList]
  | cons e es ih => simp [constantsList, ih]

/-- Every constant of a tree over a vocabulary is one of the vocabulary. -/
theorem Formed.exists_resolve? {e : Expr} (h : e.Formed v.signature) :
    ∀ name ∈ e.constants, ∃ entry, v.resolve? name 0 = some entry := by
  -- along the tree; only a call without arguments is a constant
  induction h with
  | literal n => intro name hname; cases hname
  | var _ => intro name hname; cases hname
  | signed _ ih => exact ih
  | binary _ _ ihl ihr =>
    intro name hname
    rcases List.mem_append.1 hname with hname | hname
    · exact ihl name hname
    · exact ihr name hname
  | @call _ args _ _ harity _ ih =>
    intro name hname
    cases args with
    | nil =>
      rw [List.mem_singleton.1 hname]
      exact Vocabulary.exists_resolve?_of_mem_arities harity
    | cons e es =>
      rcases List.mem_append.1 hname with hname | hname
      · exact ih e List.mem_cons_self name hname
      · obtain ⟨e', he', hname⟩ := (mem_constantsList name es).1 hname
        exact ih e' (List.mem_cons_of_mem _ he') name hname

end Expr

/-! ## Equations -/

namespace Equation

variable {v : Vocabulary Meaning} {fault : Fault}

/-- Compiling parses the text, evaluates the constants and tries the origin. -/
theorem compile_eq_ok_iff {text : String} {eq : Equation} : compile v text = .ok eq ↔
    Expr.parse v.signature text = .ok eq.tree ∧ checkConstants v eq.tree = .ok () ∧
      checkValue v eq.tree = .ok () ∧ eq = ⟨text, eq.tree, v⟩ := by
  unfold compile orFault Expr.read
  simp only [Except.bind_eq_ok_iff, Except.mapError_eq_ok_iff, Except.pure_eq_ok_iff]
  constructor
  · rintro ⟨tree, htree, _, hconstants, _, hvalue, h⟩
    cases h
    exact ⟨htree, hconstants, hvalue, rfl⟩
  · rintro ⟨htree, hconstants, hvalue, heq⟩
    exact ⟨eq.tree, htree, (), hconstants, (), hvalue, heq.symm⟩

/-- Constants are evaluated in order, and the first fault is the fault of all. -/
theorem forM_constantValue_eq_error_iff {names : List String}
    (hnames : ∀ name ∈ names, ∃ entry, v.resolve? name 0 = some entry) :
    (names.forM fun name => do let _ ← Expr.constantValue v name) = .error fault ↔
      FirstFault v fault names := by
  -- by the constants that are still to be evaluated
  induction names with
  | nil => exact ⟨fun h => (nomatch h), fun h => (nomatch h)⟩
  | cons name names ih =>
    obtain ⟨entry, hentry⟩ := hnames name List.mem_cons_self
    have hrest := ih fun name' h => hnames name' (List.mem_cons_of_mem _ h)
    rw [List.forM_eq_forM, List.forM_cons]
    cases hvalue : Expr.constantValue v name with
    | error fault' =>
      -- the constants behind this one are not evaluated
      have hlacks := (Expr.constantValue_eq_error_iff hentry).1 hvalue
      constructor
      · intro h
        cases h
        exact .here hentry hlacks
      · intro h
        cases h with
        | here hentry' hfault =>
          have hsame := hvalue.symm.trans ((Expr.constantValue_eq_error_iff hentry').2 hfault)
          cases hsame
          rfl
        | later hvalue' _ => rw [hvalue] at hvalue'; cases hvalue'
    | ok value =>
      -- this constant has a value, so that the fault is one of the constants behind it
      refine hrest.trans ⟨fun h => .later hvalue h, fun h => ?_⟩
      cases h with
      | here hentry' hfault =>
        rw [(Expr.constantValue_eq_error_iff hentry').2 hfault] at hvalue
        cases hvalue
      | later _ h => exact h

/-- The constants of a tree are checked in order. -/
theorem checkConstants_eq_error_iff {tree : Expr} (htree : tree.Formed v.signature) :
    checkConstants v tree = .error fault ↔ FirstFault v fault tree.constants :=
  forM_constantValue_eq_error_iff htree.exists_resolve?

/-- The trial evaluation comes to no fault without words, or to nothing that can be told. -/
theorem checkValue_eq_error {tree : Expr} {e : EquationError} (h : checkValue v tree = .error e) :
    (∃ message, e.cause.message = .ok message) ∨ ∃ inner fault,
      tree.eval v (.ofFloat 0.0) (.ofFloat 0.0) = .error (.wordless inner fault) ∧
        e.cause.message = .error fault := by
  unfold checkValue at h
  -- a value that is no real number is refused in fixed words, and a fault in its own
  cases heval : tree.eval v (.ofFloat 0.0) (.ofFloat 0.0) with
  | ok value =>
    rw [heval] at h
    dsimp only at h
    split at h
    · cases h
    · cases h
      exact .inl ⟨_, rfl⟩
  | error signalled =>
    rw [heval] at h
    cases h
    cases hmessage : signalled.message with
    | ok reason => exact .inl ⟨_, (Except.bind_eq_ok_iff ..).2 ⟨reason, hmessage, rfl⟩⟩
    | error fault =>
      obtain ⟨inner, rfl⟩ := Fault.message_eq_error_iff.1 hmessage
      exact .inr ⟨inner, fault, rfl, rfl⟩

/-- A fault that ends compiling although it is not turned into a problem of the equation. -/
inductive Escapes (v : Vocabulary Meaning) (text : String) : Fault → Prop where
  /-- What is wrong with the text takes an integer that is too long to be written. -/
  | unreportable (h : Expr.Unreportable v.signature text) :
      Escapes v text (.integerTooLong NumberText.digitLimit)
  /-- A constant has no value. -/
  | constant {tree fault} (htree : Expr.parse v.signature text = .ok tree)
      (h : FirstFault v fault tree.constants) : Escapes v text fault
  /-- All constants have values, and the trial evaluation comes to what has no words. -/
  | wordless {tree inner fault} (htree : Expr.parse v.signature text = .ok tree)
      (hconstants : ∀ fault, ¬ FirstFault v fault tree.constants)
      (h : tree.eval v (.ofFloat 0.0) (.ofFloat 0.0) = .error (.wordless inner fault)) :
      Escapes v text fault

/-- A fault that is passed on, other than that the stack is used up. -/
theorem tooDeepOr_ofFault (h : fault.exhaustsStack = false) :
    tooDeepOr (.ofFault fault) = .ofFault fault := by
  cases fault with
  | reported name message => rfl
  | stackExhausted message => cases h
  | wordless signalled inner =>
    show (if signalled.exhaustsStack then _ else _) = _
    rw [show signalled.exhaustsStack = false from h]
    rfl
  | _ => rfl

/-- Where the stack is used up, there is a problem of the equation. -/
theorem tooDeepOr_of_exhaustsStack (h : fault.exhaustsStack = true) :
    tooDeepOr (.ofFault fault) = .problem (.equation "equation is nested too deeply" none) := by
  cases fault with
  | stackExhausted message => rfl
  | wordless signalled inner =>
    show (if signalled.exhaustsStack then _ else _) = _
    rw [show signalled.exhaustsStack = true from h]
    rfl
  | _ => cases h

/-- Compiling fails with a problem of the equation or with a fault that escapes. -/
theorem compile_eq_error {text : String} {failure : Failure} (h : compile v text = .error failure) :
    (∃ message position, failure = .problem (.equation message position)) ∨
      ∃ fault, Escapes v text fault ∧ fault.exhaustsStack = false ∧ failure = .ofFault fault := by
  have hescapes {fault : Fault} (hfault : Escapes v text fault)
      (hfailure : tooDeepOr (.ofFault fault) = failure) :
      (∃ message position, failure = .problem (.equation message position)) ∨
        ∃ fault, Escapes v text fault ∧ fault.exhaustsStack = false ∧ failure = .ofFault fault := by
    cases hstack : fault.exhaustsStack with
    | true => exact .inl ⟨_, none, hfailure.symm.trans (tooDeepOr_of_exhaustsStack hstack)⟩
    | false => exact .inr ⟨fault, hfault, hstack, hfailure.symm.trans (tooDeepOr_ofFault hstack)⟩
  obtain ⟨failure', h, hfailure⟩ := (Except.mapError_eq_error_iff _ _ _).1 h
  rcases (Except.bind_eq_error_iff _ _ _).1 h with h | ⟨tree, htree, h⟩
  · -- reading refuses the text, with words or without
    rcases Expr.read_cases v.signature text with
      ⟨_, _, hread⟩ | ⟨e, message, _, _, hread⟩ | ⟨hlong, hread⟩
    · rw [hread] at h
      cases h
    · rw [hread] at h
      cases h
      exact .inl ⟨message, e.position, hfailure.symm⟩
    · rw [hread] at h
      cases h
      exact hescapes (.unreportable hlong) hfailure
  have hparse := (Except.mapError_eq_ok_iff _ _ _).1 htree
  have hformed := Expr.formed_of_parse hparse
  rcases (Except.bind_eq_error_iff _ _ _).1 h with h | ⟨_, hconstants, h⟩
  · -- then the constants are evaluated, outside of the trial evaluation
    obtain ⟨fault, hfault, rfl⟩ := (Except.mapError_eq_error_iff _ _ _).1 h
    exact hescapes (.constant hparse ((checkConstants_eq_error_iff hformed).1 hfault)) hfailure
  rcases (Except.bind_eq_error_iff _ _ _).1 h with h | ⟨_, _, h⟩
  · -- and then the tree at the origin
    obtain ⟨e, he, rfl⟩ := (Except.mapError_eq_error_iff _ _ _).1 h
    rcases checkValue_eq_error he with ⟨message, hmessage⟩ | ⟨inner, fault, heval, hmessage⟩
    · rw [Failure.ofEquationError_of_message hmessage] at hfailure
      exact .inl ⟨message, e.position, hfailure.symm⟩
    · have hvalues (fault' : Fault) : ¬ FirstFault v fault' tree.constants := by
        intro hfirst
        have hfault := (checkConstants_eq_error_iff hformed).2 hfirst
        rw [(Except.mapError_eq_ok_iff _ _ _).1 hconstants] at hfault
        cases hfault
      rw [Failure.ofEquationError_of_fault hmessage] at hfailure
      exact hescapes (.wordless hparse hvalues heval) hfailure
  · cases h

end Equation

end DirectionField
