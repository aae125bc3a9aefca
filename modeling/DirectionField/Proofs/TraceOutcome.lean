import DirectionField.Proofs.FloatKinds
import DirectionField.Proofs.SessionHistory
import DirectionField.Proofs.StageFailure
import DirectionField.Proofs.WalkOutcome

/-!
# What a request to trace comes to

A request to trace is answered, with a path or with a reason why there is none, unless it comes to a
fault for one of three reasons (`Snapshot.PathFault`). The step that it asks for cannot be shown, which
is never so of a text or a number. Or the number of steps overflows: a distance divided by a small
enough width is no finite number, and this is met before the number is compared with the limit. Or the
steps are more than the limit admits and the limit is too long to be written in the refusal.
`Session.Reached.trace_answered_unless_fault` says so of every session that requests can lead to.
-/

namespace DirectionField

/-- Counting the steps from a point to a bound of a domain comes to a fault: to the right bound, or,
    if the steps to that one can be made, to the left bound. -/
def Domain.StepsFault (domain : Domain) (limit : Int) (x step : Float) (fault : Fault) : Prop :=
  CountFault (domain.right - x) step limit fault ∨
    (∃ n, stepCount (domain.right - x) step limit = .ok n) ∧
      CountFault (x - domain.left) step limit fault

/-- A path through a point over a graph comes to a fault. -/
inductive Snapshot.PathFault (g : Snapshot) (limit : Int) (x y : Float) (stepField : Datum) :
    Fault → Prop where
  /-- The step that is asked for cannot be shown as a text. -/
  | unshown {fault} (h : stepField.display = .error fault) : PathFault g limit x y stepField fault
  /-- The point is in the domain, and the steps of a proper width cannot be counted. -/
  | steps {step fault} (hstep : Session.stepField stepField = .ok step)
      (hin : g.domain.contains x y = true) (hproper : step.isFinite = true ∧ step > 0.0)
      (h : g.domain.StepsFault limit x step fault) : PathFault g limit x y stepField fault

/-! ## Paths -/

/-- A path comes to a fault only where its steps are counted. -/
theorem Path.solve_eq_fault_iff {f : SlopeFunction} (hf : f.IsSettled) {start : Point} {step : Float}
    {domain : Domain} {limit : Int} {fault : Fault} :
    (Path.solve f start step domain limit).outcome = .error (.fault fault) ↔
      CanWalk start step ∧ domain.StepsFault limit start.x step fault := by
  unfold Path.solve
  simp only [Report.outcome_bind, Report.outcome_ofProblem, Except.bind_eq_error_iff,
    Except.mapError_eq_error_iff, Except.mapError_eq_ok_iff, checkStart_eq_ok_iff,
    checkStep_eq_ok_iff, walk_eq_fault_iff hf]
  constructor
  · -- the start and the width are refused with problems, and so is the path that is left over
    rintro (⟨_, _, h⟩ | ⟨_, ⟨_, rfl⟩, ⟨_, _, h⟩ | ⟨_, ⟨_, rfl⟩, h⟩⟩)
    · cases h
    · cases h
    · rcases h with ⟨hwalk, hcount⟩ | ⟨forward, hforward, ⟨hwalk, hcount⟩ | ⟨_, _, h⟩⟩
      · exact ⟨hwalk, .inl ((stepCount_eq_fault_iff hwalk.2).1 hcount)⟩
      · have hright := ((exists_walk_iff hf).1 ⟨forward, hforward⟩).2
        exact ⟨hwalk, .inr ⟨hright, (stepCount_eq_fault_iff hwalk.2).1 hcount⟩⟩
      · rcases h with h | ⟨_, _, h⟩
        · cases h
        · cases h
  · -- to the left, the steps are counted only after the walk to the right has been made
    rintro ⟨hwalk, hsteps⟩
    refine .inr ⟨start, ⟨hwalk.1, rfl⟩, .inr ⟨step, ⟨hwalk.2, rfl⟩, ?_⟩⟩
    rcases hsteps with hcount | ⟨hright, hcount⟩
    · exact .inl ⟨hwalk, (stepCount_eq_fault_iff hwalk.2).2 hcount⟩
    · have hwalks : ∃ forward,
          (walk f .forward start step domain.right limit).outcome = .ok forward :=
        (exists_walk_iff hf).2 ⟨hwalk, hright⟩
      obtain ⟨forward, hforward⟩ := hwalks
      exact .inr ⟨forward, hforward, .inl ⟨hwalk, (stepCount_eq_fault_iff hwalk.2).2 hcount⟩⟩

/-- A point of a domain has finite coordinates. -/
theorem Domain.isFinite_of_contains {d : Domain} {x y : Float} (h : d.contains x y = true) :
    x.isFinite = true ∧ y.isFinite = true := by
  unfold Domain.contains at h
  simp only [Bool.and_eq_true, decide_eq_true_eq] at h
  have hbounds := List.all_eq_true.1 d.finite
  simp only [List.forall_mem_cons] at hbounds
  obtain ⟨hl, hr, hlo, hup, _⟩ := hbounds
  exact ⟨isFinite_of_le_of_le hl hr h.1.1.1 h.1.1.2, isFinite_of_le_of_le hlo hup h.1.2 h.2⟩

namespace Session

/-- A request to trace comes to a fault: there is a graph to trace over, and the path does. -/
def TraceFault (s : Session) (x y : Float) (stepField : Datum) (fault : Fault) : Prop :=
  ∃ g, s.snapshot = some g ∧ s.hasCompiled = true ∧ g.PathFault s.limit x y stepField fault

/-- A step comes to a fault only if it cannot be shown; a text that is no number is a problem. -/
theorem stepField_eq_fault_iff {d : Datum} {fault : Fault} :
    stepField d = .error (.fault fault) ↔ d.display = .error fault := by
  have hfault {fault' : Fault} (h : d.display = .error fault') :
      Failure.ofFault fault' = .fault fault' := by
    rw [Datum.display_eq_error h]
    rfl
  -- a number is taken as it is, and anything else is shown as a text and read
  unfold stepField
  split
  · constructor
    · intro h
      cases h
    · intro h
      cases h
  · rw [Except.bind_eq_error_iff, orFault, Except.mapError_eq_error_iff]
    constructor
    · rintro (⟨fault', hdisplay, h⟩ | ⟨text, _, h⟩)
      · rw [hfault hdisplay] at h
        cases h
        exact hdisplay
      · obtain ⟨_, hp, _⟩ := Input.problem_of_number h
        cases hp
    · intro hdisplay
      exact .inl ⟨fault, hdisplay, hfault hdisplay⟩

/-- Over a graph, a request comes to a fault if and only if its path does. -/
theorem pathOver_eq_fault_iff {g : Snapshot} (hf : g.equation.toSlopeFunction.IsSettled)
    {limit : Int} {x y : Float} {stepField : Datum} {fault : Fault} :
    (pathOver g limit x y stepField).outcome = .error (.fault fault) ↔
      g.PathFault limit x y stepField fault := by
  unfold pathOver
  rw [Report.outcome_bind, Report.outcome_ofExcept, Except.bind_eq_error_iff, stepField_eq_fault_iff]
  constructor
  · rintro (hdisplay | ⟨step, hstep, h⟩)
    · exact .unshown hdisplay
    · -- outside of the domain the request is refused before anything is counted
      by_cases hin : g.domain.contains x y = true
      · rw [if_pos hin, Path.solve_eq_fault_iff hf] at h
        obtain ⟨⟨_, hproper⟩, hsteps⟩ := h
        exact .steps hstep hin hproper hsteps
      · rw [if_neg hin] at h
        cases h
  · intro h
    cases h with
    | unshown hdisplay => exact .inl hdisplay
    | @steps step _ hstep hin hproper hsteps =>
      refine .inr ⟨step, hstep, ?_⟩
      rw [if_pos hin, Path.solve_eq_fault_iff hf]
      exact ⟨⟨Domain.isFinite_of_contains hin, hproper⟩, hsteps⟩

/-- The faults that a path can come to have words, so that they are passed on as they are. -/
theorem passedOn_of_pathFault {g : Snapshot} {limit : Int} {x y : Float} {stepField : Datum}
    {fault : Fault} (h : g.PathFault limit x y stepField fault) : fault.passedOn = fault := by
  cases h with
  | unshown h =>
    rw [Datum.display_eq_error h]
    rfl
  | steps _ _ _ h =>
    rcases h with h | ⟨_, h⟩
    · cases h <;> rfl
    · cases h <;> rfl

/-! ## Runs -/

section Reached

variable {vocabulary : Vocabulary Meaning} {limit : Int} {history : List Exchange} {s : Session}

/-- If implementations give numbers or local faults on numbers, every session that requests can lead
    to answers a request to trace, unless it comes to a fault: with a path, or with none, and then
    all that changes is that the error tells why. Where it comes to a fault, that one is passed on,
    and nothing changes. -/
theorem Reached.trace_answered_unless_fault (hv : vocabulary.IsNumeric)
    (h : Reached vocabulary limit history s) (x y : Float) (stepField : Datum) :
    let reply := s.trace x y stepField
    ((¬ ∃ fault, s.TraceFault x y stepField fault) →
      (∃ path, reply.answer = .ok (some path)) ∨
      reply.answer = .ok none ∧ ∃ reason,
        s.objection? (.trace x y stepField reply.answer) = some reason ∧
          reply.session = { s with error := some reason }) ∧
    ∀ fault, s.TraceFault x y stepField fault → reply.answer = .error fault ∧ reply.session = s := by
  intro reply
  -- the equation of every graph is one of the vocabulary of the session
  have hsettled (g : Snapshot) (hg : s.snapshot = some g) :
      g.equation.toSlopeFunction.IsSettled := by
    have hvocabulary := h.vocabulary_eq.2 g hg
    exact Equation.settles_slope_of_isNumeric (hvocabulary ▸ hv)
  constructor
  · intro hno
    -- a path, a problem with it, a fault, or no graph to trace over
    rcases trace_cases s x y stepField with
      ⟨_, path, _, _, _, hanswer, _⟩ | ⟨g, p, hg, hc, hp, hanswer, hs⟩ |
      ⟨g, fault, hg, hc, hp, _, _⟩ | ⟨hnone, hanswer, hs⟩
    · exact .inl ⟨path, hanswer⟩
    · exact .inr ⟨hanswer, p.message, by simp only [objection?, hg, hc, hp], hs⟩
    · exact absurd ⟨fault, g, hg, hc, (pathOver_eq_fault_iff (hsettled g hg)).1 hp⟩ hno
    · exact .inr ⟨hanswer, nothingGraphed, objection?_of_no_graph hnone x y stepField, hs⟩
  · rintro fault ⟨g, hg, hc, hfault⟩
    have hp := (pathOver_eq_fault_iff (hsettled g hg)).2 hfault
    show (s.trace x y stepField).answer = _ ∧ (s.trace x y stepField).session = s
    unfold Session.trace
    simp only [hg, hc, hp, passedOn_of_pathFault hfault, and_self]

/-- After a graph of `x` over the unit square, a request to trace with a proper width is
    answered. -/
theorem trace_answered_standard :
    let i : Inputs := ⟨"x", "0, 1", "0, 1", "2"⟩
    let v := Vocabulary.standard Elementary.native
    let s := ((new v 10).graph i.equation i.domain i.range i.rows).session
    let reply := s.trace 0.5 0.5 (.text "0.25")
    (v.IsNumeric ∧ ∃ history, Reached v 10 history s) ∧
      (¬ ∃ fault, s.TraceFault 0.5 0.5 (.text "0.25") fault) ∧
      ((∃ path, reply.answer = .ok (some path)) ∨
        reply.answer = .ok none ∧ ∃ reason,
          s.objection? (.trace 0.5 0.5 (.text "0.25") reply.answer) = some reason ∧
            reply.session = { s with error := some reason }) := by
  intro i v s reply
  have hv : v.IsNumeric := (Vocabulary.standard_isElementwise _).isNumeric
  have hreached : Reached v 10 _ s := .graph .new i
  -- the graph is over the unit square, and the width is read as a quarter
  have hbounds : s.snapshot.map (fun g => (g.domain.left, g.domain.right)) = some (0.0, 1.0) := by
    decide +kernel
  have hwidth : (stepField (.text "0.25")).toOption = some 0.25 := by decide +kernel
  have hno : ¬ ∃ fault, s.TraceFault 0.5 0.5 (.text "0.25") fault := by
    rintro ⟨fault, g, hg, _, hfault⟩
    rw [hg] at hbounds
    have hleft : g.domain.left = 0.0 := congrArg Prod.fst (Option.some.inj hbounds)
    have hright : g.domain.right = 1.0 := congrArg Prod.snd (Option.some.inj hbounds)
    have hlimit : s.limit = 10 := by decide +kernel
    cases hfault with
    | unshown h => cases h
    | steps hstep _ _ h =>
      rw [hstep] at hwidth
      cases Option.some.inj hwidth
      unfold Domain.StepsFault at h
      rw [hleft, hright, hlimit] at h
      -- both quotients are finite, and the limit is short
      rcases h with h | ⟨_, h⟩
      · cases h with
        | overflow _ hquotient => exact absurd hquotient (by decide +kernel)
        | unwritable _ _ _ hlong => exact absurd hlong (by decide +kernel)
      · cases h with
        | overflow _ hquotient => exact absurd hquotient (by decide +kernel)
        | unwritable _ _ _ hlong => exact absurd hlong (by decide +kernel)
  exact ⟨⟨hv, _, hreached⟩, hno, (hreached.trace_answered_unless_fault hv 0.5 0.5 _).1 hno⟩

/-- Over the square around the origin, steps of the smallest positive width are too many to
    count. -/
theorem trace_overflows :
    let i : Inputs := ⟨"x", "-1, 1", "-1, 1", "2"⟩
    let graphed := (new .empty stepLimit).graph i.equation i.domain i.range i.rows
    graphed.answer.isOk = true ∧
      (graphed.session.trace 0.0 0.0 (.text "5e-324")).answer = .error .infiniteCount := by
  intro i graphed
  refine ⟨by decide +kernel, Except.error?_eq_some_iff.1 ?_⟩
  decide +kernel

end Reached

end Session

end DirectionField
