import DirectionField.Path
import DirectionField.Proofs.FieldSampling
import DirectionField.Proofs.StepCount

/-!
# What a walk comes to

A walk goes through a sequence of points of which each is the next one (`Walk.next`) of the point
before. What it reports are the points of that sequence at the steps that are not left out, whatever
there was to tell on the way (`Walk.points_of_stepsFrom`). There is a walk, or a path
(`Path.solve_eq_ok_iff`), unless its start, its width or the number of its steps is refused.
-/

namespace DirectionField

/-! ## What is checked -/

/-- A start is accepted if its coordinates are finite. -/
theorem checkStart_eq_ok_iff (p q : Point) :
    checkStart p = .ok q ↔ (p.x.isFinite = true ∧ p.y.isFinite = true) ∧ p = q := by
  unfold checkStart
  split
  · next h =>
    rw [Bool.and_eq_true] at h
    exact ⟨fun hq => ⟨h, Except.ok.inj hq⟩, fun hq => congrArg Except.ok hq.2⟩
  · next h =>
    rw [Bool.and_eq_true] at h
    exact ⟨fun hq => (nomatch hq), fun hq => absurd hq.1 h⟩

/-! ## Steps -/

/-- The slope of a step is that of the cell at its origin. -/
theorem SlopeFunction.eq_cell_of_slopeOrNaN {f : SlopeFunction} {x y slope : Float}
    {fault? : Option Fault} (h : f.slopeOrNaN x y = .ok (slope, fault?)) : slope = f.cell x y := by
  unfold slopeOrNaN at h
  unfold cell
  cases hs : f.slope x y with
  | ok v =>
    rw [hs] at h
    exact (congrArg Prod.fst (Except.ok.inj h)).symm
  | error fault =>
    rw [hs] at h
    dsimp only at h
    split at h
    · exact (congrArg Prod.fst (Except.ok.inj h)).symm
    · cases h

namespace Walk

/-- Does the walk make a gap behind a point? -/
def pausesAt (w : Walk) (p : Point) : Bool := w.direction.skips (w.function.cell p.x p.y)

/-- Where the `i`-th step leads if it starts at a point. -/
def next (w : Walk) (i : Nat) (p : Point) : Point :=
  ⟨w.direction.abscissa w.start w.step i,
    if w.pausesAt p then p.y else w.direction.ordinate p.y (w.function.cell p.x p.y) w.step⟩

variable {w : Walk}

/-- A step leads to the next point, and that point is left out where the walk makes a gap. -/
theorem target_point?_of_stepFrom {i : Nat} {p : Point} {s : Step} (h : w.stepFrom i p = .ok s) :
    s.target = w.next i p ∧ s.point? = if w.pausesAt p then none else some (w.next i p) := by
  unfold stepFrom at h
  obtain ⟨⟨slope, fault?⟩, hslope, h⟩ := (Except.bind_eq_ok_iff ..).1 h
  obtain rfl := SlopeFunction.eq_cell_of_slopeOrNaN hslope
  cases h
  exact ⟨rfl, rfl⟩

/-- The steps of a walk from a point of a sequence whose points follow each other reach the points
    of the sequence, except those behind a gap. -/
theorem points_of_stepsFrom {P : Nat → Point} (hP : ∀ i, P (i + 1) = w.next (i + 1) (P i))
    {n i : Nat} {done steps : List Step} (h : w.stepsFrom n (i + 1) (P i) done = .ok steps) :
    steps.filterMap Step.point? = done.reverse.filterMap Step.point? ++
      ((List.range' (i + 1) n).filter fun k => !w.pausesAt (P (k - 1))).map P := by
  -- the walk stands at `P i`, and `done` has what it came by
  induction n generalizing i done with
  | zero =>
    cases h
    rw [List.range'_zero, List.filter_nil, List.map_nil, List.append_nil]
  | succ n ih =>
    unfold stepsFrom at h
    cases hs : w.stepFrom (i + 1) (P i) with
    | error fault =>
      rw [hs] at h
      cases h
    | ok s =>
      rw [hs] at h
      dsimp only at h
      obtain ⟨htarget, hpoint⟩ := target_point?_of_stepFrom hs
      -- kept or left out, the step ends at the next point, where the hypothesis takes over
      rw [htarget, ← hP i] at h
      rw [ih h, List.reverse_cons, List.filterMap_append, List.range'_succ, List.filter_cons,
        Nat.add_sub_cancel, List.filterMap_cons, hpoint, ← hP i, List.append_assoc]
      cases w.pausesAt (P i) with
      | true => rfl
      | false => rfl

/-- A walk along a function that has a slope or a local fault everywhere is never cut short. -/
theorem exists_stepsFrom (hf : w.function.IsSettled) (n i : Nat) (p : Point) (done : List Step) :
    ∃ steps, w.stepsFrom n i p done = .ok steps := by
  -- step by step: a slope that is missing is a NaN, and so never stops the walk
  induction n generalizing i p done with
  | zero => exact ⟨done.reverse, rfl⟩
  | succ n ih =>
    obtain ⟨fault?, hslope⟩ := hf.slopeOrNaN_eq p.x p.y
    unfold stepsFrom stepFrom
    rw [hslope]
    exact ih (i + 1) _ _

end Walk

/-! ## Walks -/

/-- A start and a width of a step with which a walk can be made. -/
def CanWalk (start : Point) (step : Float) : Prop :=
  (start.x.isFinite = true ∧ start.y.isFinite = true) ∧ step.isFinite = true ∧ step > 0.0

section

variable {f : SlopeFunction} {dir : Direction} {start : Point} {step bound : Float} {limit : Int}
  {points : List Point}

/-- What a walk with a proper start and step comes to: its steps are counted and then made. -/
theorem walk_outcome (h : CanWalk start step) :
    (walk f dir start step bound limit).outcome = do
      let n ← stepCount (dir.distance start.x bound) step limit
      let steps ← ((Walk.mk f dir start.x step).stepsFrom n 1 start []).mapError Failure.ofFault
      return steps.filterMap Step.point? := by
  obtain ⟨hstart, hstep⟩ := h
  unfold walk
  simp only [Report.outcome_bind, Report.outcome_ofProblem, Report.outcome_ofExcept,
    Report.outcome_ofFault, (checkStart_eq_ok_iff start start).2 ⟨hstart, rfl⟩,
    (checkStep_eq_ok_iff step step).2 ⟨hstep, rfl⟩]
  rfl

/-- Without a proper start and step there is a problem. -/
theorem walk_outcome_of_not_canWalk (f : SlopeFunction) (dir : Direction) (bound : Float) (limit : Int)
    (h : ¬ CanWalk start step) :
    ∃ problem, (walk f dir start step bound limit).outcome = .error (.problem problem) := by
  unfold walk
  simp only [Report.outcome_bind, Report.outcome_ofProblem]
  cases hstart : checkStart start with
  | error problem => exact ⟨problem, rfl⟩
  | ok start' =>
    cases hstep : checkStep step with
    | error problem => exact ⟨problem, rfl⟩
    | ok step' =>
      obtain ⟨hfinite, _⟩ := (checkStart_eq_ok_iff ..).1 hstart
      obtain ⟨hproper, _⟩ := (checkStep_eq_ok_iff ..).1 hstep
      exact absurd ⟨hfinite, hproper⟩ h

/-- A walk that is found has a proper start and step. -/
theorem canWalk_of_walk (hw : (walk f dir start step bound limit).outcome = .ok points) :
    CanWalk start step := by
  by_contra hnot
  obtain ⟨problem, hproblem⟩ := walk_outcome_of_not_canWalk f dir bound limit hnot
  rw [hw] at hproblem
  cases hproblem

/-- The points of a walk are those of its sequence, for as many steps as its distance takes. -/
theorem walk_eq_ok {P : Nat → Point} (hstart : P 0 = start)
    (hP : ∀ i, P (i + 1) = (Walk.mk f dir start.x step).next (i + 1) (P i))
    (h : (walk f dir start step bound limit).outcome = .ok points) :
    ∃ n, stepCount (dir.distance start.x bound) step limit = .ok n ∧
      points = ((List.range' 1 n).filter
        fun k => !(Walk.mk f dir start.x step).pausesAt (P (k - 1))).map P := by
  rw [walk_outcome (canWalk_of_walk h)] at h
  simp only [Except.bind_eq_ok_iff, Except.mapError_eq_ok_iff] at h
  obtain ⟨n, hn, steps, hsteps, h⟩ := h
  obtain rfl := hstart
  refine ⟨n, hn, ?_⟩
  have hpoints := Walk.points_of_stepsFrom hP hsteps
  rw [← Except.ok.inj h, hpoints]
  rfl

/-- Along a function that has a slope or a local fault everywhere, there is a walk if the number of
    its steps is found. -/
theorem exists_walk_iff (hf : f.IsSettled) :
    (∃ points, (walk f dir start step bound limit).outcome = .ok points) ↔
      CanWalk start step ∧ ∃ n, stepCount (dir.distance start.x bound) step limit = .ok n := by
  constructor
  · rintro ⟨points, h⟩
    have hproper := canWalk_of_walk h
    rw [walk_outcome hproper] at h
    obtain ⟨n, hn, _⟩ := (Except.bind_eq_ok_iff ..).1 h
    exact ⟨hproper, n, hn⟩
  · rintro ⟨hproper, n, hn⟩
    obtain ⟨steps, hsteps⟩ :=
      Walk.exists_stepsFrom (w := Walk.mk f dir start.x step) hf n 1 start []
    refine ⟨steps.filterMap Step.point?, ?_⟩
    rw [walk_outcome hproper]
    simp only [Except.bind_eq_ok_iff, Except.mapError_eq_ok_iff]
    exact ⟨n, hn, steps, hsteps, rfl⟩

/-- A walk comes to a fault only if the number of its steps does. -/
theorem walk_eq_fault_iff (hf : f.IsSettled) {fault : Fault} :
    (walk f dir start step bound limit).outcome = .error (.fault fault) ↔
      CanWalk start step ∧
        stepCount (dir.distance start.x bound) step limit = .error (.fault fault) := by
  by_cases hproper : CanWalk start step
  · rw [walk_outcome hproper, Except.bind_eq_error_iff]
    constructor
    · rintro (hcount | ⟨n, _, h⟩)
      · exact ⟨hproper, hcount⟩
      · -- the steps themselves come to no fault
        obtain ⟨steps, hsteps⟩ :=
          Walk.exists_stepsFrom (w := Walk.mk f dir start.x step) hf n 1 start []
        rw [hsteps] at h
        cases h
    · rintro ⟨_, hcount⟩
      exact .inl hcount
  · obtain ⟨problem, hproblem⟩ := walk_outcome_of_not_canWalk f dir bound limit hproper
    rw [hproblem]
    constructor
    · intro h
      cases h
    · rintro ⟨h, _⟩
      exact absurd h hproper

end

/-- A path is found if its start and its step are proper and both walks are found. -/
theorem Path.solve_eq_ok_iff {f : SlopeFunction} {start : Point} {step : Float} {domain : Domain}
    {limit : Int} {path : Path} :
    (Path.solve f start step domain limit).outcome = .ok path ↔
      CanWalk start step ∧ path.start = start ∧ path.step = step ∧
        (walk f .forward start step domain.right limit).outcome = .ok path.forward ∧
        (walk f .backward start step domain.left limit).outcome = .ok path.backward := by
  unfold Path.solve CanWalk
  simp only [Report.outcome_bind, Report.outcome_ofProblem, Except.bind_eq_ok_iff,
    Except.mapError_eq_ok_iff, checkStart_eq_ok_iff, checkStep_eq_ok_iff]
  constructor
  · rintro ⟨_, ⟨hstart, rfl⟩, _, ⟨hstep, rfl⟩, forward, hforward, backward, hbackward, _, _, h⟩
    cases h
    exact ⟨⟨hstart, hstep⟩, rfl, rfl, hforward, hbackward⟩
  · rintro ⟨⟨hstart, hstep⟩, rfl, rfl, hforward, hbackward⟩
    exact ⟨_, ⟨hstart, rfl⟩, _, ⟨hstep, rfl⟩, _, hforward, _, hbackward, (), rfl, rfl⟩

end DirectionField
