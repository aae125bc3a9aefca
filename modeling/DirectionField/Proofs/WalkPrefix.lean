import DirectionField.Proofs.EulerRecurrence
import DirectionField.Proofs.StepCount

/-!
# Walks to different bounds

The points through which a walk goes do not depend on where it ends: one more step contributes one more
point, or none where the walk makes a gap (`Walk.reached_succ`). So of two walks that differ in their
bounds and limits only, the one with fewer steps has a prefix of the points of the other
(`walk_prefix`), also if it ends within a gap.
-/

namespace DirectionField

namespace Walk

/-- Where a walk stands after a number of steps, those included that it leaves out. -/
def pointAt (w : Walk) (start : Point) : Nat → Point
  | 0 => start
  | i + 1 => w.next (i + 1) (w.pointAt start i)

/-- The points that the first `n` steps of a walk contribute. -/
def reached (w : Walk) (start : Point) (n : Nat) : List Point :=
  ((List.range' 1 n).filter fun i => !w.pausesAt (w.pointAt start (i - 1))).map (w.pointAt start)

variable (w : Walk) (start : Point)

/-- One more step contributes the point to which it leads, unless the walk makes a gap. -/
theorem reached_succ (n : Nat) :
    w.reached start (n + 1) = w.reached start n ++
      if w.pausesAt (w.pointAt start n) then [] else [w.pointAt start (n + 1)] := by
  unfold reached
  rw [List.range'_1_concat, List.filter_append, List.map_append]
  congr 1
  rw [Nat.add_comm 1 n, List.filter_singleton, Nat.add_sub_cancel]
  cases w.pausesAt (w.pointAt start n) with
  | true => rfl
  | false => rfl

/-- More steps only append points. -/
theorem reached_prefix {n n' : Nat} (h : n ≤ n') : w.reached start n <+: w.reached start n' := by
  induction h with
  | refl => exact List.prefix_refl _
  | step _ ih =>
    rw [reached_succ]
    exact ih.trans (List.prefix_append _ _)

end Walk

variable {f : SlopeFunction} {dir : Direction} {start : Point} {step bound bound' : Float}
  {limit limit' : Int} {points points' : List Point}

/-- A walk that is found has the points of its steps. -/
theorem walk_reached (hw : (walk f dir start step bound limit).outcome = .ok points) :
    ∃ n, stepCount (dir.distance start.x bound) step limit = .ok n ∧
      points = (Walk.mk f dir start.x step).reached start n :=
  walk_eq_ok rfl (fun _ => rfl) hw

/-- Another limit refuses the number of steps of a walk, or it leaves the walk as it is. -/
theorem walk_outcome_of_limit (hw : (walk f dir start step bound limit).outcome = .ok points)
    {n : Nat} (hn : stepCount (dir.distance start.x bound) step limit = .ok n) (limit' : Int) :
    (walk f dir start step bound limit').outcome =
      if limit' < n then .error (tooManySteps n step limit') else .ok points := by
  have hproper := canWalk_of_walk hw
  -- what comes after the count does not see the limit
  rw [walk_outcome hproper, hn] at hw
  rw [walk_outcome hproper, stepCount_of_ok hn limit']
  split
  · rfl
  · exact hw

/-- Of two walks from the same start by the same step, the one with fewer steps has a prefix of the
    points of the other, whatever their bounds and limits, and they have the same points if they
    have as many steps. So a bound that is no nearer only appends points, and another limit refuses
    a walk or leaves its points as they are. -/
theorem walk_prefix (hw : (walk f dir start step bound limit).outcome = .ok points)
    (hw' : (walk f dir start step bound' limit').outcome = .ok points') :
    ∃ n n', stepCount (dir.distance start.x bound) step limit = .ok n ∧
      stepCount (dir.distance start.x bound') step limit' = .ok n' ∧
      (n ≤ n' → points <+: points') ∧ (n' ≤ n → points' <+: points) ∧
      (n = n' → points = points') ∧
      (dir.NoNearer bound bound' → points <+: points') ∧
      ∀ limit'' : Int, (walk f dir start step bound limit'').outcome =
        if limit'' < n then .error (tooManySteps n step limit'') else .ok points := by
  obtain ⟨n, hn, hpoints⟩ := walk_reached hw
  obtain ⟨n', hn', hpoints'⟩ := walk_reached hw'
  have hprefix (h : n ≤ n') : points <+: points' := by
    rw [hpoints, hpoints']
    exact Walk.reached_prefix _ _ h
  have hprefix' (h : n' ≤ n) : points' <+: points := by
    rw [hpoints, hpoints']
    exact Walk.reached_prefix _ _ h
  refine ⟨n, n', hn, hn', hprefix, hprefix', ?_, ?_, walk_outcome_of_limit hw hn⟩
  · rintro rfl
    rw [hpoints, hpoints']
  · intro hbound
    exact hprefix (Direction.stepCount_mono hn hn' hbound)

/-- From the line where the slope is infinite, a walk of one step has no point, and a walk of four
    steps goes on behind the gap. -/
theorem walk_prefix_brokenSlope :
    ∃ points points',
      (walk Euler.brokenSlope .forward ⟨0.0, 0.5⟩ 0.25 0.25 1).outcome = .ok points ∧
      (walk Euler.brokenSlope .forward ⟨0.0, 0.5⟩ 0.25 1.0 10).outcome = .ok points' ∧
      (points.length, points'.length) = (0, 3) ∧ points <+: points' := by
  have hlengths :
      ((walk Euler.brokenSlope .forward ⟨0.0, 0.5⟩ 0.25 0.25 1).outcome.toOption.map List.length,
        (walk Euler.brokenSlope .forward ⟨0.0, 0.5⟩ 0.25 1.0 10).outcome.toOption.map List.length) =
      (some 0, some 3) := by
    decide +kernel
  cases hw : (walk Euler.brokenSlope .forward ⟨0.0, 0.5⟩ 0.25 0.25 1).outcome with
  | error failure => rw [hw] at hlengths; cases (Prod.mk.inj hlengths).1
  | ok points =>
    cases hw' : (walk Euler.brokenSlope .forward ⟨0.0, 0.5⟩ 0.25 1.0 10).outcome with
    | error failure => rw [hw'] at hlengths; cases (Prod.mk.inj hlengths).2
    | ok points' =>
      rw [hw, hw'] at hlengths
      obtain ⟨hnone, hthree⟩ := Prod.mk.inj hlengths
      obtain ⟨_, _, _, _, _, _, _, houtward, _⟩ := walk_prefix hw hw'
      have hbound : Direction.NoNearer .forward 0.25 1.0 := by
        show (0.25 : Float) ≤ 1.0
        decide +kernel
      exact ⟨points, points', rfl, rfl,
        congrArg₂ Prod.mk (Option.some.inj hnone) (Option.some.inj hthree), houtward hbound⟩

end DirectionField
