import DirectionField.Proofs.WalkOutcome

/-!
# Paths follow the recurrence of Euler's method

`Euler.right` and `Euler.left` are the points through which Euler's method goes from a start, step by
step. A path has exactly these points, but for the steps to the right that meet an infinite slope
(`Euler.solve_described`), and its segments start at the ordinates at which the slopes were taken: the
ordinate that is held behind a gap is that of the last point before it.
-/

namespace DirectionField

namespace Euler

section Recurrence

variable (f : SlopeFunction) (start : Point) (h : Float)

/-- Where Euler's method stands after a number of steps to the right. Where the slope is infinite,
    the ordinate is held. -/
def right : Nat → Point
  | 0 => start
  | i + 1 =>
    let p := right i
    let slope := f.cell p.x p.y
    ⟨start.x + Float.ofNat (i + 1) * h, if slope.isInf then p.y else p.y + slope * h⟩

/-- Where Euler's method stands after a number of steps to the left. -/
def left : Nat → Point
  | 0 => start
  | i + 1 =>
    let p := left i
    ⟨start.x - Float.ofNat (i + 1) * h, p.y - f.cell p.x p.y * h⟩

/-- The slope that the `i`-th step to the right takes, counted from one. -/
def rightSlope (i : Nat) : Float :=
  let p := right f start h (i - 1)
  f.cell p.x p.y

/-- Those of the first `n` steps to the right that do not meet an infinite slope. -/
def kept (n : Nat) : List Nat :=
  (List.range' 1 n).filter fun i => !(rightSlope f start h i).isInf

/-- The number of the other ones. -/
def skipped (n : Nat) : Nat := (List.range' 1 n).countP fun i => (rightSlope f start h i).isInf

end Recurrence

/-- A path from a start with a step `h` is what Euler's method gives, with `toRight` steps to the
    right bound of a domain and `toLeft` steps to the left one. -/
structure Describes (f : SlopeFunction) (start : Point) (h : Float) (domain : Domain) (limit : Int)
    (path : Path) (toRight toLeft : Nat) : Prop where
  start_eq : path.start = start
  step_eq : path.step = h
  toRight_eq : stepCount (domain.right - start.x) h limit = .ok toRight
  toRight_le : toRight ≤ limit
  toLeft_eq : stepCount (start.x - domain.left) h limit = .ok toLeft
  toLeft_le : toLeft ≤ limit
  forward_eq : path.forward = (kept f start h toRight).map (right f start h)
  length_forward : path.forward.length + skipped f start h toRight = toRight
  backward_eq : path.backward = (List.range' 1 toLeft).map (left f start h)
  length_backward : path.backward.length = toLeft
  /-- Each segment starts one step before its end, where the slope of that step was taken. -/
  segments_eq : path.segments =
    ((kept f start h toRight).map fun i =>
      ⟨⟨(right f start h i).x - h, (right f start h (i - 1)).y⟩, right f start h i⟩) ++
    (List.range' 1 toLeft).map fun i =>
      ⟨⟨(left f start h i).x + h, (left f start h (i - 1)).y⟩, left f start h i⟩

/-! ## Points -/

variable {f : SlopeFunction} {start : Point} {h bound : Float} {limit : Int} {points : List Point}

/-- To the right, a walk pauses where the slope is infinite. -/
theorem pausesAt_forward (p : Point) :
    (Walk.mk f .forward start.x h).pausesAt p = (f.cell p.x p.y).isInf := rfl

/-- To the left, a walk never pauses. -/
theorem pausesAt_backward (p : Point) : (Walk.mk f .backward start.x h).pausesAt p = false := rfl

/-- The recurrence to the right is the step of a walk. -/
theorem right_succ (i : Nat) :
    right f start h (i + 1) = (Walk.mk f .forward start.x h).next (i + 1) (right f start h i) := rfl

/-- And so is the one to the left. -/
theorem left_succ (i : Nat) :
    left f start h (i + 1) = (Walk.mk f .backward start.x h).next (i + 1) (left f start h i) := rfl

/-- A walk to the right has the points of the recurrence at the steps that are kept. -/
theorem walk_forward (hw : (walk f .forward start h bound limit).outcome = .ok points) :
    ∃ n, stepCount (bound - start.x) h limit = .ok n ∧
      points = (kept f start h n).map (right f start h) := by
  obtain ⟨n, hn, hpoints⟩ := walk_eq_ok rfl right_succ hw
  simp only [pausesAt_forward] at hpoints
  exact ⟨n, hn, hpoints⟩

/-- A walk to the left leaves no step out. -/
theorem walk_backward (hw : (walk f .backward start h bound limit).outcome = .ok points) :
    ∃ n, stepCount (start.x - bound) h limit = .ok n ∧
      points = (List.range' 1 n).map (left f start h) := by
  obtain ⟨n, hn, hpoints⟩ := walk_eq_ok rfl left_succ hw
  simp only [pausesAt_backward, Bool.not_false, List.filter_true] at hpoints
  exact ⟨n, hn, hpoints⟩

/-- Every step is kept or skipped. -/
theorem length_kept_add_skipped (n : Nat) :
    (kept f start h n).length + skipped f start h n = n := by
  have hcount : (List.range' 1 n).length = skipped f start h n + _ :=
    List.length_eq_countP_add_countP _
  unfold kept
  rw [← List.countP_eq_length_filter]
  simp only [List.length_range', Bool.not_eq_true, Bool.decide_eq_false] at hcount
  omega

/-! ## Segments -/

/-- If the ordinates of a sequence do not change at the steps that are left out, the segments to its
    other points start at the ordinates of the points just before these in the sequence. -/
theorem segmentsFrom_map_filter (back : Float → Float) (P : Nat → Point) (keeps : Nat → Bool)
    (hheld : ∀ i, keeps (i + 1) = false → (P (i + 1)).y = (P i).y) (n i : Nat) :
    Path.segmentsFrom back (P i).y (((List.range' (i + 1) n).filter keeps).map P) =
      ((List.range' (i + 1) n).filter keeps).map
        fun k => ⟨⟨back (P k).x, (P (k - 1)).y⟩, P k⟩ := by
  -- the ordinate carried along is that of the sequence, not only that of the last point kept
  induction n generalizing i with
  | zero => rfl
  | succ n ih =>
    rw [List.range'_succ, List.filter_cons]
    cases hkeep : keeps (i + 1) with
    | false =>
      rw [if_neg (by decide), ← hheld i hkeep]
      exact ih (i + 1)
    | true =>
      rw [if_pos rfl, List.map_cons, List.map_cons, Path.segmentsFrom, ih (i + 1)]
      rfl

/-- Where a step to the right is left out, the ordinate is held. -/
theorem right_y_of_skipped (i : Nat) (hi : (!(rightSlope f start h (i + 1)).isInf) = false) :
    (right f start h (i + 1)).y = (right f start h i).y := by
  have hinf : (f.cell (right f start h i).x (right f start h i).y).isInf = true :=
    (Bool.not_eq_false' ..).mp hi
  exact if_pos hinf

/-- To the right, a segment starts one step before its point, at the ordinate where the step before
    ended. -/
theorem segmentsFrom_right (n : Nat) :
    Path.segmentsFrom (· - h) start.y ((kept f start h n).map (right f start h)) =
      (kept f start h n).map fun i =>
        ⟨⟨(right f start h i).x - h, (right f start h (i - 1)).y⟩, right f start h i⟩ :=
  segmentsFrom_map_filter (· - h) (right f start h)
    (fun i => !(rightSlope f start h i).isInf) right_y_of_skipped n 0

/-- To the left, it starts one step behind its point. -/
theorem segmentsFrom_left (n : Nat) :
    Path.segmentsFrom (· + h) start.y ((List.range' 1 n).map (left f start h)) =
      (List.range' 1 n).map fun i =>
        ⟨⟨(left f start h i).x + h, (left f start h (i - 1)).y⟩, left f start h i⟩ := by
  have hall := segmentsFrom_map_filter (· + h) (left f start h) (fun _ => true)
    (fun _ hkeep => (nomatch hkeep)) n 0
  rw [List.filter_true] at hall
  exact hall

/-! ## Paths -/

/-- A path that is found is what Euler's method gives: every point, the number of steps each way,
    and every segment. -/
theorem solve_described {domain : Domain} {path : Path}
    (hs : (Path.solve f start h domain limit).outcome = .ok path) :
    ∃ toRight toLeft, Describes f start h domain limit path toRight toLeft := by
  obtain ⟨_, hstart, hstep, hforward, hbackward⟩ := Path.solve_eq_ok_iff.1 hs
  -- both walks start where the path does, and neither sees the other
  obtain ⟨n, hn, hright⟩ := walk_forward hforward
  obtain ⟨m, hm, hleft⟩ := walk_backward hbackward
  exact ⟨n, m, {
    start_eq := hstart
    step_eq := hstep
    toRight_eq := hn
    toRight_le := stepCount_le hn
    toLeft_eq := hm
    toLeft_le := stepCount_le hm
    forward_eq := hright
    length_forward := by rw [hright, List.length_map]; exact length_kept_add_skipped n
    backward_eq := hleft
    length_backward := by rw [hleft, List.length_map, List.length_range']
    segments_eq := by
      unfold Path.segments
      rw [hstart, hstep, hright, hleft, segmentsFrom_right, segmentsFrom_left] }⟩

/-- A slope that is infinite on the vertical axis, and unknown on the line `x = 0.5`. -/
def brokenSlope : SlopeFunction where
  slope x y :=
    if x == 0.0 then .ok (1.0 / 0.0)
    else if x == 0.5 then .error (.raised .value "unknown")
    else .ok y
  evaluate? := none

/-- The path through the middle of the left edge of the unit square: it has a gap at once, and is
    undefined from the middle on. -/
theorem solve_brokenSlope_described :
    ∃ domain : Domain, (domain.left, domain.right, domain.lower, domain.upper) = (0.0, 1.0, 0.0, 1.0) ∧
      ∃ path, (Path.solve brokenSlope ⟨0.0, 0.5⟩ 0.25 domain 10).outcome = .ok path ∧
        ∃ toRight toLeft, Describes brokenSlope ⟨0.0, 0.5⟩ 0.25 domain 10 path toRight toLeft := by
  let domain : Domain :=
    ⟨0.0, 1.0, 0.0, 1.0, by decide +kernel, by decide +kernel, by decide +kernel⟩
  refine ⟨domain, rfl, ?_⟩
  cases hs : (Path.solve brokenSlope ⟨0.0, 0.5⟩ 0.25 domain 10).outcome with
  | error failure =>
    have hok : (Path.solve brokenSlope ⟨0.0, 0.5⟩ 0.25 domain 10).outcome.isOk = true := by
      decide +kernel
    rw [hs] at hok
    cases hok
  | ok path => exact ⟨path, rfl, solve_described hs⟩

end Euler

end DirectionField
