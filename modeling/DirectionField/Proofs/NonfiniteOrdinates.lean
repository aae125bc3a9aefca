import DirectionField.Proofs.SummaryNumbers
import DirectionField.Proofs.WalkPrefix

/-!
# Ordinates that are not finite

No step leads from an ordinate that is not finite back to a finite one, whatever the slope there
(`Walk.not_isFinite_next`): a gap holds the ordinate, and any other step adds to it or subtracts from it.
So the points of a walk with a finite ordinate come before all the others, and a summary shows the
ordinates of each walk as numbers up to some point and as null behind it
(`CommandLine.nonfinite_ordinates_absorbing`).
-/

namespace DirectionField

/-! ## Walks -/

/-- A step from an ordinate that is not finite leads to another one. -/
theorem Direction.not_isFinite_ordinate (dir : Direction) {y : Float} (h : y.isFinite = false)
    (slope step : Float) : (dir.ordinate y slope step).isFinite = false := by
  cases dir with
  | forward => exact not_isFinite_add h _
  | backward => exact not_isFinite_sub h _

namespace Walk

variable {w : Walk} {start : Point}

/-- No step leads back to finite ordinates. -/
theorem not_isFinite_next {p : Point} (h : p.y.isFinite = false) (i : Nat) :
    (w.next i p).y.isFinite = false := by
  unfold next
  dsimp only
  split
  · -- behind a gap the ordinate is the same
    exact h
  · exact w.direction.not_isFinite_ordinate h _ _

/-- Nor do several steps. -/
theorem not_isFinite_pointAt {i j : Nat} (hij : i ≤ j)
    (h : (w.pointAt start i).y.isFinite = false) : (w.pointAt start j).y.isFinite = false := by
  induction hij with
  | refl => exact h
  | step _ ih => exact not_isFinite_next ih _

/-- Of the points that a walk contributes, none behind one whose ordinate is not finite has a finite
    ordinate. -/
theorem reached_pairwise (n : Nat) : (w.reached start n).Pairwise fun p q =>
    p.y.isFinite = false → q.y.isFinite = false := by
  unfold reached
  rw [List.pairwise_map]
  -- the points are those of an increasing sequence of steps
  have hsteps : (List.range' 1 n).Pairwise (· < ·) := List.pairwise_lt_range'
  apply (hsteps.filter _).imp
  intro i j hij h
  exact not_isFinite_pointAt (Nat.le_of_lt hij) h

end Walk

/-- Where a property is never had again once it is lost, the elements that have it come first. -/
theorem exists_forall_take_drop {α : Type} {p : α → Bool} {as : List α}
    (h : as.Pairwise fun a b => p a = false → p b = false) :
    ∃ k, (∀ a ∈ as.take k, p a = true) ∧ ∀ a ∈ as.drop k, p a = false := by
  -- an element that fails is followed by elements that fail
  induction as with
  | nil => exact ⟨0, by simp, by simp⟩
  | cons a as ih =>
    obtain ⟨hhead, htail⟩ := List.pairwise_cons.1 h
    cases ha : p a with
    | false =>
      refine ⟨0, by simp, fun b hb => ?_⟩
      rcases List.mem_cons.1 hb with rfl | hb
      · exact ha
      · exact hhead b hb ha
    | true =>
      obtain ⟨k, htake, hdrop⟩ := ih htail
      refine ⟨k + 1, ?_, hdrop⟩
      rw [List.take_succ_cons, List.forall_mem_cons]
      exact ⟨ha, htake⟩

variable {f : SlopeFunction} {dir : Direction} {start : Point} {step bound : Float} {limit : Int}
  {points : List Point}

/-- The first `k` points have finite ordinates, and the points behind them have not. -/
def FiniteUpTo (k : Nat) (points : List Point) : Prop :=
  (∀ p ∈ points.take k, p.y.isFinite = true) ∧ ∀ p ∈ points.drop k, p.y.isFinite = false

/-- The ordinates of a walk are finite up to some point and not behind it. -/
theorem walk_finiteUpTo (hw : (walk f dir start step bound limit).outcome = .ok points) :
    ∃ k, FiniteUpTo k points := by
  obtain ⟨n, _, rfl⟩ := walk_reached hw
  exact exists_forall_take_drop (Walk.reached_pairwise n)

/-! ## Summaries -/

/-- The value of a member of an object. -/
def Json.member? (name : String) : Json → Option Json
  | .object members => members.lookup name
  | _ => none

namespace Summary

/-- A walk with the ordinates of its first `k` points as numbers and the others as null. -/
def nullFrom (k : Nat) (points : List Point) : Json :=
  .array ((points.take k).map (fun p => .array [.number p.x, .number p.y]) ++
    (points.drop k).map fun p => .array [.number p.x, .null])

/-- In a line, the ordinates are numbers up to some point, and `null` behind it. -/
theorem array_pointJson {k : Nat} {points : List Point} (h : FiniteUpTo k points) :
    Json.array (points.map pointJson) = nullFrom k points := by
  obtain ⟨hfinite, hnull⟩ := h
  unfold nullFrom
  rw [← List.take_append_drop k points, List.map_append, List.take_append_drop]
  congr 2
  · apply List.map_congr_left
    intro p hp
    simp [pointJson, Json.finite, hfinite p hp]
  · apply List.map_congr_left
    intro p hp
    simp [pointJson, Json.finite, hnull p hp]

/-- The walk that a summary shows under a name. -/
def walkJson? (s : Summary) (name : String) : Option Json :=
  (s.toJson.member? "path").bind (Json.member? name)

/-- A line shows both walks of a path. -/
theorem walkJson?_of_path {s : Summary} {p : Path} (h : s.path = some p) :
    s.walkJson? "forward" = some (.array (p.forward.map pointJson)) ∧
      s.walkJson? "backward" = some (.array (p.backward.map pointJson)) := by
  unfold walkJson? toJson
  rw [h]
  exact ⟨rfl, rfl⟩

end Summary

namespace CommandLine

/-- Ordinates that are not finite are absorbing. In a walk either way, every point behind one whose
    ordinate is a NaN or infinite has such an ordinate itself, so that the points with finite
    ordinates come first. In a printed summary with a path, each of the two walks is shown with
    numbers for its first ordinates and with null for all others. -/
theorem nonfinite_ordinates_absorbing :
    (∀ f dir start step bound limit points,
      (walk f dir start step bound limit).outcome = .ok points →
      (points.Pairwise fun p q => p.y.isFinite = false → q.y.isFinite = false) ∧
        ∃ k, FiniteUpTo k points) ∧
    ∀ lib env argv s path, (run lib env argv).ending = .summarized s → s.path = some path →
      (∀ temporaryPath, (run lib env argv).ending.output temporaryPath = [s.toJson.render]) ∧
      ∃ k k', FiniteUpTo k path.forward ∧ FiniteUpTo k' path.backward ∧
        s.walkJson? "forward" = some (Summary.nullFrom k path.forward) ∧
        s.walkJson? "backward" = some (Summary.nullFrom k' path.backward) := by
  constructor
  · intro f dir start step bound limit points hw
    refine ⟨?_, walk_finiteUpTo hw⟩
    obtain ⟨n, _, rfl⟩ := walk_reached hw
    exact Walk.reached_pairwise n
  · intro lib env argv s path hs hpath
    refine ⟨fun _ => by rw [hs]; rfl, ?_⟩
    -- the path of a summary is one that was solved, so that both of its parts are walks
    obtain ⟨i, g, hshows⟩ := run_summarized hs
    obtain ⟨_, _, _, hforward, hbackward⟩ := Path.solve_eq_ok_iff.1 (hshows.path_solves path hpath)
    obtain ⟨k, hk⟩ := walk_finiteUpTo hforward
    obtain ⟨k', hk'⟩ := walk_finiteUpTo hbackward
    obtain ⟨hright, hleft⟩ := Summary.walkJson?_of_path hpath
    rw [hright, hleft, Summary.array_pointJson hk, Summary.array_pointJson hk']
    exact ⟨k, k', hk, hk', rfl, rfl⟩

/-- The walk to the left over the pole of `1/x` has one point before the pole and two from there on,
    which are shown with null. -/
theorem nonfinite_ordinates_absorbing_pole :
    let argv := ["1/x", "--rows", "2", "--domain=-1,1", "--initial", "0.5,0", "--step", "0.5", "--json"]
    ∃ s path, (run .native noPlotting argv).ending = .summarized s ∧ s.path = some path ∧
      path.backward.map (fun p => p.y.isFinite) = [true, false, false] ∧
      (path.backward.Pairwise fun p q => p.y.isFinite = false → q.y.isFinite = false) ∧
      ∃ k, FiniteUpTo k path.backward ∧
        s.walkJson? "backward" = some (Summary.nullFrom k path.backward) := by
  intro argv
  have hkinds : (match (run .native noPlotting argv).ending with
      | .summarized s => s.path.map fun path : Path => path.backward.map fun p => p.y.isFinite
      | _ => none) = some [true, false, false] := by
    decide +kernel
  cases hs : (run .native noPlotting argv).ending with
  | summarized s =>
    rw [hs] at hkinds
    obtain ⟨path, hpath, hbackward⟩ := Option.map_eq_some_iff.1 hkinds
    obtain ⟨hwalks, hsummaries⟩ := nonfinite_ordinates_absorbing
    obtain ⟨_, _, k, _, hk, _, hshown⟩ := hsummaries _ _ _ s path hs hpath
    -- the path was solved, so its points are those of a walk
    obtain ⟨i, g, hshows⟩ := run_summarized hs
    obtain ⟨_, _, _, _, hwalk⟩ := Path.solve_eq_ok_iff.1 (hshows.path_solves path hpath)
    obtain ⟨hpairwise, _⟩ := hwalks _ _ _ _ _ _ _ hwalk
    exact ⟨s, path, rfl, hpath, hbackward, hpairwise, k, hk, hshown⟩
  | _ => rw [hs] at hkinds; cases hkinds

end CommandLine

end DirectionField
