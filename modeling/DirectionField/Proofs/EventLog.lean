import DirectionField.Path
import DirectionField.Proofs.Report
import DirectionField.Session

/-!
# What a log tells about a session

Of all events, those that enter a phase and those that warn tell how a session fares. Sampling a field
and walking along a path tell neither (`Field.isQuiet_request`, `Session.isQuiet_pathOver`), so that
what a session tells is what its own requests do.
-/

namespace DirectionField

/-- The phases that an event leads from and to. -/
def Event.transition? : Event → Option (Phase × Phase)
  | .entered old new => some (old, new)
  | _ => none

/-- Why a request is refused, if the event tells. -/
def Event.reason? : Event → Option String
  | .refused _ message | .traceIgnored message => some message
  | _ => none

namespace Log

/-- The phases that are entered, each behind the one that is left. -/
def transitions (log : Log) : List (Phase × Phase) := log.filterMap Event.transition?

/-- The events that warn. -/
def warnings (log : Log) : Log := log.filter (·.level = .warning)

/-- No phase is entered, and there is no warning. -/
def IsQuiet (log : Log) : Prop := ∀ e ∈ log, e.transition? = none ∧ e.level ≠ .warning

@[simp] theorem transitions_nil : transitions [] = [] := rfl

@[simp] theorem warnings_nil : warnings [] = [] := rfl

@[simp] theorem transitions_append (log log' : Log) :
    transitions (log ++ log') = transitions log ++ transitions log' := List.filterMap_append

@[simp] theorem warnings_append (log log' : Log) :
    warnings (log ++ log') = warnings log ++ warnings log' := List.filter_append ..

theorem IsQuiet.nil : IsQuiet [] := by simp [IsQuiet]

theorem IsQuiet.single {e : Event} (ht : e.transition? = none) (hl : e.level ≠ .warning) :
    IsQuiet [e] := by
  intro e' he
  rw [List.mem_singleton.1 he]
  exact ⟨ht, hl⟩

/-- What a fault has to tell in its own words is quiet if such events are. A fault without words
    tells nothing. -/
theorem IsQuiet.ofFault? {event : String → Event}
    (h : ∀ message, (event message).transition? = none ∧ (event message).level ≠ .warning)
    (fault? : Option Fault) : IsQuiet (Event.ofFault? event fault?) := by
  intro e he
  obtain ⟨fault, _, he⟩ := List.mem_filterMap.1 he
  obtain ⟨message, _, rfl⟩ := Option.map_eq_some_iff.1 he
  exact h message

/-- What is told in two parts is quiet if both are. -/
theorem IsQuiet.append {log log' : Log} (h : IsQuiet log) (h' : IsQuiet log') :
    IsQuiet (log ++ log') := by
  intro e he
  rcases List.mem_append.1 he with he | he
  · exact h e he
  · exact h' e he

/-- What many items have to tell is quiet if what each of them tells is. -/
theorem IsQuiet.flatMap {α : Type} {as : List α} {f : α → Log} (h : ∀ a ∈ as, IsQuiet (f a)) :
    IsQuiet (as.flatMap f) := by
  intro e he
  obtain ⟨a, ha, he⟩ := List.mem_flatMap.1 he
  exact h a ha e he

/-- A quiet log enters no phase, so that the transitions of a session are those it makes itself. -/
theorem IsQuiet.transitions_eq {log : Log} (h : IsQuiet log) : transitions log = [] :=
  List.filterMap_eq_nil_iff.2 fun e he => (h e he).1

/-- A quiet log has no warnings. -/
theorem IsQuiet.warnings_eq {log : Log} (h : IsQuiet log) : warnings log = [] := by
  refine List.filter_eq_nil_iff.2 fun e he => ?_
  simpa using (h e he).2

end Log

/-- A sequence of steps is quiet if the first is and those that its result leads to are. -/
theorem Report.isQuiet_bind {α β : Type} {r : Report α} {f : α → Report β} (hr : r.log.IsQuiet)
    (hf : ∀ a, r.outcome = .ok a → (f a).log.IsQuiet) : (r >>= f).log.IsQuiet := by
  -- a refused first step hides what its successors would tell
  cases h : r.outcome with
  | error failure => rw [bind_error h]; exact hr
  | ok a => rw [bind_ok h]; exact hr.append (hf a h)

/-! ## Fields -/

namespace Field

/-- A row has to tell about the points without a slope only. -/
theorem isQuiet_of_sampleRow {f : SlopeFunction} {xs : List Float} {y : Float}
    {row : List (Float × Log)} (h : sampleRow f xs y = .ok row) : ∀ c ∈ row, c.2.IsQuiet := by
  intro c hc
  obtain ⟨x, _, h⟩ := Except.exists_of_mem_mapM h hc
  obtain ⟨⟨v, fault?⟩, _, h⟩ := (Except.bind_eq_ok_iff _ _ _).1 h
  cases h
  exact .ofFault? (fun _ => ⟨rfl, by simp [Event.level]⟩) fault?

/-- Sampling point by point tells at most that points have no slope, which is not a warning. -/
theorem isQuiet_samplePoints (f : SlopeFunction) (xs ys : Array Float) :
    (samplePoints f xs ys).log.IsQuiet := by
  unfold samplePoints
  refine Report.isQuiet_bind Log.IsQuiet.nil fun rows hrows => ?_
  rw [Report.outcome_ofFault, Except.mapError_eq_ok_iff] at hrows
  refine Report.isQuiet_bind ?_ fun _ _ => Log.IsQuiet.nil
  -- the rows are told about in turn, and in a row its points
  refine Log.IsQuiet.flatMap fun row hrow => Log.IsQuiet.flatMap fun c hc => ?_
  obtain ⟨y, _, hy⟩ := Except.exists_of_mem_mapM hrows hrow
  exact isQuiet_of_sampleRow hy c hc

/-- In whichever way a lattice is sampled, the log is quiet. -/
theorem isQuiet_sampleLattice (f : SlopeFunction) (xs ys : Array Float) :
    (sampleLattice f xs ys).log.IsQuiet := by
  unfold sampleLattice
  split
  · exact isQuiet_samplePoints f xs ys
  · split
    · exact Log.IsQuiet.nil
    · split
      · -- the failed attempt is told about before the points are sampled
        exact Report.isQuiet_bind (.ofFault? (fun _ => ⟨rfl, by simp [Event.level]⟩) _)
          fun _ _ => isQuiet_samplePoints f xs ys
      · exact Log.IsQuiet.nil

/-- A field that is asked for enters no phase and warns of nothing, whether it is refused or
    sampled. -/
theorem isQuiet_request (f : SlopeFunction) (d : Domain) (rows : Datum) :
    (request f d rows).log.IsQuiet := by
  unfold request sample
  refine Report.isQuiet_bind Log.IsQuiet.nil fun _ _ => ?_
  refine Report.isQuiet_bind (isQuiet_sampleLattice f _ _) fun _ _ => ?_
  exact Report.isQuiet_bind (.single rfl (by simp [Event.level])) fun _ _ => Log.IsQuiet.nil

end Field

/-! ## Paths -/

/-- A step tells why its slope is missing and that it was skipped, and neither is a warning. -/
theorem Step.isQuiet_log (s : Step) : s.log.IsQuiet := by
  -- first the fault of the slope, then the note that the step was skipped
  refine Log.IsQuiet.append ?_ ?_
  · exact .ofFault? (fun _ => ⟨rfl, by simp [Event.level]⟩) _
  · split
    · exact .single rfl (by simp [Event.level])
    · exact .nil

/-- A walk in either direction is quiet. -/
theorem isQuiet_walk (f : SlopeFunction) (dir : Direction) (start : Point) (step bound : Float)
    (limit : Int) : (walk f dir start step bound limit).log.IsQuiet := by
  unfold walk
  -- the three checks and the steps themselves tell nothing, and the log of the steps comes last
  refine Report.isQuiet_bind Log.IsQuiet.nil fun _ _ => ?_
  refine Report.isQuiet_bind Log.IsQuiet.nil fun _ _ => ?_
  refine Report.isQuiet_bind Log.IsQuiet.nil fun _ _ => ?_
  refine Report.isQuiet_bind Log.IsQuiet.nil fun steps _ => ?_
  refine Report.isQuiet_bind ?_ fun _ _ => Log.IsQuiet.nil
  exact Log.IsQuiet.flatMap fun s _ => s.isQuiet_log

/-- A path is quiet, as both of its walks are. -/
theorem Path.isQuiet_solve (f : SlopeFunction) (start : Point) (step : Float) (d : Domain)
    (limit : Int) : (Path.solve f start step d limit).log.IsQuiet := by
  unfold Path.solve
  refine Report.isQuiet_bind Log.IsQuiet.nil fun _ _ => ?_
  refine Report.isQuiet_bind Log.IsQuiet.nil fun _ _ => ?_
  -- to the right first: where that walk is refused, nothing is told of the other one
  refine Report.isQuiet_bind (isQuiet_walk f .forward _ _ _ limit) fun _ _ => ?_
  refine Report.isQuiet_bind (isQuiet_walk f .backward _ _ _ limit) fun _ _ => ?_
  exact Report.isQuiet_bind (.single rfl (by simp [Event.level])) fun _ _ => Log.IsQuiet.nil

/-- Over an earlier field nothing of a path enters a phase: its refusal is told about by the
    session. -/
theorem Session.isQuiet_pathOver (g : Snapshot) (limit : Int) (x y : Float) (stepField : Datum) :
    (pathOver g limit x y stepField).log.IsQuiet := by
  unfold pathOver
  refine Report.isQuiet_bind Log.IsQuiet.nil fun step _ => ?_
  split
  · exact Path.isQuiet_solve _ _ step g.domain limit
  · exact Log.IsQuiet.nil

end DirectionField
