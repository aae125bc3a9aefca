import DirectionField.Proofs.EventLog
import DirectionField.Proofs.SessionHistory
import DirectionField.Proofs.StageFailure

/-!
# The log of a session is a run of its phases

`Phase.Next` is the state machine of a session: which phase may follow which. What a session logs along
any requests that are answered is a run of that machine, from the phase of a new session to the one in
which it is now (`Session.Logged.tells`). `Session.GraphTells` and `Session.TraceTells` say what a single
request adds to the log. A graph that fails has left exactly one stage for the phase of failure, and
the kind of the problem tells which.
-/

namespace DirectionField

/-! ## Phases -/

/-- The phases in which a session rests between requests. -/
def Phase.resting : List Phase := [.idle, .ready, .failed]

/-- The stages of a request to graph, in order. -/
def Phase.stages : List Phase := [.validating, .parsing, .computing]

/-- The second phase may follow the first. -/
inductive Phase.Next : Phase → Phase → Prop where
  | validate {p} (h : p ∈ resting) : Next p .validating
  | parse : Next .validating .parsing
  | compute : Next .parsing .computing
  | succeed : Next .computing .ready
  | fail {p} (h : p ∈ stages) : Next p .failed
  | trace : Next .ready .pathComputed
  | settle : Next .pathComputed .ready

/-- The transitions lead from the first phase to the last: each starts where the one before it
    ended. -/
inductive Phase.Run : Phase → List (Phase × Phase) → Phase → Prop where
  | nil (p) : Run p [] p
  | cons {p q r ts} (hnext : Next p q) (h : Run q ts r) : Run p ((p, q) :: ts) r

/-- The transitions from a phase through others. -/
def Phase.route : Phase → List Phase → List (Phase × Phase)
  | _, [] => []
  | p, q :: qs => (p, q) :: route q qs

/-- The kinds of problem that a stage can find. -/
def Phase.Finds : Phase → Problem.Kind → Prop
  | .validating, kind => kind = .inputFormat ∨ kind = .domain
  | .parsing, kind => kind = .equation
  | .computing, kind => kind = .gridSize
  | _, _ => False

/-- A route with one phase more has one transition more. -/
theorem Phase.route_append (p q r : Phase) (qs : List Phase) :
    p.route (qs ++ [q, r]) = p.route (qs ++ [q]) ++ [(q, r)] := by
  induction qs generalizing p with
  | nil => rfl
  | cons q' qs ih => exact congrArg ((p, q') :: ·) (ih q')

/-- No two stages find problems of the same kind. -/
theorem Phase.eq_iff_of_finds {stage : Phase} {kind : Problem.Kind} (h : stage.Finds kind) :
    (stage = .validating ↔ kind = .inputFormat ∨ kind = .domain) ∧
      (stage = .parsing ↔ kind = .equation) ∧ (stage = .computing ↔ kind = .gridSize) := by
  cases stage with
  | validating =>
    have hkind : kind = .inputFormat ∨ kind = .domain := h
    rcases hkind with rfl | rfl <;> simp
  | parsing =>
    have hkind : kind = .equation := h
    simp [hkind]
  | computing =>
    have hkind : kind = .gridSize := h
    simp [hkind]
  | idle | ready | pathComputed | failed => cases h

/-- Two runs make one run if the second starts where the first ends. -/
theorem Phase.Run.append {p q r : Phase} {ts us : List (Phase × Phase)} (h : Run p ts q)
    (h' : Run q us r) : Run p (ts ++ us) r := by
  induction h with
  | nil p => exact h'
  | cons hnext _ ih => exact .cons hnext (ih h')

/-- From a phase of rest, the stages lead to any of them. -/
theorem Phase.run_to_stage {p stage : Phase} {before after : List Phase} (hp : p ∈ resting)
    (h : stages = before ++ stage :: after) : Run p (p.route (before ++ [stage])) stage := by
  -- the stages in front are none, the first, or the first two
  match before, h with
  | [], h =>
    cases h
    exact .cons (.validate hp) (.nil _)
  | [_], h =>
    cases h
    exact .cons (.validate hp) (.cons .parse (.nil _))
  | [_, _], h =>
    cases h
    exact .cons (.validate hp) (.cons .parse (.cons .compute (.nil _)))
  | _ :: _ :: _ :: before, h => simp [stages] at h

/-- Between requests, a session is idle, ready or failed. -/
theorem Session.restingPhase_mem (answer : Option Bool) : restingPhase answer ∈ Phase.resting := by
  cases answer with
  | none => simp [restingPhase, Phase.resting]
  | some b => cases b <;> simp [restingPhase, Phase.resting]

namespace Session

/-! ## Single requests -/

/-- What a request to graph that is answered adds to the log: a success goes through all stages,
    without a warning; a failure goes to the stage that fails and from there to the phase of
    failure, and warns once, with the reason that is recorded. -/
inductive GraphTells (s : Session) (reply : Reply Bool) : Prop where
  | succeeded (hanswer : reply.answer = .ok true) (hphase : reply.session.phase = .ready)
      (htransitions : reply.log.transitions = s.phase.route (Phase.stages ++ [.ready]))
      (hwarnings : reply.log.warnings = [])
  | failed {before stage after kind reason} (hanswer : reply.answer = .ok false)
      (hphase : reply.session.phase = .failed) (hstages : Phase.stages = before ++ stage :: after)
      (htransitions : reply.log.transitions = s.phase.route (before ++ [stage, .failed]))
      (hwarnings : reply.log.warnings = [.refused kind reason])
      (herror : reply.session.error = some reason)
      (hvalidating : stage = .validating ↔ kind = .inputFormat ∨ kind = .domain)
      (hparsing : stage = .parsing ↔ kind = .equation)
      (hcomputing : stage = .computing ↔ kind = .gridSize)

/-- What a request to trace that is answered adds to the log: a path adds two transitions and no
    warning, and a refusal adds no transition and one warning, with the reason that is recorded. -/
inductive TraceTells (s : Session) (reply : Reply (Option Path)) : Prop where
  | found {path} (hanswer : reply.answer = .ok (some path)) (hready : s.phase = .ready)
      (hphase : reply.session.phase = .ready)
      (htransitions : reply.log.transitions = s.phase.route [.pathComputed, .ready])
      (hwarnings : reply.log.warnings = [])
  | refused {e reason} (hanswer : reply.answer = .ok none)
      (hphase : reply.session.phase = s.phase) (htransitions : reply.log.transitions = [])
      (hwarnings : reply.log.warnings = [e]) (hreason : e.reason? = some reason)
      (herror : reply.session.error = some reason)

/-- An attempt ends at the stage that fails, or at the last one. Up to there it has entered every
    stage and has not warned. -/
theorem attempt_cases (s : Session) (equation domainField rangeField rowsField : String) :
    let a := s.attempt equation domainField rangeField rowsField
    a.log.warnings = [] ∧
    ((∃ failure, validate domainField rangeField rowsField = .error failure ∧
      a.outcome = .error failure ∧ a.phase = .validating ∧
      a.log.transitions = s.phase.route [.validating]) ∨
    (∃ failure, Equation.compile s.vocabulary equation = .error failure ∧
      a.outcome = .error failure ∧ a.phase = .parsing ∧
      a.log.transitions = s.phase.route [.validating, .parsing]) ∨
    (∃ eq d, ∃ rows : Int, validate domainField rangeField rowsField = .ok (rows, d) ∧
      Equation.compile s.vocabulary equation = .ok eq ∧
      a.outcome = ((Field.request eq.toSlopeFunction d (.integer rows)).outcome.map
        fun field => ⟨eq, d, field⟩) ∧
      a.phase = .computing ∧ a.log.transitions = s.phase.route Phase.stages)) := by
  unfold attempt
  dsimp only
  cases hv : validate domainField rangeField rowsField with
  | error failure => exact ⟨rfl, .inl ⟨failure, rfl, rfl, rfl, rfl⟩⟩
  | ok p =>
    obtain ⟨rows, d⟩ := p
    dsimp only
    cases hc : Equation.compile s.vocabulary equation with
    | error failure => exact ⟨rfl, .inr (.inl ⟨failure, rfl, rfl, rfl, rfl⟩)⟩
    | ok eq =>
      -- whatever sampling has to tell comes behind the last stage, and is neither of the two
      have hquiet := Field.isQuiet_request eq.toSlopeFunction d (.integer rows)
      refine ⟨?_, .inr (.inr ⟨eq, d, rows, rfl, rfl, rfl, rfl, ?_⟩)⟩
      · rw [Log.warnings_append, hquiet.warnings_eq]
        rfl
      · rw [Log.transitions_append, hquiet.transitions_eq]
        rfl

/-- What a request to graph tells, besides what its attempt does, is where that ends. -/
theorem log_graph_of_ok {s : Session} {equation domainField rangeField rowsField : String}
    {g : Snapshot} (h : (s.attempt equation domainField rangeField rowsField).outcome = .ok g) :
    (s.graph equation domainField rangeField rowsField).log =
      (s.attempt equation domainField rangeField rowsField).log ++
        [.entered (s.attempt equation domainField rangeField rowsField).phase .ready,
          .graphed g.equation.canonical g.field.undefinedCount] := by
  unfold graph
  simp only [h]

/-- A request that ends with a problem enters the phase of failure and tells the reason. -/
theorem log_graph_of_problem {s : Session} {equation domainField rangeField rowsField : String}
    {p : Problem}
    (h : (s.attempt equation domainField rangeField rowsField).outcome = .error (.problem p)) :
    (s.graph equation domainField rangeField rowsField).log =
      (s.attempt equation domainField rangeField rowsField).log ++
        [.entered (s.attempt equation domainField rangeField rowsField).phase .failed,
          .refused p.kind p.message] := by
  unfold graph
  simp only [h]

/-- The phase in which an attempt ends is the stage up to which it has come: the last one if it ends
    in a graph, and one that finds such problems if it ends in a problem. -/
theorem attempt_reaches {s : Session} (hv : s.vocabulary.ReportsNothing)
    (equation domainField rangeField rowsField : String) :
    let a := s.attempt equation domainField rangeField rowsField
    ∃ before after, Phase.stages = before ++ a.phase :: after ∧
      a.log.transitions = s.phase.route (before ++ [a.phase]) ∧
      (∀ g, a.outcome = .ok g → after = []) ∧
      ∀ p, a.outcome = .error (.problem p) → a.phase.Finds p.kind := by
  dsimp only
  rcases (attempt_cases s equation domainField rangeField rowsField).2 with
    ⟨_, hvalidate, ho, hphase, ht⟩ | ⟨_, hcompile, ho, hphase, ht⟩ |
    ⟨eq, d, rows, _, _, ho, hphase, ht⟩
  · rw [ho, hphase]
    refine ⟨[], [.parsing, .computing], rfl, ht, fun _ hg => (nomatch hg), fun p hp => ?_⟩
    cases hp
    exact kind_of_validate hvalidate
  · rw [ho, hphase]
    refine ⟨[.validating], [.computing], rfl, ht, fun _ hg => (nomatch hg), fun p hp => ?_⟩
    cases hp
    exact Equation.kind_of_compile hv hcompile
  · rw [ho, hphase]
    refine ⟨[.validating, .parsing], [], rfl, ht, fun _ _ => rfl, fun p hp => ?_⟩
    -- the problem is one of the field, since a field that is sampled makes a graph
    cases hf : (Field.request eq.toSlopeFunction d (.integer rows)).outcome with
    | ok field => rw [hf] at hp; cases hp
    | error failure =>
      rw [hf] at hp
      cases hp
      exact Field.kind_of_request hf

/-- What a request to graph tells, at whichever stage it ends. -/
theorem graphTells {s : Session} (hv : s.vocabulary.ReportsNothing)
    (equation domainField rangeField rowsField : String)
    (ha : (s.graph equation domainField rangeField rowsField).answer.isOk = true) :
    GraphTells s (s.graph equation domainField rangeField rowsField) := by
  have hwarnings := (attempt_cases s equation domainField rangeField rowsField).1
  obtain ⟨before, after, hstages, ht, hlast, hfinds⟩ :=
    attempt_reaches hv equation domainField rangeField rowsField
  rcases graph_cases s equation domainField rangeField rowsField with
    ⟨g, hg, hanswer, hs⟩ | ⟨p, hp, hanswer, hs⟩ | ⟨fault, _, hanswer, _⟩
  · have hlog := log_graph_of_ok hg
    -- nothing is left to do behind the stage that has been reached
    obtain rfl := hlast g hg
    refine .succeeded hanswer (by rw [hs]) ?_ ?_
    · rw [hlog, Log.transitions_append, ht, hstages, List.append_assoc]
      exact (Phase.route_append ..).symm
    · rw [hlog, Log.warnings_append, hwarnings]
      rfl
  · have hlog := log_graph_of_problem hp
    have hwarning : (s.graph equation domainField rangeField rowsField).log.warnings =
        [.refused p.kind p.message] := by
      rw [hlog, Log.warnings_append, hwarnings]
      rfl
    obtain ⟨hvalidating, hparsing, hcomputing⟩ := Phase.eq_iff_of_finds (hfinds p hp)
    refine .failed hanswer (by rw [hs]) hstages ?_ hwarning (by rw [hs]) hvalidating hparsing
      hcomputing
    rw [hlog, Log.transitions_append, ht]
    exact (Phase.route_append ..).symm
  · -- a fault is no answer
    rw [hanswer] at ha
    cases ha

/-- A session whose latest graph succeeded rests in the phase of success, so that a path found over
    it leads out of this phase and back. -/
theorem traceTells {s : Session} (hs : s.hasCompiled = true → s.phase = .ready) (x y : Float)
    (stepField : Datum) (ha : (s.trace x y stepField).answer.isOk = true) :
    TraceTells s (s.trace x y stepField) := by
  unfold trace at ha ⊢
  cases hg : s.snapshot with
  | none => exact .refused rfl rfl rfl rfl rfl rfl
  | some g =>
    cases hc : s.hasCompiled with
    | false => exact .refused rfl rfl rfl rfl rfl rfl
    | true =>
      simp only [hg, hc] at ha ⊢
      -- the path itself tells nothing, so that what is told is what the session adds
      have hquiet := isQuiet_pathOver g s.limit x y stepField
      cases ho : (pathOver g s.limit x y stepField).outcome with
      | ok path =>
        simp only [ho] at ha ⊢
        refine .found rfl (hs hc) rfl ?_ ?_
        · rw [Log.transitions_append, hquiet.transitions_eq]
          rfl
        · rw [Log.warnings_append, hquiet.warnings_eq]
          rfl
      | error failure =>
        cases failure with
        | problem p =>
          simp only [ho] at ha ⊢
          have hwarning : Log.warnings ((pathOver g s.limit x y stepField).log ++
              [.refused p.kind p.message]) = [.refused p.kind p.message] := by
            rw [Log.warnings_append, hquiet.warnings_eq]
            rfl
          refine .refused rfl rfl ?_ hwarning rfl rfl
          rw [Log.transitions_append, hquiet.transitions_eq]
          rfl
        | fault fault =>
          simp only [ho] at ha
          cases ha

/-! ## Transitions of a single request -/

/-- However many stages a request to graph goes through, its transitions are a run of the
    machine. -/
theorem GraphTells.run {s : Session} {reply : Reply Bool} (h : GraphTells s reply)
    (hs : s.phase ∈ Phase.resting) :
    Phase.Run s.phase reply.log.transitions reply.session.phase := by
  cases h with
  | succeeded _ hphase htransitions _ =>
    have hstages : Phase.stages = [.validating, .parsing] ++ .computing :: [] := rfl
    rw [hphase, htransitions, hstages, List.append_assoc]
    exact (Phase.run_to_stage hs hstages).append (.cons .succeed (.nil _))
  | @failed before stage _ _ _ _ hphase hstages htransitions _ _ _ _ _ =>
    have hstage : stage ∈ Phase.stages := by simp [hstages]
    rw [hphase, htransitions, Phase.route_append]
    exact (Phase.run_to_stage hs hstages).append (.cons (.fail hstage) (.nil _))

/-- A path makes the phase of success be left and entered again. -/
theorem TraceTells.run {s : Session} {reply : Reply (Option Path)} (h : TraceTells s reply) :
    Phase.Run s.phase reply.log.transitions reply.session.phase := by
  -- a path goes from ready through tracing back to ready, and a refusal enters no phase
  cases h with
  | found _ hready hphase htransitions _ =>
    rw [hphase, htransitions, hready]
    exact .cons .trace (.cons .settle (.nil _))
  | refused _ hphase htransitions _ _ _ =>
    rw [hphase, htransitions]
    exact .nil _

/-! ## Runs -/

/-- The session of a vocabulary and a limit has come to a state by a history, and this is all that
    it has logged since it was made. -/
inductive Logged (vocabulary : Vocabulary Meaning) (limit : Int) :
    List Exchange → Log → Session → Prop where
  | new : Logged vocabulary limit [] [] (.new vocabulary limit)
  | graph {history log s} (h : Logged vocabulary limit history log s) (i : Inputs) :
      Logged vocabulary limit
        (.graph i (s.graph i.equation i.domain i.range i.rows).answer :: history)
        (log ++ (s.graph i.equation i.domain i.range i.rows).log)
        (s.graph i.equation i.domain i.range i.rows).session
  | trace {history log s} (h : Logged vocabulary limit history log s) (x y : Float)
      (stepField : Datum) :
      Logged vocabulary limit (.trace x y stepField (s.trace x y stepField).answer :: history)
        (log ++ (s.trace x y stepField).log) (s.trace x y stepField).session

variable {vocabulary : Vocabulary Meaning} {limit : Int} {history : List Exchange} {log : Log}
  {s : Session}

/-- If the latest request to graph succeeded, this is the phase in which a session rests. -/
theorem Records.phase_eq_ready (h : Records vocabulary limit history s)
    (hc : s.hasCompiled = true) : s.phase = .ready := by
  rw [h.phase_eq, h.hasCompiled_iff.1 hc]
  rfl

/-- As long as every request is answered, a session is what its history dictates, and what it has
    logged leads from the phase of a new session to its own. -/
theorem Logged.records_and_run (hv : vocabulary.ReportsNothing)
    (h : Logged vocabulary limit history log s) (ha : ∀ e ∈ history, e.isAnswered = true) :
    Records vocabulary limit history s ∧ Phase.Run .idle log.transitions s.phase := by
  -- both at once, since the next run starts in the phase that the records dictate
  induction h with
  | new => exact ⟨Records.new vocabulary limit, .nil _⟩
  | @graph _ _ s _ i ih =>
    obtain ⟨hrecords, hrun⟩ := ih fun e he => ha e (List.mem_cons_of_mem _ he)
    have hanswered : (s.graph i.equation i.domain i.range i.rows).answer.isOk = true :=
      ha _ List.mem_cons_self
    have htells := graphTells (hrecords.vocabulary_eq ▸ hv) i.equation i.domain i.range i.rows
      hanswered
    have hresting : s.phase ∈ Phase.resting := hrecords.phase_eq ▸ restingPhase_mem _
    rw [Log.transitions_append]
    exact ⟨hrecords.graph i hanswered, hrun.append (htells.run hresting)⟩
  | @trace _ _ s _ x y stepField ih =>
    obtain ⟨hrecords, hrun⟩ := ih fun e he => ha e (List.mem_cons_of_mem _ he)
    have hanswered : (s.trace x y stepField).answer.isOk = true := ha _ List.mem_cons_self
    have htells := traceTells hrecords.phase_eq_ready x y stepField hanswered
    rw [Log.transitions_append]
    exact ⟨hrecords.trace x y stepField hanswered, hrun.append htells.run⟩

/-- After any requests that were all answered, what a session has logged is a run of its phases,
    from the phase of a new session to its own, and every next request that is answered continues it
    as `GraphTells` and `TraceTells` say. -/
theorem Logged.tells (hv : vocabulary.ReportsNothing) (h : Logged vocabulary limit history log s)
    (ha : ∀ e ∈ history, e.isAnswered = true) :
    Phase.Run .idle log.transitions s.phase ∧
    (∀ i : Inputs, (s.graph i.equation i.domain i.range i.rows).answer.isOk = true →
      GraphTells s (s.graph i.equation i.domain i.range i.rows)) ∧
    ∀ x y stepField, (s.trace x y stepField).answer.isOk = true →
      TraceTells s (s.trace x y stepField) := by
  obtain ⟨hrecords, hrun⟩ := h.records_and_run hv ha
  refine ⟨hrun, fun i hanswered => ?_, fun x y stepField hanswered => ?_⟩
  · exact graphTells (hrecords.vocabulary_eq ▸ hv) i.equation i.domain i.range i.rows hanswered
  · exact traceTells hrecords.phase_eq_ready x y stepField hanswered

/-- A graph with too few rows, one with enough rows, and then a path over it. -/
theorem tells_failed_graphed :
    let v := Vocabulary.standard Elementary.native
    let i : Inputs := ⟨"sqrt x", "0, 1", "0, 1", "1"⟩
    let i' : Inputs := ⟨"sqrt x", "0, 1", "0, 1", "2"⟩
    let failed := (new v 10).graph i.equation i.domain i.range i.rows
    let graphed := failed.session.graph i'.equation i'.domain i'.range i'.rows
    let traced := graphed.session.trace 0.5 0.5 (.real 0.25)
    v.ReportsNothing ∧ (failed.answer.isOk = true ∧ graphed.answer.isOk = true) ∧
      traced.answer.isOk = true ∧
      Phase.Run .idle (Log.transitions (failed.log ++ graphed.log)) graphed.session.phase ∧
      TraceTells graphed.session traced := by
  intro v i i' failed graphed traced
  have hv : v.ReportsNothing := Vocabulary.standard_reportsNothing Elementary.native
  have hanswered : failed.answer.isOk = true ∧ graphed.answer.isOk = true := by decide +kernel
  have htraced : traced.answer.isOk = true := by decide +kernel
  -- a first request with one row only, and a second one with two
  have hlogged : Logged v 10 [.graph i' graphed.answer, .graph i failed.answer]
      (failed.log ++ graphed.log) graphed.session := .graph (.graph .new i) i'
  have htells := hlogged.tells hv fun e he => by
    rcases List.mem_cons.1 he with rfl | he
    · exact hanswered.2
    · rw [List.mem_singleton.1 he]
      exact hanswered.1
  exact ⟨hv, hanswered, htraced, htells.1, htells.2.2 0.5 0.5 (.real 0.25) htraced⟩

end Session

end DirectionField
