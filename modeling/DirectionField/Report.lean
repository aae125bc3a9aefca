import DirectionField.Event

/-! # Reports

A report is the outcome of an operation together with the log of what happened on the way to it. The
log is kept also where the operation fails. -/

namespace DirectionField

/-- An outcome and what happened on the way. -/
structure Report (α : Type) where
  log : Log
  outcome : Except Failure α

namespace Report

variable {α β : Type}

/-- Go on with the result of a report, unless it has none. -/
def bind (r : Report α) (f : α → Report β) : Report β :=
  match r.outcome with
  | .error failure => ⟨r.log, .error failure⟩
  | .ok a =>
    let s := f a
    ⟨r.log ++ s.log, s.outcome⟩

instance : Monad Report where
  pure a := ⟨[], .ok a⟩
  bind := bind

/-- The report of a single event. -/
def tell (e : Event) : Report Unit := ⟨[e], .ok ()⟩

/-- The report of several events. -/
def tellAll (log : Log) : Report Unit := ⟨log, .ok ()⟩

/-- An outcome without events. -/
def ofExcept (r : Except Failure α) : Report α := ⟨[], r⟩

/-- An outcome without events that can be a problem. -/
def ofProblem (r : Except Problem α) : Report α := ⟨[], r.mapError .problem⟩

/-- An outcome without events that can be a fault. -/
def ofFault (r : Except Fault α) : Report α := ⟨[], r.mapError .ofFault⟩

@[simp] theorem log_pure (a : α) : (pure a : Report α).log = [] := rfl

@[simp] theorem outcome_pure (a : α) : (pure a : Report α).outcome = .ok a := rfl

theorem bind_ok {r : Report α} {a : α} (h : r.outcome = .ok a) (f : α → Report β) :
    r >>= f = ⟨r.log ++ (f a).log, (f a).outcome⟩ := by
  simp [Bind.bind, bind, h]

theorem bind_error {r : Report α} {e : Failure} (h : r.outcome = .error e) (f : α → Report β) :
    r >>= f = ⟨r.log, .error e⟩ := by
  simp [Bind.bind, bind, h]

end Report

end DirectionField
