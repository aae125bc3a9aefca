import DirectionField.Proofs.Except
import DirectionField.Report

/-!
# Outcomes of reports

The outcome of a report made of steps is the outcome of the steps without their logs, so that a
statement about a result can leave the log out of account.
-/

namespace DirectionField.Report

variable {α β : Type}

/-- A sequence of steps has the outcome of the sequence without logs. -/
@[simp] theorem outcome_bind (r : Report α) (f : α → Report β) :
    (r >>= f).outcome = r.outcome >>= fun a => (f a).outcome := by
  cases h : r.outcome with
  | error failure => rw [bind_error h]; rfl
  | ok a => rw [bind_ok h]; rfl

@[simp] theorem outcome_tell (e : Event) : (tell e).outcome = .ok () := rfl

@[simp] theorem outcome_tellAll (log : Log) : (tellAll log).outcome = .ok () := rfl

@[simp] theorem outcome_ofExcept (r : Except Failure α) : (ofExcept r).outcome = r := rfl

@[simp] theorem outcome_ofProblem (r : Except Problem α) :
    (ofProblem r).outcome = r.mapError .problem := rfl

@[simp] theorem outcome_ofFault (r : Except Fault α) :
    (ofFault r).outcome = r.mapError .ofFault := rfl

end DirectionField.Report
