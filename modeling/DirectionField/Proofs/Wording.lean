import DirectionField.Datum
import DirectionField.Expr.OfTokens
import DirectionField.Proofs.Except

/-!
# What cannot be put into words

What is wrong with an equation is reported in words, and there are two reasons only why there may be
none: a number of arguments is too long to be written, or the trial evaluation came to a fault that has
no words itself (`EquationError.Cause.message_eq_error_iff`). Then the report is a fault.
-/

namespace DirectionField

/-- Only a wordless fault signals another one when it is put into words. -/
theorem Fault.message_eq_error_iff {signalled fault : Fault} :
    signalled.message = .error fault ↔ ∃ inner, signalled = .wordless inner fault := by
  constructor
  · intro h
    unfold message at h
    split at h
    · cases h
      exact ⟨_, rfl⟩
    · cases h
  · rintro ⟨inner, rfl⟩
    rfl

/-- A row of integers cannot be written if one of them is too long. -/
theorem NumberText.mapM_integer_eq_error_iff {ns : List Nat} {fault : Fault} :
    (ns.mapM fun (n : Nat) => integer n) = .error fault ↔
      fault = .integerTooLong digitLimit ∧ ∃ n ∈ ns, isTooLong n = true := by
  constructor
  · intro h
    obtain ⟨n, hn, h⟩ := Except.exists_of_mapM_eq_error h
    obtain ⟨hlong, hfault⟩ := integer_eq_error_iff.1 h
    exact ⟨hfault, n, hn, hlong⟩
  · rintro ⟨rfl, n, hn, hlong⟩
    refine (Except.mapM_eq_error_iff fun n' fault' h => ?_).2
      ⟨n, hn, integer_eq_error_iff.2 ⟨hlong, rfl⟩⟩
    exact (integer_eq_error_iff.1 h).2

namespace Datum

variable {fault : Fault}

mutual

/-- A datum cannot be shown only because an integer in it is too long. -/
theorem literal_eq_error (d : Datum) (h : d.literal = .error fault) :
    fault = .integerTooLong NumberText.digitLimit := by
  -- only an integer fails by itself, and a list or a record fails with one of its items
  cases d with
  | integer n =>
    rw [literal] at h
    exact (NumberText.integer_eq_error_iff.1 h).2
  | list items =>
    rw [literal] at h
    rcases (Except.bind_eq_error_iff ..).1 h with h | ⟨_, _, h⟩
    · exact literals_eq_error items h
    · cases h
  | record fields =>
    rw [literal] at h
    rcases (Except.bind_eq_error_iff ..).1 h with h | ⟨_, _, h⟩
    · exact fieldLiterals_eq_error fields h
    · cases h
  | _ =>
    rw [literal] at h
    cases h

theorem literals_eq_error : ∀ items : List Datum, literals items = .error fault →
    fault = .integerTooLong NumberText.digitLimit
  | [], h => nomatch h
  | d :: items, h => by
    rcases (Except.bind_eq_error_iff ..).1 h with h | ⟨_, _, h⟩
    · exact literal_eq_error d h
    · rcases (Except.bind_eq_error_iff ..).1 h with h | ⟨_, _, h⟩
      · exact literals_eq_error items h
      · cases h

theorem fieldLiterals_eq_error : ∀ fields : List (String × Datum),
    fieldLiterals fields = .error fault → fault = .integerTooLong NumberText.digitLimit
  | [], h => nomatch h
  | (_, d) :: fields, h => by
    rcases (Except.bind_eq_error_iff ..).1 h with h | ⟨_, _, h⟩
    · exact literal_eq_error d h
    · rcases (Except.bind_eq_error_iff ..).1 h with h | ⟨_, _, h⟩
      · exact fieldLiterals_eq_error fields h
      · cases h

end

/-- A text is shown as it is, and anything else as it is written in a program. -/
theorem display_eq_error {d : Datum} (h : d.display = .error fault) :
    fault = .integerTooLong NumberText.digitLimit := by
  unfold display at h
  split at h
  · cases h
  · exact literal_eq_error _ h

end Datum

namespace EquationError

variable {c : Cause} {fault : Fault}

/-- There are no words for a number of arguments if the name takes one that is too long, nor for a
    fault that has none. -/
theorem Cause.message_eq_error_iff : c.message = .error fault ↔
    (∃ name accepted given, c = .argumentCount name accepted given ∧
      fault = .integerTooLong NumberText.digitLimit ∧
      ∃ n ∈ accepted, NumberText.isTooLong (n : Nat) = true) ∨
    ∃ inner, c = .cannotBeEvaluated (.wordless inner fault) := by
  constructor
  · intro h
    -- all other causes have fixed words
    cases c with
    | argumentCount name accepted given =>
      rcases (Except.bind_eq_error_iff ..).1 h with h | ⟨_, _, h⟩
      · obtain ⟨hfault, hlong⟩ := NumberText.mapM_integer_eq_error_iff.1 h
        exact .inl ⟨name, accepted, given, rfl, hfault, hlong⟩
      · cases h
    | cannotBeEvaluated signalled =>
      rcases (Except.bind_eq_error_iff ..).1 h with h | ⟨_, _, h⟩
      · obtain ⟨inner, rfl⟩ := Fault.message_eq_error_iff.1 h
        exact .inr ⟨inner, rfl⟩
      · cases h
    | _ => cases h
  · rintro (⟨name, accepted, given, rfl, hlong⟩ | ⟨inner, rfl⟩)
    · exact (Except.bind_eq_error_iff ..).2 (.inl (NumberText.mapM_integer_eq_error_iff.2 hlong))
    · rfl

/-! ## How messages begin -/

/-- A quoted token starts with a quotation mark. -/
theorem exists_toList_quote (s : String) :
    ∃ mark tail, (Text.quote s).toList = mark :: tail ∧ mark ≠ 'e' := by
  refine ⟨Text.quoteMark s.toList, s.toList.flatMap (Text.escape (Text.quoteMark s.toList)) ++
    [Text.quoteMark s.toList], String.toList_ofList, ?_⟩
  unfold Text.quoteMark
  split <;> decide

/-- Only the message about the end of an equation begins with these words. -/
theorem Cause.message_begins_iff {message : String} (hc : c.message = .ok message) :
    "unexpected end of equation".toList <+: message.toList ↔ c = .unexpectedEnd := by
  constructor
  · rintro ⟨rest, h⟩
    -- message by message: they differ in their first words, whatever is inserted behind these
    cases c with
    | unexpectedEnd => rfl
    | unexpected token expected =>
      -- a token is quoted
      obtain ⟨mark, tail, hquote, hmark⟩ := exists_toList_quote token
      cases hc
      simp only [String.toList_append, hquote] at h
      simp at h
      exact absurd h.1.symm hmark
    | tooLong limit =>
      cases hc
      generalize toString limit = number at h
      simp at h
    | argumentCount name accepted given =>
      obtain ⟨numbers, _, hc⟩ := (Except.bind_eq_ok_iff ..).1 hc
      cases hc
      generalize toString given = number at h
      generalize " or ".intercalate numbers = alternatives at h
      simp at h
    | cannotBeEvaluated signalled =>
      obtain ⟨reason, _, hc⟩ := (Except.bind_eq_ok_iff ..).1 hc
      cases hc
      simp at h
    | _ =>
      cases hc
      simp at h
  · rintro rfl
    cases hc
    exact List.prefix_refl _

end EquationError

/-! ## Reports -/

namespace Failure

variable {e : EquationError}

/-- What can be put into words is reported as a problem of the equation. -/
theorem ofEquationError_of_message {message : String} (h : e.cause.message = .ok message) :
    ofEquationError e = .problem (.equation message e.position) := by
  rw [ofEquationError, h]
  rfl

/-- What cannot be put into words is reported as the fault that was met on the way. -/
theorem ofEquationError_of_fault {fault : Fault} (h : e.cause.message = .error fault) :
    ofEquationError e = .ofFault fault := by
  rw [ofEquationError, h]
  rfl

end Failure

end DirectionField
