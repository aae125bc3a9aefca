import DirectionField.Fault

/-! # Integers as text

An integer is read and written in base ten as long as it has no more than `NumberText.digitLimit`
digits. Counts of what is in memory, places in a text among them, are far below that limit and are
written without asking; an integer that a caller supplies is written by `NumberText.integer`. -/

namespace DirectionField.NumberText

-- A power is that of the core library, also where another library has its own.
attribute [local instance (2000)] instPowNat

/-- How many digits an integer may have that is read or written. -/
def digitLimit : Nat := 4300

/-- Has an integer too many digits to be written? Its sign does not count. -/
def isTooLong (n : Int) : Bool := 10 ^ digitLimit ≤ n.natAbs

/-- An integer in base ten. -/
def integer (n : Int) : Except Fault String :=
  if isTooLong n then .error (.integerTooLong digitLimit) else .ok (toString n)

/-- An integer that is no longer than one that can be written can be written. -/
theorem isTooLong_of_natAbs_le {n m : Int} (h : n.natAbs ≤ m.natAbs) (hm : isTooLong m = false) :
    isTooLong n = false := by
  unfold isTooLong at hm ⊢
  exact decide_eq_false fun hn => of_decide_eq_false hm (Nat.le_trans hn h)

theorem integer_of_short {n : Int} (h : isTooLong n = false) : integer n = .ok (toString n) := by
  rw [integer, h]
  rfl

/-- Writing an integer comes to a fault only if it is too long. -/
theorem integer_eq_error_iff {n : Int} {fault : Fault} :
    integer n = .error fault ↔ isTooLong n = true ∧ fault = .integerTooLong digitLimit := by
  unfold integer
  cases isTooLong n with
  | true =>
    constructor
    · intro h
      cases h
      exact ⟨rfl, rfl⟩
    · rintro ⟨_, rfl⟩
      rfl
  | false =>
    constructor
    · intro h
      cases h
    · rintro ⟨h, _⟩
      cases h

end DirectionField.NumberText
