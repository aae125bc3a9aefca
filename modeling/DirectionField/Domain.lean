import DirectionField.Datum
import DirectionField.Problem

/-! # Domains and lattices

A domain is the rectangle `[left, right] × [lower, upper]` over which slopes are sampled. Its lattice
has the same number of abscissae and of ordinates, evenly spaced from one bound to the other, with
both bounds among them. -/

namespace DirectionField

/-- A rectangle with finite bounds. Its width and height may still be infinite. -/
structure Domain where
  left : Float
  right : Float
  lower : Float
  upper : Float
  finite : [left, right, lower, upper].all Float.isFinite
  left_lt_right : left < right
  lower_lt_upper : lower < upper

/-- A point of the plane. -/
structure Point where
  x : Float
  y : Float
deriving DecidableEq

namespace Domain

/-- The rectangle with the given bounds, or what is wrong with them. -/
def ofBounds (left right lower upper : Float) : Except Problem Domain :=
  if hf : [left, right, lower, upper].all Float.isFinite then
    if hx : left < right then
      if hy : lower < upper then .ok ⟨left, right, lower, upper, hf, hx, hy⟩
      else .error (.rangeNotIncreasing lower upper)
    else .error (.domainNotIncreasing left right)
  else .error (.boundsNotFinite left right lower upper)

/-- The extent of the abscissae. -/
def width (d : Domain) : Float := d.right - d.left

/-- The extent of the ordinates. -/
def height (d : Domain) : Float := d.upper - d.lower

/-- Is the point in the rectangle? Its edges belong to it. -/
def contains (d : Domain) (x y : Float) : Bool :=
  d.left ≤ x && x ≤ d.right && d.lower ≤ y && y ≤ d.upper

end Domain

/-! ## Lattices -/

/-- The least number of rows of a lattice. -/
def leastRows : Nat := 2

/-- The number of rows that a datum asks for. -/
def rowsOf : Datum → Except Failure Nat
  | .integer n =>
    if n < leastRows then .error (.ofWorded ((NumberText.integer n).map (.tooFewRows leastRows)))
    else .ok n.toNat
  | d => .error (.ofWorded (d.literal.map .rowsNotAnInteger))

theorem rowsOf_natCast {n : Nat} (h : leastRows ≤ n) : rowsOf (.integer n) = .ok n := by
  rw [rowsOf, if_neg (by omega), Int.toNat_natCast]

/-- Too few rows are refused in words, unless their number is too long to be written. -/
theorem rowsOf_integer_eq_error {n : Int} {failure : Failure}
    (h : rowsOf (.integer n) = .error failure) :
    NumberText.isTooLong n = false ∧ failure = .problem (.tooFewRows leastRows (toString n)) ∨
      NumberText.isTooLong n = true ∧ failure = .fault (.integerTooLong NumberText.digitLimit) := by
  rw [rowsOf] at h
  split at h
  · cases hlong : NumberText.isTooLong n with
    | false =>
      rw [NumberText.integer_of_short hlong] at h
      cases h
      exact .inl ⟨rfl, rfl⟩
    | true =>
      rw [NumberText.integer_eq_error_iff.2 ⟨hlong, rfl⟩] at h
      cases h
      exact .inr ⟨rfl, rfl⟩
  · cases h

theorem leastRows_le_of_rowsOf {d : Datum} {n : Nat} (h : rowsOf d = .ok n) : leastRows ≤ n := by
  unfold rowsOf at h
  split at h
  · split at h
    · cases h
    · cases h
      omega
  · cases h

/-- The `i`-th of `n` numbers that are evenly spaced from `start` to `stop`. Multiples of the
    spacing are added to `start`, and the last number is `stop` itself. Where the spacing is too
    small for a number of its own, the fraction of the way is taken first. -/
def spaced (start stop : Float) (n i : Nat) : Float :=
  let parts := Float.ofNat (n - 1)
  let spacing := (stop - start) / parts
  if i + 1 = n then stop
  else if spacing == 0.0 then Float.ofNat i / parts * (stop - start) + start
  else Float.ofNat i * spacing + start

/-- `n` numbers that are evenly spaced from `start` to `stop`. -/
def linspace (start stop : Float) (n : Nat) : Array Float :=
  ((List.range n).map (spaced start stop n)).toArray

/-- The abscissae of a lattice with `n` rows. -/
def Domain.abscissae (d : Domain) (n : Nat) : Array Float := linspace d.left d.right n

/-- The ordinates of a lattice with `n` rows. -/
def Domain.ordinates (d : Domain) (n : Nat) : Array Float := linspace d.lower d.upper n

@[simp] theorem size_linspace (start stop : Float) (n : Nat) : (linspace start stop n).size = n := by
  simp [linspace]

theorem getElem_linspace (start stop : Float) (n i : Nat) (h : i < (linspace start stop n).size) :
    (linspace start stop n)[i] = spaced start stop n i := by
  simp [linspace]

/-- The last of evenly spaced numbers is exactly where they stop. -/
theorem spaced_last (start stop : Float) (n : Nat) : spaced start stop (n + 1) n = stop := by
  simp [spaced]

end DirectionField
