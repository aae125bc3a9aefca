/-! # Divisors of natural numbers

How often a number divides another (`multiplicity`), and the square part of a number (`squareParts`),
which is what leaves its square root.

* `pow_multiplicity_dvd`   `b ^ multiplicity b k n ∣ n`
* `squareParts_eq`         `outside * outside * inside = n` -/

namespace DirectionField

-- A power is that of the core library, also where another library has its own.
attribute [local instance (2000)] instPowNat

/-- How many times `b` divides `n`, looking no further than `k` times. -/
def multiplicity (b : Nat) : Nat → Nat → Nat
  | 0, _ => 0
  | k + 1, n => if n % b = 0 then multiplicity b k (n / b) + 1 else 0

/-- The power that a multiplicity counts is a divisor. -/
theorem pow_multiplicity_dvd (b k n : Nat) : b ^ multiplicity b k n ∣ n := by
  induction k generalizing n with
  | zero => simp [multiplicity]
  | succ k ih =>
    unfold multiplicity
    split
    next h =>
      obtain ⟨c, hc⟩ := ih (n / b)
      refine ⟨c, ?_⟩
      rw [Nat.pow_succ, Nat.mul_right_comm, ← hc, Nat.div_mul_cancel (Nat.dvd_of_mod_eq_zero h)]
    next => simp

/-- Decide the lower `k` binary digits of a cube root, from the highest on. -/
def cubeRootFrom (n : Nat) : Nat → Nat → Nat
  | 0, c => c
  | k + 1, c =>
    let c' := c + 2 ^ k
    cubeRootFrom n k (if c' * c' * c' ≤ n then c' else c)

/-- The greatest number whose cube is not above `n`. -/
def cubeRoot (n : Nat) : Nat := cubeRootFrom n (n.log2 / 3 + 1) 0

/-- The number `outside * outside * inside * rest`, whose divisors in `rest` are still to be
    found. -/
structure SquareSearch where
  outside : Nat
  inside : Nat
  rest : Nat

namespace SquareSearch

/-- The number that is taken apart. -/
def value (s : SquareSearch) : Nat := s.outside * s.outside * s.inside * s.rest

/-- Move all powers of a divisor out of the rest. -/
def takeOut (s : SquareSearch) (d : Nat) : SquareSearch :=
  let k := multiplicity d s.rest.log2 s.rest
  if k = 0 then s else ⟨s.outside * d ^ (k / 2), s.inside * d ^ (k % 2), s.rest / d ^ k⟩

/-- What is taken out is not lost. -/
theorem value_takeOut (s : SquareSearch) (d : Nat) : (s.takeOut d).value = s.value := by
  unfold takeOut
  dsimp only
  split
  next => rfl
  next =>
    generalize hk : multiplicity d s.rest.log2 s.rest = k
    obtain ⟨c, hc⟩ : d ^ k ∣ s.rest := hk ▸ pow_multiplicity_dvd ..
    have hrest : d ^ k * (s.rest / d ^ k) = s.rest := Nat.mul_div_cancel' ⟨c, hc⟩
    have hk : d ^ k = d ^ (k / 2) * d ^ (k / 2) * d ^ (k % 2) := by
      have hexp : k / 2 + k / 2 + k % 2 = k := by omega
      rw [← Nat.pow_add, ← Nat.pow_add, hexp]
    simp only [value]
    calc s.outside * d ^ (k / 2) * (s.outside * d ^ (k / 2)) * (s.inside * d ^ (k % 2)) *
          (s.rest / d ^ k)
        = s.outside * s.outside * s.inside *
            (d ^ (k / 2) * d ^ (k / 2) * d ^ (k % 2) * (s.rest / d ^ k)) := by ac_rfl
      _ = s.outside * s.outside * s.inside * s.rest := by rw [← hk, hrest]

/-- Nothing is lost with any number of divisors. -/
theorem value_foldl_takeOut (s : SquareSearch) (ds : List Nat) :
    (ds.foldl takeOut s).value = s.value := by
  induction ds generalizing s with
  | nil => rfl
  | cons d ds ih => rw [List.foldl_cons, ih, value_takeOut]

/-- A rest that is a square or a cube is taken apart too; any other stays inside. -/
def finish (s : SquareSearch) : Nat × Nat :=
  let r := s.rest.sqrt
  let c := cubeRoot s.rest
  if r * r = s.rest then (s.outside * r, s.inside)
  else if c * c * c = s.rest then (s.outside * c, s.inside * c)
  else (s.outside, s.inside * s.rest)

/-- The two parts make up the number. -/
theorem finish_eq (s : SquareSearch) : s.finish.1 * s.finish.1 * s.finish.2 = s.value := by
  unfold finish value
  dsimp only
  split
  next h =>
    generalize s.rest.sqrt = r at h
    rw [← h]
    show s.outside * r * (s.outside * r) * s.inside = s.outside * s.outside * s.inside * (r * r)
    ac_rfl
  next =>
    split
    next h =>
      generalize cubeRoot s.rest = c at h
      rw [← h]
      show s.outside * c * (s.outside * c) * (s.inside * c) =
        s.outside * s.outside * s.inside * (c * c * c)
      ac_rfl
    next => exact (Nat.mul_assoc _ _ _).symm

end SquareSearch

/-- How far divisors are tried. -/
def divisorLimit : Nat := 32768

/-- A positive number as `outside * outside * inside`: a square is recognized, and otherwise the
    squares of all divisors up to the limit are outside. -/
def squareParts (n : Nat) : Nat × Nat :=
  let r := n.sqrt
  if r * r = n then (r, 1)
  else ((List.range' 2 (divisorLimit - 1)).foldl SquareSearch.takeOut ⟨1, 1, n⟩).finish

/-- The two parts make up the number. -/
theorem squareParts_eq (n : Nat) :
    (squareParts n).1 * (squareParts n).1 * (squareParts n).2 = n := by
  unfold squareParts
  dsimp only
  split
  next h => rw [Nat.mul_one, h]
  next =>
    rw [SquareSearch.finish_eq, SquareSearch.value_foldl_takeOut]
    simp [SquareSearch.value]

end DirectionField
