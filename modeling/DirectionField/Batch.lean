/-! # Batches of numbers

A batch is a rectangular array of any number of axes, given by its shape and by the element at each
index. Batches are combined element by element after broadcasting: shapes are aligned at their last
axes, an axis of extent one is repeated, and a missing axis is one of extent one. A batch without
axes is a single element. -/

namespace DirectionField

/-- A rectangular array. The elements at indices outside the shape are of no account. -/
structure Batch (α : Type) where
  shape : List Nat
  get : List Nat → α

/-- A nested list, from which a batch may be made. -/
inductive Nested (α : Type) where
  | leaf (a : α)
  | node (items : List (Nested α))

namespace Batch

variable {α β γ : Type}

/-- The batch of a single element. -/
def scalar (a : α) : Batch α := ⟨[], fun _ => a⟩

/-- Apply a function to every element. -/
def map (f : α → β) (b : Batch α) : Batch β := ⟨b.shape, fun i => f (b.get i)⟩

/-- The common shape of two shapes that are written from the last axis to the first. -/
def alignReversed : List Nat → List Nat → Option (List Nat)
  | [], t => some t
  | s, [] => some s
  | m :: s, n :: t =>
    if m = n ∨ n = 1 then (alignReversed s t).map (m :: ·)
    else if m = 1 then (alignReversed s t).map (n :: ·)
    else none

/-- The shape to which two shapes broadcast. -/
def commonShape? (s t : List Nat) : Option (List Nat) :=
  (alignReversed s.reverse t.reverse).map List.reverse

/-- The index in an array of the given shape from which an index of a wider array takes its element:
    leading axes fall away, and an axis of extent one has only the index zero. -/
def source (shape index : List Nat) : List Nat :=
  shape.zipWith (fun n i => if n = 1 then 0 else i) (index.drop (index.length - shape.length))

/-- The element that an index of a wider array takes from this one. -/
def pick (b : Batch α) (index : List Nat) : α := b.get (source b.shape index)

/-- The batch repeated to a wider shape. -/
def broadcast (shape : List Nat) (b : Batch α) : Batch α := ⟨shape, b.pick⟩

/-- Combine two batches element by element, if their shapes have a common one. -/
def zipWith? (f : α → β → γ) (a : Batch α) (b : Batch β) : Option (Batch γ) :=
  (commonShape? a.shape b.shape).map fun shape => ⟨shape, fun i => f (a.pick i) (b.pick i)⟩

/-- Two copies of a batch along a new first axis. -/
def twice (b : Batch α) : Batch α := ⟨2 :: b.shape, fun i => b.get i.tail⟩

@[simp] theorem shape_scalar (a : α) : (scalar a).shape = [] := rfl

@[simp] theorem shape_map (f : α → β) (b : Batch α) : (b.map f).shape = b.shape := rfl

@[simp] theorem shape_broadcast (shape : List Nat) (b : Batch α) :
    (b.broadcast shape).shape = shape := rfl

@[simp] theorem shape_twice (b : Batch α) : b.twice.shape = 2 :: b.shape := rfl

@[simp] theorem pick_scalar (a : α) (i : List Nat) : (scalar a).pick i = a := rfl

end Batch

namespace Nested

variable {α : Type}

/-- The shape of a nested list, taken along its first items. -/
def shape : Nested α → List Nat
  | .leaf _ => []
  | .node [] => [0]
  | .node (n :: ns) => (ns.length + 1) :: n.shape

/-- The element at an index. -/
def get? : Nested α → List Nat → Option α
  | .leaf a, _ => some a
  | .node _, [] => none
  | .node items, i :: is => getItem? items i is
where
  /-- The element at an index of the item at a place. -/
  getItem? : List (Nested α) → Nat → List Nat → Option α
    | [], _, _ => none
    | n :: _, 0, is => n.get? is
    | _ :: ns, k + 1, is => getItem? ns k is

/-- A nested list as a batch. -/
def toBatch (default : α) (n : Nested α) : Batch α := ⟨n.shape, fun i => (n.get? i).getD default⟩

end Nested

end DirectionField
