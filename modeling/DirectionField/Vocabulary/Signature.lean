/-! # Signatures

The grammar of equations depends on the names that an equation may use, but only on how many
arguments each takes. A signature is that knowledge: a name may be overloaded, and stands for a
constant if it takes no argument. -/

namespace DirectionField

/-- For each name, the numbers of arguments that it takes, in ascending order. -/
structure Signature where
  arities : String → List Nat

namespace Signature

variable (sig : Signature)

/-- Is the name known at all? -/
def knows (name : String) : Bool := !(sig.arities name).isEmpty

/-- Does some overload of the name take arguments? -/
def isCallable (name : String) : Bool := (sig.arities name).any (0 < ·)

/-- Does the name take exactly `n` arguments? -/
def accepts (name : String) (n : Nat) : Bool := (sig.arities name).contains n

end Signature

end DirectionField
