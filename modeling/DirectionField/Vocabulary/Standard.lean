import DirectionField.Value
import DirectionField.Vocabulary.Basic

/-! # The standard vocabulary

What an equation may use unless a caller says otherwise: powers, logarithms, trigonometric and
hyperbolic functions, the absolute value, and the constants `pi` and `e`. Arguments outside the
domain of a function give a NaN, and a pole gives an infinity. The transcendental functions of a
single number come from a mathematics library, which is a parameter. -/

namespace DirectionField

/-- What an implementation makes of its arguments. -/
abbrev Meaning := List Value → Except Fault Value

/-- The functions of a mathematics library. -/
structure Elementary where
  exp : Float → Float
  ln : Float → Float
  log10 : Float → Float
  pow : Float → Float → Float
  cos : Float → Float
  sin : Float → Float
  tan : Float → Float
  atan : Float → Float
  acos : Float → Float
  asin : Float → Float
  tanh : Float → Float
  cosh : Float → Float
  sinh : Float → Float

/-- The functions of the machine's mathematics library. -/
def Elementary.native : Elementary where
  exp := Float.exp
  ln := Float.log
  log10 := Float.log10
  pow := Float.pow
  cos := Float.cos
  sin := Float.sin
  tan := Float.tan
  atan := Float.atan
  acos := Float.acos
  asin := Float.asin
  tanh := Float.tanh
  cosh := Float.cosh
  sinh := Float.sinh

namespace Meaning

/-- The signal of an implementation that is given a wrong number of arguments. -/
def wrongCount (expected : Nat) (given : List Value) : Fault :=
  .raised .type ("expected " ++ toString expected ++ " argument(s), got " ++ toString given.length)

/-- A real function applied to a complex number; its value is complex and otherwise unknown. -/
def unknown (_ : Complex) : Complex := ⟨0.0 / 0.0, 0.0 / 0.0⟩

/-- A real function of one number. -/
def ofUnary (f : Float → Float) : Meaning
  | [a] => .ok (a.map f unknown)
  | args => .error (wrongCount 1 args)

/-- A real function of two numbers. -/
def ofBinary (f : Float → Float → Float) : Meaning
  | [a, b] => Value.zipWith f (fun z _ => unknown z) a b
  | args => .error (wrongCount 2 args)

/-- The absolute value, which is real also of a complex number. -/
def abs : Meaning
  | [.real b] => .ok (.real (b.map Float.abs))
  | [.complex b] => .ok (.real (b.map Complex.abs))
  | args => .error (wrongCount 1 args)

/-- A constant. -/
def constant (x : Float) : Meaning
  | [] => .ok (.ofFloat x)
  | args => .error (wrongCount 0 args)

end Meaning

namespace Vocabulary

open Meaning

/-- The declarations of the standard vocabulary. -/
def standardDeclarations (lib : Elementary) : List (Declaration Meaning) :=
  [⟨"exp", 1, ofUnary lib.exp, "e raised to a"⟩,
   ⟨"sqrt", 1, ofUnary Float.sqrt, "square root"⟩,
   ⟨"pow", 2, ofBinary lib.pow, "a raised to b"⟩,
   ⟨"log", 1, ofUnary lib.log10, "base-10 logarithm"⟩,
   ⟨"log", 2, ofBinary fun a b => lib.ln a / lib.ln b, "logarithm of a in base b"⟩,
   ⟨"ln", 1, ofUnary lib.ln, "natural logarithm"⟩,
   ⟨"cos", 1, ofUnary lib.cos, "cosine"⟩,
   ⟨"sin", 1, ofUnary lib.sin, "sine"⟩,
   ⟨"tan", 1, ofUnary lib.tan, "tangent"⟩,
   ⟨"atan", 1, ofUnary lib.atan, "inverse tangent"⟩,
   ⟨"acos", 1, ofUnary lib.acos, "inverse cosine"⟩,
   ⟨"asin", 1, ofUnary lib.asin, "inverse sine"⟩,
   ⟨"tanh", 1, ofUnary lib.tanh, "hyperbolic tangent"⟩,
   ⟨"cosh", 1, ofUnary lib.cosh, "hyperbolic cosine"⟩,
   ⟨"sinh", 1, ofUnary lib.sinh, "hyperbolic sine"⟩,
   ⟨"abs", 1, abs, "absolute value"⟩,
   ⟨"pi", 0, constant 3.141592653589793, "ratio of circumference to diameter"⟩,
   ⟨"e", 0, constant 2.718281828459045, "Euler's number"⟩]

/-- The entries of the standard vocabulary. -/
def standardEntries (lib : Elementary) : List (Entry Meaning) :=
  (standardDeclarations lib).map fun d => ⟨d.name, d.arity.toNat, d.meaning, d.description⟩

/-- The standard vocabulary. -/
def standard (lib : Elementary) : Vocabulary Meaning :=
  ⟨standardEntries lib, by simp [standardEntries, standardDeclarations, Entry.key]⟩

end Vocabulary

end DirectionField
