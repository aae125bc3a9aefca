import DirectionField.Expr.Basic
import DirectionField.Form.Scalar
import DirectionField.Number.Transcendental

/-! # Symbolic forms

A symbolic form is an expression as it is shown to a reader: sums are gathered and put in order,
factors are gathered into powers, and well-known values are worked out. The constructors may be used
freely; `Form.add`, `Form.mul`, `Form.pow` and `Form.apply` give forms in which

* a term of a sum is no sum, and no two terms are multiples of the same form,
* a factor of a product is no product, no two factors are powers of the same form, and at most one is
  a number, which comes first.

A function of a decimal is worked out with some bits more than a decimal has, and rounded twice. -/

namespace DirectionField

-- A power is that of the core library, also where another library has its own.
attribute [local instance (2000)] instPowNat

/-- The real numbers that have a name of their own, in ascending order. -/
inductive Constant where
  | e
  | pi
deriving DecidableEq

/-- The functions that have a symbol of their own. An exponential is a power of `e`, and a root is a
    power too. -/
inductive Function where
  | log
  | sin
  | cos
  | tan
  | sinh
  | cosh
  | tanh
  | asin
  | acos
  | atan
  | abs
deriving DecidableEq

/-- A symbolic form. -/
inductive Form where
  | number (s : Scalar)
  | constant (c : Constant)
  | imaginaryUnit
  /-- A number of which nothing more is known than the bounds. -/
  | between (low high : Scalar)
  | var (v : Variable)
  | apply (f : Function) (argument : Form)
  | power (base exponent : Form)
  | product (left right : Form)
  | sum (left right : Form)
deriving DecidableEq

namespace Constant

/-- The value of a constant. -/
def value : Constant → Float
  | .e => 2.718281828459045
  | .pi => 3.141592653589793

end Constant

namespace Function

/-- The approximate value at a number. -/
def value : Function → Float → Float
  | .log => Float.log
  | .sin => Float.sin
  | .cos => Float.cos
  | .tan => Float.tan
  | .sinh => Float.sinh
  | .cosh => Float.cosh
  | .tanh => Float.tanh
  | .asin => Float.asin
  | .acos => Float.acos
  | .atan => Float.atan
  | .abs => Float.abs

/-- How many bits a function of a decimal is worked out with. -/
def precision : Nat := 57

/-- The value at a decimal, where there is a real one. -/
def decimal? (f : Function) (x : Binary) : Option Binary :=
  match f with
  | .log => x.log? .nearest precision
  | .sin => x.sin? .nearest precision
  | .cos => x.cos? .nearest precision
  | .tan => x.tan? .nearest precision
  | .sinh => x.sinh? .nearest precision
  | .cosh => x.cosh? .nearest precision
  | .tanh => some (x.tanh .nearest precision)
  | .asin => x.asin? .nearest precision
  | .acos => x.acos? .nearest precision
  | .atan => some (x.atan .nearest precision)
  | .abs => some x.abs

end Function

namespace Form

instance {n : Nat} : OfNat Form n := ⟨.number (.exact n)⟩

/-- The approximate value of a real number without a variable. -/
def value? : Form → Option Float
  | .number s => some s.toFloat
  | .constant c => some c.value
  | .imaginaryUnit | .between .. | .var _ => none
  | .apply f a => a.value?.map f.value
  | .power b e => do some ((← b.value?).pow (← e.value?))
  | .product l r => do some ((← l.value?) * (← r.value?))
  | .sum l r => do some ((← l.value?) + (← r.value?))

/-! ## Sums -/

/-- The terms of a form. -/
def terms : Form → List Form
  | .sum l r => l.terms ++ r.terms
  | f => [f]

/-- A term as a multiple of what is left without its number. -/
def multiple : Form → Scalar × Form
  | .number s => (s, 1)
  | .product (.number s) r => (s, r)
  | f => (1, f)

/-- A multiple of a form without a number. -/
def scaled (s : Scalar) (f : Form) : Form :=
  if s = 0 then 0 else if f = 1 then .number s else if s = 1 then f else .product (.number s) f

/-- Add a multiple to multiples of different forms. -/
def gatherTerm (found : List (Scalar × Form)) (t : Scalar × Form) : List (Scalar × Form) :=
  if found.any (·.2 = t.2) then
    found.map fun (s, f) => if f = t.2 then (s.add t.1, f) else (s, f)
  else found ++ [t]

/-- The exponent of a variable among the factors of a term. -/
def degree (v : Variable) : Form → Float
  | .var w => if v = w then 1.0 else 0.0
  | .power (.var w) (.number s) => if v = w then s.toFloat else 0.0
  | .product l r => degree v l + degree v r
  | _ => 0.0

/-- Is it a multiple of the imaginary unit? -/
def isImaginary : Form → Bool
  | .imaginaryUnit => true
  | .product _ f => f.isImaginary
  | _ => false

/-- Does one term come before another? Higher powers of `x` come first, then higher powers of `y`,
    and numbers come last: the real ones in ascending order, then the imaginary ones. -/
def termBefore (a b : Form) : Bool :=
  match a.value?, b.value? with
  | some u, some v => u ≤ v
  | some _, none => b.isImaginary
  | none, some _ => !a.isImaginary
  | none, none =>
    let ax := degree .x a
    let bx := degree .x b
    ax > bx || (ax == bx && degree .y a ≥ degree .y b)

/-- Is it a positive number? -/
def isPositiveNumber : Form → Bool
  | .number s => s.isFinite && !s.isNegative
  | .constant _ => true
  | _ => false

/-- Is it a negative multiple of a form that is no product? -/
def isNegativeMultiple : Form → Bool
  | .product (.number _) (.product ..) => false
  | .product (.number s) _ => s.isNegative
  | _ => false

/-- Terms in order. A positive number comes before a negative multiple if there is nothing else, so
    that the sum does not start with a sign. -/
def orderTerms (ts : List Form) : List Form :=
  match ts.mergeSort termBefore with
  | [a, b] => if a.isNegativeMultiple && b.isPositiveNumber then [b, a] else [a, b]
  | ts => ts

/-- The sum of terms that are no sums. A number that is not finite swallows the other terms. -/
def ofTerms (ts : List Form) : Form :=
  let found := (ts.map multiple).foldl gatherTerm []
  let kept := (found.filter (·.1 ≠ 0)).map fun (s, f) => scaled s f
  match kept.find? (fun | .number s => !s.isFinite | _ => false) with
  | some swallowing => swallowing
  | none =>
    match (orderTerms kept).reverse with
    | [] => 0
    | last :: others => others.foldl (fun sum t => .sum t sum) last

/-- The sum of two forms. -/
def add (a b : Form) : Form := ofTerms (a.terms ++ b.terms)

/-! ## Products -/

/-- The factors of a form. -/
def factors : Form → List Form
  | .product l r => l.factors ++ r.factors
  | f => [f]

/-- A factor as a power. -/
def asPower : Form → Form × Form
  | .power b e => (b, e)
  | f => (f, 1)

/-- Multiply powers of different forms by a power. -/
def gatherFactor (found : List (Form × Form)) (p : Form × Form) : List (Form × Form) :=
  if found.any (·.1 = p.1) then
    found.map fun (b, e) => if b = p.1 then (b, e.add p.2) else (b, e)
  else found ++ [p]

/-- The square root of a positive fraction. Its square part is taken out, and its denominator is
    made one. -/
def squareRoot (q : Rat) : Form :=
  let (outside, inside) := squareParts (q.num.natAbs * q.den)
  let multiple : Scalar := .exact (outside / q.den)
  if inside = 1 then .number multiple
  else scaled multiple (.power (.number (.exact inside)) (.number (.exact (1 / 2))))

/-- How many binary digits a power may have that is worked out. -/
def powerBits : Nat := 65536

/-- The limit of the powers of a number. -/
def powerLimit : Scalar → Scalar
  | .pole => .pole
  | .infinite true | .undefined => .undefined
  | s =>
    if s.abs = 1 then .undefined
    else if !s.isAboveOne then 0
    else if s.isNegative then .pole
    else .infinite false

/-- A power that is worked out with decimals, if its base is above zero. -/
def decimalPower (s t : Scalar) : Form :=
  match if s.isNegative then none else s.toBinary.power? Scalar.precision t.toBinary with
  | some x => .number (.ofBinary x)
  | none => .power (.number s) (.number t)

/-- A power of a number. -/
def numberPower (s t : Scalar) : Form :=
  match s, t with
  | .undefined, _ | _, .undefined | _, .pole => .number .undefined
  | s, .infinite negative => .number (powerLimit (if negative then s.inv else s))
  | .exact p, .exact q =>
    if p = 1 then 1
    else if p = 0 then if q < 0 then .number .pole else 0
    else if p = -1 ∧ q.den = 1 then .number (.exact (if q.num % 2 = 0 then 1 else -1))
    else if q.den = 1 ∧ q.num.natAbs * (max p.num.natAbs p.den).log2 ≤ powerBits then
      .number (.exact (p ^ q.num))
    else if q = 1 / 2 ∧ 0 < p then squareRoot p
    else .power (.number s) (.number t)
  | .exact p, .decimal y =>
    if p = 1 then 1
    else if p = 0 then if y.negative then .number .pole else 0
    else decimalPower s t
  | .decimal x, t =>
    match t.toInt? with
    | some n => .number (.ofBinary (x.zpow Scalar.precision n))
    | none => decimalPower s t
  | .infinite false, t | .pole, t => if t.isNegative then 0 else .number s
  | .infinite true, t => if t.isNegative then 0 else .power (.number s) (.number t)

/-- A power of a form that is no product and no power. -/
def powerOf (b e : Form) : Form :=
  if e = 0 then 1
  else if e = 1 then b
  else if b = .number .undefined ∨ e = .number .undefined then .number .undefined
  else
    match b, e with
    | .number s, .number t => numberPower s t
    | .number (.infinite false), .constant _ => b
    | .number (.exact q), e =>
      if q = 1 then 1
      else match e with
        | .constant _ => if q = 0 then 0 else .power b e
        | e => .power b e
    | .constant _, .number .pole => .number .undefined
    | .constant _, .number (.infinite negative) => if negative then 0 else e
    | .constant .e, .number (.decimal x) =>
      -- cut off before it is rounded, unlike the other functions
      match x.exp? .towardZero Function.precision with
      | some y => .number (.ofBinary y)
      | none => .power b e
    | b, e => .power b e

/-- The rank of a factor. -/
def rank : Form → Nat
  | .number _ => 0
  | .constant .e => 1
  | .imaginaryUnit => 2
  | .constant .pi => 3
  | .var .x => 4
  | .var .y => 5
  | .power (.constant .e) _ => 6
  | .apply .. => 7
  | .power b _ => rank b
  | .between .. => 8
  | .product .. => 9
  | .sum .. => 10

/-- The product of a number and the signs of real factors without a variable. -/
def withSigns (s : Scalar) (fs : List Form) : Scalar :=
  fs.foldl (fun s f => if f.value?.any (· < 0.0) then s.neg else s) s

/-- The product of a number and other factors in order. A number that is not finite swallows the
    real factors without a variable, of which only the sign is left, and an undefined one swallows
    all. -/
def ofFactors (s : Scalar) (fs : List Form) : Form :=
  let (s, fs) := if s.isFinite then (s, fs)
    else (withSigns s fs, fs.filter fun f => s ≠ .undefined && f.value?.isNone)
  match (fs.mergeSort fun a b => a.rank ≤ b.rank).reverse with
  | [] => .number s
  | last :: others => scaled s (others.foldl (fun product f => .product f product) last)

/-- The product of the numbers among factors, and the other factors. -/
def takeNumbers (fs : List Form) : Scalar × List Form :=
  fs.foldr (fun f (s, others) =>
    match f with
    | .number t => (s.mul t, others)
    | f => (s, f :: others)) (1, [])

/-- The product of two forms. A fraction is multiplied into every term of a sum. -/
def mul (a b : Form) : Form :=
  let (s, others) := takeNumbers (a.factors ++ b.factors)
  let gathered := (others.map asPower).foldl gatherFactor []
  -- a gathered power of a number may be a number again, as in `sqrt(2) * sqrt(2)`
  let (t, others) := takeNumbers ((gathered.map fun (b, e) => powerOf b e).flatMap factors)
  match s.mul t, others with
  | .exact q, [.sum l r] =>
    if q = 0 then 0
    else ofTerms ((l.terms ++ r.terms).map fun t => scaled (t.multiple.1.mul (.exact q)) t.multiple.2)
  | s, others => ofFactors s others

/-- The form with its sign changed. -/
def neg (a : Form) : Form := mul (.number (.exact (-1))) a

/-- A power of a form. An integer power is taken of every factor of a product, and multiplies the
    exponent of a power. -/
def pow : Form → Form → Form
  | .product l r, e =>
    match e with
    | .number (.exact q) =>
      if q.den = 1 then mul (pow l e) (pow r e) else powerOf (.product l r) e
    | _ => powerOf (.product l r) e
  | .power b e', e =>
    match e with
    | .number (.exact q) => if q.den = 1 then powerOf b (mul e' e) else powerOf (.power b e') e
    | _ => powerOf (.power b e') e
  | b, e => powerOf b e

/-- The quotient of two forms. -/
def div : Form → Form → Form
  | .number s, .number t => .number (s.div t)
  | a, b => mul a (pow b (.number (.exact (-1))))

/-! ## Functions -/

/-- Half, or another part, of the half turn. -/
def partOfPi (q : Rat) : Form := .product (.number (.exact q)) (.constant .pi)

/-- The limit of a function at infinity. -/
def atInfinity (f : Function) (negative : Bool) : Form :=
  let infinity : Form := .number (.infinite negative)
  let sign : Rat := if negative then -1 else 1
  match f with
  | .log | .cosh | .abs => .number (.infinite false)
  | .sinh => infinity
  | .tanh => .number (.exact sign)
  | .atan => partOfPi (sign / 2)
  | .sin | .cos => .between (.exact (-1)) 1
  | .tan => .between (.infinite true) (.infinite false)
  | .asin => .product (.number (.infinite !negative)) .imaginaryUnit
  | .acos => .product infinity .imaginaryUnit

/-- The value of a function at a place where it has a simple one. -/
def special? : Function → Form → Option Form
  | _, .number .undefined => some (.number .undefined)
  | f, .number (.infinite negative) => some (atInfinity f negative)
  | f, .number .pole =>
    match f with
    | .log | .asin | .acos => some (.number .pole)
    | .abs => some (.number (.infinite false))
    | .atan => none
    | _ => some (.number .undefined)
  | .abs, .number s => some (.number s.abs)
  | .abs, .constant c => some (.constant c)
  | .log, .constant .e => some 1
  | .log, .power (.constant .e) a => some a
  | .sin, .constant .pi | .tan, .constant .pi => some 0
  | .cos, .constant .pi => some (.number (.exact (-1)))
  | f, a =>
    if a = 0 then
      match f with
      | .sin | .tan | .sinh | .tanh | .asin | .atan | .abs => some 0
      | .cos | .cosh => some 1
      | .acos => some (partOfPi (1 / 2))
      | .log => some (.number .pole)
    else if a = 1 then
      match f with
      | .log | .acos => some 0
      | .asin => some (partOfPi (1 / 2))
      | .atan => some (partOfPi (1 / 4))
      | _ => none
    else none

/-- The value of a function at a decimal that is beyond its real domain: the angle whose sine or
    cosine is above one has an imaginary part. -/
def complexValue? (f : Function) (x : Binary) : Option Form := do
  let height ← x.abs.acosh? Function.precision
  let imaginary (negative : Bool) : Form :=
    .product (.number (if negative then (Scalar.ofBinary height).neg else .ofBinary height))
      .imaginaryUnit
  let real (turns : Binary) : Form := .number (.ofBinary turns)
  let quarter := Binary.quarterTurn .nearest Function.precision
  match f, x.negative with
  | .asin, false => some (add (real quarter) (imaginary true))
  | .asin, true => some (add (real quarter.neg) (imaginary false))
  | .acos, false => some (imaginary false)
  | .acos, true => some (add (real (quarter.scaled 1)) (imaginary true))
  | _, _ => none

/-- A function applied to a form. It is worked out for a decimal. -/
def applied (f : Function) (a : Form) : Form :=
  match special? f a, a with
  | some v, _ => v
  | none, .number (.decimal x) =>
    match f.decimal? x with
    | some y => .number (.ofBinary y)
    | none => (complexValue? f x).getD (.apply f a)
  | none, a => .apply f a

/-- The logarithm to any base. Whole powers of an integer base are taken out of an integer. -/
def logarithm (a b : Form) : Form :=
  if b = 1 then .number (if a = 1 then .undefined else .pole)
  else if b = .constant .e then applied .log a
  else
    let quotient := div (applied .log a) (applied .log b)
    match a, b with
    | .number (.exact p), .number (.exact q) =>
      if p.den = 1 ∧ q.den = 1 ∧ 0 < p ∧ 2 ≤ q then
        let n := p.num.natAbs
        let m := q.num.natAbs
        let k := multiplicity m n.log2 n
        if k = 0 then quotient
        else
          add (.number (.exact k))
            (div (applied .log (.number (.exact (n / m ^ k : Nat)))) (applied .log b))
      else quotient
    | _, _ => quotient

end Form

end DirectionField
