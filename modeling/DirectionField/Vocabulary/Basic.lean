import DirectionField.Number.Integer
import DirectionField.Text.Blank
import DirectionField.Vocabulary.Signature

/-! # Vocabularies

A vocabulary gives a meaning to the names that an equation may use. A name may be declared several
times with different numbers of arguments, and the number of arguments of a call picks the
declaration. What a meaning is does not matter here. -/

namespace DirectionField

/-- A request to give `name` a meaning for calls with `arity` arguments. -/
structure Declaration (α : Type) where
  name : String
  arity : Int
  meaning : α
  description : String

/-- A meaning of a name. -/
structure Entry (α : Type) where
  name : String
  arity : Nat
  meaning : α
  description : String

namespace Entry

variable {α : Type}

/-- What tells one entry of a vocabulary from another. -/
def key (e : Entry α) : String × Nat := (e.name, e.arity)

/-- Is the entry a constant? -/
def isConstant (e : Entry α) : Bool := e.arity = 0

end Entry

/-- Why a declaration is refused. -/
inductive VocabularyError where
  | duplicate (name : String) (arity : Nat)
  | negativeArity (name : String)
deriving Repr, DecidableEq

/-- The wording of a refusal, or the fault that it takes to find it. -/
def VocabularyError.message : VocabularyError → Except Fault String
  | .duplicate name arity => do
    let arity ← NumberText.integer arity
    return "duplicate registry entry " ++ name ++ "/" ++ arity
  | .negativeArity name => .ok ("negative arity for " ++ name)

/-- Entries in the order of their declaration, no two with the same key. -/
structure Vocabulary (α : Type) where
  entries : List (Entry α)
  keys_nodup : (entries.map Entry.key).Nodup

namespace Vocabulary

variable {α : Type}

/-- The vocabulary without entries. -/
def empty : Vocabulary α := ⟨[], by simp⟩

/-- Add a declaration behind the others. -/
def declare (v : Vocabulary α) (d : Declaration α) : Except VocabularyError (Vocabulary α) :=
  match d.arity with
  | .negSucc _ => .error (.negativeArity d.name)
  | .ofNat n =>
    if h : (d.name, n) ∈ v.entries.map Entry.key then .error (.duplicate d.name n)
    else
      .ok ⟨v.entries ++ [⟨d.name, n, d.meaning, d.description⟩], by
        rw [List.map_append, List.nodup_append]
        refine ⟨v.keys_nodup, by simp, ?_⟩
        rintro k hk _ hk' rfl
        simp only [List.map_cons, List.map_nil, List.mem_singleton, Entry.key] at hk'
        exact h (hk' ▸ hk)⟩

/-- The vocabulary of a list of declarations, or the first one that is refused. -/
def ofDeclarations (ds : List (Declaration α)) : Except VocabularyError (Vocabulary α) :=
  ds.foldlM declare empty

/-- The number of entries. -/
def size (v : Vocabulary α) : Nat := v.entries.length

/-- The names, each once, in the order of their first declarations. -/
def names (v : Vocabulary α) : List String := (v.entries.map Entry.name).eraseDups

/-- The numbers of arguments that a name takes, in ascending order. -/
def arities (v : Vocabulary α) (name : String) : List Nat :=
  ((v.entries.filter (·.name = name)).map Entry.arity).mergeSort

/-- The entry for calls of `name` with `arity` arguments. -/
def resolve? (v : Vocabulary α) (name : String) (arity : Nat) : Option (Entry α) :=
  v.entries.find? (·.key = (name, arity))

/-- The entry for calls of `name` with `arity` arguments; for a negative number there is none. -/
def entry? (v : Vocabulary α) (name : String) (arity : Int) : Option (Entry α) :=
  if arity < 0 then none else v.resolve? name arity.toNat

/-- What the grammar of equations asks of a vocabulary. -/
def signature (v : Vocabulary α) : Signature := ⟨v.arities⟩

/-- The names of the parameters of a call: `a`, `b`, `a2`, `a3` and so on. -/
def parameterName : Nat → String
  | 0 => "a"
  | 1 => "b"
  | n => "a" ++ toString n

/-- A call of an entry with named parameters; a constant is called by its name alone. -/
def callShown (e : Entry α) : String :=
  let parameters := (List.range e.arity).map parameterName
  if e.isConstant then e.name else e.name ++ "(" ++ ", ".intercalate parameters ++ ")"

/-- An entry as help text shows it: a call with named parameters, and the description if there is
    one. -/
def helpLine (e : Entry α) : String := Text.trimEnd (callShown e ++ "  " ++ e.description)

/-- The help text: a line for each entry, by name and then by number of arguments. -/
def help (v : Vocabulary α) : List String :=
  v.names.flatMap fun name => ((v.arities name).filterMap (v.resolve? name)).map helpLine

end Vocabulary

end DirectionField
