import NamedTypes.Registry.Declare
import NamedTypes.Session.Term

/-! # Sessions
A **session** works on a registry step by step and keeps what it gets under names: types, type
functions, accessors, namespaces, preludes and cells. Keeping something under a name that is taken
replaces what was there. Types that are shown are numbered in the order in which they are first
shown, so two results with one number are one instance.

A step that fails keeps the effects that it had before, and keeps nothing under a name. -/

namespace NamedTypes

/-- The state of a session. -/
structure Session where
  registry : Registry := {}
  types : Table Ty := {}
  functions : Table Generator := {}
  accessors : Table Accessor := {}
  /-- The numbers of the namespaces by name. -/
  spaces : Table Nat := {}
  preludes : Table Prelude := {}
  /-- The cells that hold a type. -/
  cells : Table Ty := {}
  /-- The identities of the types shown so far. -/
  shown : List Nat := []

/-- A step of a session: without outcome if an access runs out of fuel. -/
abbrev Step (α : Type) : Type := ExceptT AliasError (StateT Session Option) α

namespace Session

/-- The fuel of every access of a session. -/
def fuel : Nat := 1000000000

/-- A step that works on the registry. -/
def onRegistry {α : Type} (action : Action α) : Step α := fun s => do
  let (outcome, registry) ← action s.registry
  return (outcome, { s with registry })

/-- A step that declares something. -/
def declaring {α : Type} (d : Registry.Declaration α) : Step α := onRegistry d.toAction

/-- What a session keeps under a name; a name that it does not have is undefined. -/
def named {α : Type} (table : Session → Table α) (name : String) : Step α := do
  match (table (← get)).get? name with
  | some value => return value
  | none => throw (.undefinedAlias name)

/-! ## Keeping results -/

/-- Keeps a type under a name, if there is one. -/
def saveType (save : Option String) (type : Ty) : Step Unit :=
  match save with
  | some name => modify fun s => { s with types := s.types.insert name type }
  | none => pure ()

/-- Keeps a type or a type function under a name, if there is one. -/
def saveResult (save : Option String) (result : Normalized Generator) : Step Unit :=
  match result, save with
  | .type type, save => saveType save type
  | .function f, some name => modify fun s => { s with functions := s.functions.insert name f }
  | .function _, none => pure ()

/-- Keeps an accessor under a name. -/
def saveAccessor (name : String) (a : Accessor) : Step Accessor := do
  modify fun s => { s with accessors := s.accessors.insert name a }
  return a

/-! ## Showing types -/

/-- The number of a type among those shown. -/
def number (type : Ty) : Step Nat := do
  let shown := (← get).shown
  match shown.idxOf? type.id with
  | some n => return n
  | none =>
    modify fun s => { s with shown := s.shown ++ [type.id] }
    return shown.length

/-! ## Evaluating terms -/

/-- What the names of a session stand for in terms. -/
def scope (s : Session) : Scope where
  types := s.types
  functions := s.functions.keys
  accessors := s.accessors

/-- The type functions of a session in the order of its scope. -/
def frame (s : Session) : Frame := s.functions.entries.map Prod.snd

/-- The expression that a term describes. -/
def evaluate (t : Term) : Step TypeExpr := do
  let s ← get
  onRegistry (ExceptT.mk ((t.body s.scope).run (Registry.handler fuel) s.frame))

/-- The expressions that terms describe, from left to right. -/
def evaluateAll (ts : List Term) : Step (List TypeExpr) := ts.mapM evaluate

/-- The type that an expression describes. -/
def normalizeType (e : TypeExpr) : Step Ty := onRegistry (Action.normalizeType e)

/-- The type or type function that an expression describes. -/
def normalize (e : TypeExpr) : Step (Normalized Generator) := onRegistry (Action.normalize e)

/-- The type that a term describes. -/
def typeOf (t : Term) : Step Ty := do normalizeType (← evaluate t)

/-- The outcome of a step that may fail, as a result of one that does not. -/
def outcome {α : Type} (step : Step α) : Step (Except AliasError α) := fun s => do
  let (outcome, s) ← step s
  return (.ok outcome, s)

/-! ## Starting -/

/-- A new prelude with the primitives under their names. -/
def standardPrelude : Step Prelude :=
  Primitive.all.foldlM (fun prelude p => do
    let type ← onRegistry (Action.newType (.primitive p))
    return prelude.insert p.name type) {}

/-- Keeps a prelude under a name. -/
def savePrelude (name : String) (prelude : Prelude) : Step Unit :=
  modify fun s => { s with preludes := s.preludes.insert name prelude }

/-- Makes the prelude `std`, with which every session starts. -/
def start : Step Unit := do savePrelude "std" (← standardPrelude)

end Session

end NamedTypes
