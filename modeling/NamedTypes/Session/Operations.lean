import NamedTypes.Config.File
import NamedTypes.Session.Basic
import NamedTypes.Text.Diagnostic

/-! # Steps of sessions
The steps that a session can take, each with what it answers. Terms of a step are evaluated before
the step itself, on their own. -/

namespace NamedTypes.Session

/-! ## Namespaces -/

/-- Makes a namespace and keeps it. -/
def makeSpace (space name : String) (config : Except AliasError Config) : Step Namespace := do
  let config ← onRegistry (Action.ofExcept config)
  let number ← onRegistry (Action.ofState fun r => r.addSpace name config)
  modify fun s => { s with spaces := s.spaces.insert space number }
  return { name, config }

/-- The namespace that a session keeps under a name. -/
def namespaceNamed? (s : Session) (space : String) : Option Namespace :=
  (s.spaces.get? space).bind s.registry.space?

/-- The namespace that a session keeps under a name. -/
def namespaceNamed (space : String) : Step Namespace := do
  match (← get).namespaceNamed? space with
  | some n => return n
  | none => throw (.undefinedAlias space)

/-- Declares a name ahead and keeps its accessor. -/
def declareForward (space name keep : String) : Step Accessor := do
  let number ← named spaces space
  saveAccessor keep (← declaring (Registry.declareForward number name))

/-- Binds a name to what a term describes and keeps its accessor. -/
def bind (space name : String) (t : Term) (keep : String) : Step Accessor := do
  let number ← named spaces space
  let source ← evaluate t
  saveAccessor keep (← declaring (Registry.bind number name source))

/-- Binds a name to a literal and keeps its accessor. -/
def bindLiteral (space name : String) (literal : Json.Value) (prelude keep : String) :
    Step Accessor := do
  let number ← named spaces space
  let prelude ← named preludes prelude
  saveAccessor keep (← onRegistry (Registry.bindLiteral fuel number name literal prelude))

/-- Looks a name up and keeps its accessor. -/
def lookup (space name keep : String) : Step Accessor := do
  let number ← named spaces space
  saveAccessor keep (← declaring (Registry.lookup number name))

/-- The shape of an expression and what it comes to, which is kept. -/
def normalized (save : Option String) (e : TypeExpr) :
    Step (String × Except AliasError (Normalized Generator)) := do
  let result ← outcome (normalize e)
  if let .ok result := result then saveResult save result
  return (e.shape, result)

/-- Reads a literal with the names of a namespace, and compiles it. -/
def readLiteral (space : String) (literal : Json.Value) (prelude : String)
    (save : Option String) : Step (String × Except AliasError (Normalized Generator)) := do
  let number ← named spaces space
  let prelude ← named preludes prelude
  normalized save (← onRegistry (Registry.readLiteral fuel number literal prelude))

/-! ## Accesses -/

/-- Uses an accessor; the result is kept. -/
def access (kind : AccessKind) (accessor : String) (arguments : List Term)
    (save : Option String) : Step (Normalized Generator) := do
  let a ← named accessors accessor
  let arguments ← evaluateAll arguments
  let result ← onRegistry (a.use fuel kind arguments)
  saveResult save result
  return result

/-! ## Expressions, types and type functions -/

/-- Compiles what a term describes; the result is kept. -/
def normalizeTerm (t : Term) (save : Option String) : Step (Normalized Generator) := do
  let result ← normalize (← evaluate t)
  saveResult save result
  return result

/-- Compiles what a term describes into a type; the result is kept. -/
def normalizeTermType (t : Term) (save : Option String) : Step (Normalized Generator) := do
  let type ← typeOf t
  saveType save type
  return .type type

/-- Calls a type function with raw arguments; the result is kept. -/
def callFunction (function : String) (arguments : List Term) (save : Option String) :
    Step (Normalized Generator) := do
  let f ← named functions function
  let arguments ← evaluateAll arguments
  let result ← onRegistry (Registry.call (Registry.handler fuel) f arguments)
  saveResult save result
  return result

/-- Runs a type function on types; the result is kept. -/
def applyFunction (function : String) (arguments : List Term) (save : Option String) :
    Step (Normalized Generator) := do
  let f ← named functions function
  let arguments ← arguments.mapM typeOf
  let result ← onRegistry (Registry.apply (Registry.handler fuel) f arguments)
  saveResult save result
  return result

/-- Runs the body of the type function that a term describes; the result stays raw. -/
def invokeGenerator (t : Term) (arguments : List Term) : Step TypeExpr := do
  match ← evaluate t with
  | .generator f =>
    let arguments ← arguments.mapM typeOf
    onRegistry (ExceptT.mk (f.invoke (Registry.handler fuel) arguments))
  | e => throw (.usage s!"expected a generator, got a {e.shape}")

/-- The call that terms describe as raw arguments. -/
def invocation (arguments : List Term) : Step (Invocation Generator) := do
  onRegistry (Action.ofExcept (Invocation.ofArguments (← evaluateAll arguments)))

/-! ## Preludes -/

/-- Makes a prelude, with or without the primitives, and keeps it. -/
def makePrelude (name : String) (isEmpty : Bool) : Step Prelude := do
  let prelude ← if isEmpty then pure {} else standardPrelude
  savePrelude name prelude
  return prelude

/-- Registers a type in a prelude. -/
def register (prelude name : String) (t : Term) : Step Prelude := do
  let type ← typeOf t
  let extended := (← named preludes prelude).insert name type
  savePrelude prelude extended
  return extended

/-- The type of a name in a prelude, which is kept. -/
def preludeType (prelude name : String) (save : Option String) : Step (Option Ty) := do
  let found := (← named preludes prelude).get? name
  if let some type := found then saveType save type
  return found

/-- Reads a literal with the names of a prelude only, and compiles it. -/
def readPrelude (prelude : String) (literal : Json.Value) (save : Option String) :
    Step (String × Except AliasError (Normalized Generator)) := do
  let prelude ← named preludes prelude
  normalized save (← onRegistry (Action.ofExcept (prelude.read literal)))

/-! ## Cells -/

/-- A cell of the session. -/
def cell (name : String) : Cell (ExceptT AliasError (StateT Session Option)) where
  read := do return (← get).cells.get? name
  write type := modify fun s => { s with cells := s.cells.insert name type }

/-- What forcing a cell came to. -/
structure Forced where
  /-- Whether the producer was run. -/
  ran : Bool
  /-- Whether the cell holds a type now. -/
  resolved : Bool
  /-- The answer of the cell. -/
  result : Except AliasError Ty

/-- Forces a cell with what a term describes; the answer is kept. With an inner term, the producer
forces the same cell with that first. -/
def force (name : String) (t : Term) (inner : Option Term) (save : Option String) :
    Step Forced := do
  let inner ← inner.mapM typeOf
  let held ← (cell name).read
  let result ← outcome <| (cell name).force do
    if let some type := inner then
      let _ ← (cell name).force (pure type)
    typeOf t
  if let .ok type := result then saveType save type
  return ⟨held.isNone, ((← get).cells.get? name).isSome, result⟩

end NamedTypes.Session
