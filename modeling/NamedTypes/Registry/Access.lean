import NamedTypes.Invocation
import NamedTypes.Registry.Basic

/-! # Accesses
Invoking an alias through an accessor. A pending alias is undefined whatever the arguments. A plain
alias takes no arguments; it is compiled on the first access and answers with the same type ever
after. A type function takes one list of parameters or none; its parameters are compiled from left
to right, and then a remembered result or a run of its body answers.

Bodies invoke aliases and call type functions in turn, to any depth and possibly without end, so
accesses take **fuel**: a bound on how many may run inside each other. An access that needs more has
no outcome at all, which is neither a result nor an error. A failure is reported once, by the
outermost access (`tracked`). -/

namespace NamedTypes

/-- A computation on the registry: without outcome if the fuel is too small, and otherwise with a
result or an error and a registry that keeps all effects made before either. -/
abbrev Action (α : Type) : Type := ExceptT AliasError (StateT Registry Option) α

namespace Action

variable {α : Type}

/-- The action without outcome. -/
def noOutcome : Action α := fun _ => none

/-- An action that is decided already. -/
def ofExcept (result : Except AliasError α) : Action α := fun r => some (result, r)

/-- An action that always succeeds. -/
def ofState (f : Registry → α × Registry) : Action α := fun r =>
  some (.ok (f r).1, (f r).2)

/-- Makes a new type. -/
def newType (validator : Validator) : Action Ty := ofState fun r => r.newType validator

/-- The type that an expression describes. -/
def normalizeType (e : TypeExpr) : Action Ty := do
  match ← ofExcept e.compile with
  | .existing type => return type
  | .new validator => newType validator

/-- The type or type function that an expression describes. -/
def normalize : TypeExpr → Action (Normalized Generator)
  | .generator function => return .function function
  | e => do return .type (← normalizeType e)

end Action

/-- What a demand makes of an answer. -/
def Demand.require (demand : Demand) (answer : Normalized Generator) :
    Except AliasError (Normalized Generator) :=
  match demand with
  | .any => .ok answer
  | .type => .type <$> answer.intoType

namespace Registry

/-! ## Reporting -/

/-- Runs one access inside those that are running. If it fails and no other access was running, the
failure is counted and noted for its alias. -/
def tracked {α : Type} (a : Accessor) (run : Action α) : Action α := fun r => do
  let (outcome, after) ← run { r with depth := r.depth + 1 }
  let after := { after with depth := r.depth }
  match outcome with
  | .ok result => return (.ok result, after)
  | .error error =>
    if r.depth = 0 then return (.error error, after.noteFailure a.space a.name .resolutionFailed error)
    else return (.error error, after)

/-! ## Plain aliases -/

/-- The cell in which a plain alias keeps its type. -/
def aliasCell (a : Accessor) : Cell (ExceptT AliasError (StateT Registry Option)) where
  read := do return ((← get).alias? a).bind Alias.type?
  write type := modify fun r => r.modifyAlias a (Alias.keep type)

/-- The type of a plain alias: the one that it keeps, or else the one that its expression describes,
which it keeps from then on. -/
def forcePlain (a : Accessor) (source : TypeExpr) : Action Ty := do
  match ← (aliasCell a).read with
  | some type =>
    modify fun r => (r.count a.space .cacheHits).note a.space .cacheHit [("alias", a.name)]
    return type
  | none =>
    let type ← (aliasCell a).force do
      modify fun r => r.count a.space .normalizations
      Action.normalizeType source
    modify fun r => r.note a.space .aliasResolved [("alias", a.name), ("type", type.describe)]
    return type

/-! ## Type functions -/

/-- Runs a type function on arguments. -/
def apply (handler : Handler (StateT Registry Option)) (function : Generator)
    (arguments : List Ty) : Action (Normalized Generator) := do
  let produced ← ExceptT.mk (function.invoke handler arguments)
  Action.normalize produced

/-- Runs a type function on raw arguments. -/
def call (handler : Handler (StateT Registry Option)) (function : Generator)
    (arguments : List TypeExpr) : Action (Normalized Generator) := do
  let types ← arguments.mapM Action.normalizeType
  apply handler function types

/-- Answers a call of a type function that is an alias, with the result that it remembers or else by
running it. Only calls whose parameters are existing types are looked up and remembered. -/
def invoke (handler : Handler (StateT Registry Option)) (a : Accessor) (function : Generator)
    (memo : Option Memo) (invocation : Invocation Generator) : Action (Normalized Generator) := do
  let arguments ← invocation.parameters.mapM Action.normalizeType
  let fields := [("alias", a.name), ("arity", toString arguments.length)]
  let memo := if invocation.isStable then memo else none
  match memo.bind fun m => m.get? arguments with
  | some result =>
    modify fun r => (r.count a.space .memoHits).note a.space .memoHit fields
    return result
  | none =>
    modify fun r => (r.count a.space .functionInvocations).note a.space .functionInvoked fields
    let result ← apply handler function arguments
    if memo.isSome then modify fun r => r.modifyAlias a (Alias.remember arguments result)
    return result

/-! ## Accesses -/

/-- What an alias comes to when it is invoked with a raw argument list, where the requests of bodies
are performed by `handler`. -/
def resolveAlias (handler : Handler (StateT Registry Option)) (a : Accessor)
    (arguments : List TypeExpr) : Action (Normalized Generator) := do
  match (← get).alias? a with
  | none | some .pending => throw (.undefinedAlias a.name)
  | some (.plain source _) =>
    if arguments.isEmpty then return .type (← forcePlain a source)
    else throw (.takesNoParameters a.name)
  | some (.function function memo) =>
    let invocation ← Action.ofExcept (Invocation.ofArguments arguments)
    invoke handler a function memo invocation

/-- Performs the requests of bodies. Accesses and calls may run inside each other as deeply as the
fuel tells. -/
def handler : Nat → Handler (StateT Registry Option)
  | 0 =>
    { create := fun validator r => some (r.newType validator)
      access := fun _ _ _ => Action.noOutcome
      call := fun _ _ => Action.noOutcome }
  | fuel + 1 =>
    { create := fun validator r => some (r.newType validator)
      access := fun a demand arguments => tracked a do
        let answer ← resolveAlias (handler fuel) a arguments
        Action.ofExcept (demand.require answer)
      call := fun function arguments => call (handler fuel) function arguments }

/-- Invokes an alias with a raw argument list. -/
def access (fuel : Nat) (a : Accessor) (demand : Demand) (arguments : List TypeExpr) :
    Action (Normalized Generator) :=
  (handler fuel).access a demand arguments

end Registry

namespace Accessor

/-- Invokes an alias with a raw argument list. Its answer may be a type function. -/
def resolve (fuel : Nat) (a : Accessor) (arguments : List TypeExpr) :
    Action (Normalized Generator) :=
  Registry.access fuel a .any arguments

/-- Invokes an alias with a raw argument list and requires a type. -/
def call (fuel : Nat) (a : Accessor) (arguments : List TypeExpr) : Action Ty := do
  let answer ← Registry.access fuel a .type arguments
  Action.ofExcept answer.intoType

/-- Accesses an alias without arguments: the type of a plain alias, or what a type function makes of
no arguments. -/
def get (fuel : Nat) (a : Accessor) : Action Ty := a.call fuel []

/-- Applies an alias to a list of parameters. -/
def apply (fuel : Nat) (a : Accessor) (parameters : List TypeExpr) : Action Ty :=
  a.call fuel [.sequence parameters]

/-- Uses an accessor. Arguments are ignored where none are given. -/
def use (fuel : Nat) (kind : AccessKind) (arguments : List TypeExpr) (a : Accessor) :
    Action (Normalized Generator) :=
  match kind with
  | .get => .type <$> a.get fuel
  | .call => .type <$> a.call fuel arguments
  | .apply => .type <$> a.apply fuel arguments
  | .resolve => a.resolve fuel arguments

end Accessor

end NamedTypes
