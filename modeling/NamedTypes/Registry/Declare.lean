import NamedTypes.Literal
import NamedTypes.Registry.Access

/-! # Declarations
Names are declared ahead (`declareForward`), bound (`bind`, `bindLiteral`) and looked up (`lookup`).
A declaration uses the slot that its name stands for and makes one only if there is none. Binding
fills the slot in place, so accessors handed out before see the definition. A name that has a
definition keeps it: declaring or binding it again is refused, counted and noted. Failures of
accesses that reading a literal makes have been reported by then and are passed on as they are. -/

namespace NamedTypes.Registry

/-- A computation on the registry that always ends. -/
abbrev Declaration (α : Type) : Type := ExceptT AliasError (StateM Registry) α

/-- A declaration as an action. -/
def Declaration.toAction {α : Type} (d : Declaration α) : Action α := fun r => some (d.run.run r)

/-- Refuses to declare a name. -/
def reject {α : Type} (space : Nat) (name : String) (error : AliasError) : Declaration α := do
  modify fun r => r.noteFailure space name .bindingRejected error
  throw error

/-- Whether the slot of an accessor holds a definition. -/
def isFilled (r : Registry) (a : Accessor) : Bool :=
  match r.alias? a with
  | none | some .pending => false
  | some _ => true

/-- Whether a name has a definition. -/
def isDefined (r : Registry) (space : Nat) (name : String) : Bool :=
  (r.accessor? space name).any r.isFilled

/-- Makes a slot for a name. -/
def insertSlot (space : Nat) (name : String) : Declaration Accessor := do
  let (a, r) := (← get).addSlot space name
  set r
  return a

/-- Declares a name ahead of its definition. A name that is pending stays so. -/
def declareForward (space : Nat) (name : String) : Declaration Accessor := do
  if (← get).isDefined space name then
    reject space name (.nameCollision name)
  else
    match (← get).accessor? space name with
    | some a => return a
    | none =>
      let a ← insertSlot space name
      modify fun r => (r.count space .forwardDeclarations).note space .forwardDeclared
        [("alias", name)]
      return a

/-- The event of binding an expression. -/
def bindingEvent : TypeExpr → Log.Event
  | .generator _ => .functionBound
  | _ => .aliasBound

/-- The configuration of a namespace. -/
def config (r : Registry) (space : Nat) : Config := ((r.space? space).map Namespace.config).getD {}

/-- Binds a name to an expression, which is not compiled yet. -/
def bind (space : Nat) (name : String) (source : TypeExpr) : Declaration Accessor := do
  if (← get).isDefined space name then
    reject space name (.nameCollision name)
  else
    let entry := Alias.ofSource ((← get).config space) source
    let a ← match (← get).accessor? space name with
      | some a => pure a
      | none => insertSlot space name
    -- a slot is filled once
    if (← get).isFilled a then
      reject space name (.nameCollision name)
    else
      modify fun r => ((r.setAlias a entry).count space .bindings).note space (bindingEvent source)
        [("alias", name)]
      return a

/-- The accessor of a declared name. -/
def lookup (space : Nat) (name : String) : Declaration Accessor := do
  match (← get).accessor? space name with
  | some a => return a
  | none => throw (.undefinedAlias name)

/-! ## Literals -/

/-- The type of a name that a namespace declares, by bare access. -/
def declared? (fuel : Nat) (space : Nat) (name : String) : Action (Option Ty) := do
  match (← get).accessor? space name with
  | some a => return some (← a.get fuel)
  | none => return none

/-- Reads a literal with the names of a namespace before those of a prelude. -/
def readLiteral (fuel : Nat) (space : Nat) (literal : Json.Value) (prelude : Prelude) :
    Action TypeExpr :=
  Literal.read (declared? fuel space) prelude literal

/-- Reads a literal and binds a name to the result. -/
def bindLiteral (fuel : Nat) (space : Nat) (name : String) (literal : Json.Value)
    (prelude : Prelude) : Action Accessor := do
  let source ← tryCatch (readLiteral fuel space literal prelude) fun error =>
    if error.isDeclarationError then (reject space name error : Declaration TypeExpr).toAction
    else throw error
  (bind space name source).toAction

end NamedTypes.Registry
