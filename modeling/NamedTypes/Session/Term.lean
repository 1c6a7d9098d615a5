import NamedTypes.Body

/-! # Terms
A small language for writing type expressions down: primitives, names of types, functions and
accessors, the combinators, and type functions that are terms themselves. `Term.evaluate` gives a
term its meaning as a part of a body (`Part`), and `Term.body` as a whole one. Terms are evaluated
from left to right and the first error ends the evaluation; every evaluation makes new types, except
where a name, an argument or an access supplies one. The term of a type function is evaluated anew
for each call, with the names that were in scope where it was written. -/

namespace NamedTypes

/-- Which values a custom validator accepts. -/
inductive CustomRule
  /-- Even integers within 64 bits with sign. -/
  | even
  /-- Every value. -/
  | always
  /-- No value. -/
  | never
deriving DecidableEq, Repr

/-- Whether a custom validator accepts a value. -/
def CustomRule.accepts : CustomRule → Json.Value → Bool
  | .even, .number (.int i) => i ≤ 9223372036854775807 && i % 2 == 0
  | .even, _ => false
  | .always, _ => true
  | .never, _ => false

/-- What a nest of expressions is made of. -/
inductive NestKind
  /-- Sequences of one item. -/
  | sequence
  /-- Records of one field. -/
  | record
  /-- Lists. -/
  | list
deriving DecidableEq, Repr

/-- A type expression as it is written down. -/
inductive Term
  | primitive (kind : Primitive)
  | custom (label : String) (rule : CustomRule)
  | typeNamed (name : String)
  | functionNamed (name : String)
  | sequence (items : List Term)
  | record (fields : List (String × Term))
  | data (value : Json.Value)
  /-- A type function. -/
  | generator (body : Term)
  | listOf (element : Term)
  | tupleOf (items : List Term)
  | recordOf (fields : List (String × Term))
  | union (left right : Term)
  /-- A term wrapped a number of times. -/
  | nest (kind : NestKind) (count : Nat) (inner : Term)
  /-- A sequence of separate evaluations of one term. -/
  | copies (item : Term) (count : Nat)
  | fail (error : AliasError)
  | access (kind : AccessKind) (accessor : String) (arguments : List Term)
  /-- An argument of the type function whose body encloses the term, or of the one that encloses
  that one, `level` times; `fallback` where there is no such argument. -/
  | argument (index level : Nat) (fallback : Option Term)
  /-- The sequence of the arguments from an index on. -/
  | argumentsFrom (index : Nat)
  /-- The choice whose number is the number of arguments; the last one for all greater numbers. -/
  | byArity (choices : List Term)

/-- What the names in a term stand for. -/
structure Scope where
  /-- The types by name. -/
  types : Table Ty
  /-- The names of the type functions, in the order of the frame. -/
  functions : List String
  /-- The accessors by name. -/
  accessors : Table Accessor
  /-- The arguments of the enclosing type functions, the innermost first. -/
  arguments : List (List Ty) := []

namespace Scope

/-- The scope inside the body of a type function that was given arguments. -/
def enter (scope : Scope) (arguments : List Ty) : Scope :=
  { scope with arguments := arguments :: scope.arguments }

/-- The arguments of the innermost type function. -/
def innermost (scope : Scope) : List Ty := scope.arguments.headD []

/-- The positions of all type functions in scope. -/
def positions (scope : Scope) : List Nat := List.range scope.functions.length

end Scope

/-! ## Parts of bodies -/

/-- A part of a body that comes to an `α`: given what follows, a body. -/
def Part (α : Type) : Type := (α → Body) → Body

namespace Part

variable {α : Type}

instance : Monad Part where
  pure result next := next result
  bind part f next := part fun result => f result next

/-- The part that ends the body with an error. -/
def fail (error : AliasError) : Part α := fun _ => .fail error

/-- The part that makes one new type. -/
def newType (validator : Validator) : Part Ty := .create validator

/-- The part that invokes an alias and passes on any error. -/
def invoke (accessor : Accessor) (demand : Demand) (arguments : List (Expr Nat)) :
    Part (Normalized Nat) := fun next =>
  .access accessor demand arguments fun
    | .ok answer => next answer
    | .error error => .fail error

/-- The part that builds a type function. -/
def build (captured : List Nat) (function : List Ty → Body) : Part (Expr Nat) := fun next =>
  .build captured function fun position => next (.generator position)

/-- The type that an expression describes. -/
def normalizeType (e : Expr Nat) : Part Ty :=
  match e.compile with
  | .ok (.existing type) => pure type
  | .ok (.new validator) => newType validator
  | .error error => fail error

/-- The results of a part that is repeated. -/
def replicate (part : Part α) : Nat → Part (List α)
  | 0 => pure []
  | count + 1 => do
    let first ← part
    let rest ← replicate part count
    return first :: rest

/-! ## Parts that come to expressions -/

/-- The expression of a name. -/
def ofName (name : String) : Option (Expr Nat) → Part (Expr Nat)
  | some e => pure e
  | none => fail (.undefinedAlias name)

/-- A new type with the given validator, as an expression. -/
def new (validator : Validator) : Part (Expr Nat) := do return .leaf (← newType validator)

/-- One more layer of a nest. -/
def wrap (kind : NestKind) (e : Expr Nat) : Part (Expr Nat) :=
  match kind with
  | .sequence => pure (.sequence [e])
  | .record => pure (.record [("k", e)])
  | .list => do new (.list (← normalizeType e).validator)

/-- Several layers of a nest. -/
def nest (kind : NestKind) : Nat → Expr Nat → Part (Expr Nat)
  | 0, e => pure e
  | count + 1, e => do nest kind count (← wrap kind e)

/-- The use of an accessor. -/
def access (kind : AccessKind) (a : Accessor) (arguments : List (Expr Nat)) : Part (Expr Nat) := do
  let answer ← match kind with
    | .get => invoke a .type []
    | .call => invoke a .type arguments
    | .apply => invoke a .type [.sequence arguments]
    | .resolve => invoke a .any arguments
  return answer.toExpr

end Part

/-! ## The meaning of terms -/

namespace Term

mutual

/-- The expression that a term comes to. -/
def evaluate : Term → Scope → Part (Expr Nat)
  | .primitive kind, _ => Part.new (.primitive kind)
  | .custom label rule, _ => Part.new (.custom label rule.accepts)
  | .typeNamed name, scope => Part.ofName name ((scope.types.get? name).map .leaf)
  | .functionNamed name, scope =>
    Part.ofName name ((scope.functions.idxOf? name).map .generator)
  | .sequence items, scope => do return .sequence (← evaluateItems items scope)
  | .record fields, scope => do return .record (← evaluateFields fields scope)
  | .data value, _ => pure (.data value)
  | .generator function, scope =>
    Part.build scope.positions fun arguments =>
      evaluate function (scope.enter arguments) .finish
  | .listOf element, scope => do
    let type ← Part.normalizeType (← evaluate element scope)
    Part.new (.list type.validator)
  | .tupleOf items, scope => do
    let types ← evaluateTypes items scope
    Part.new (.tuple (types.map Ty.validator))
  | .recordOf fields, scope => do
    let types ← evaluateTypeFields fields scope
    Part.new (.record (types.map fun f => (f.1, f.2.validator)))
  | .union left right, scope => do
    let leftType ← Part.normalizeType (← evaluate left scope)
    let rightType ← Part.normalizeType (← evaluate right scope)
    Part.new (.union leftType.validator rightType.validator)
  | .nest kind count inner, scope => do Part.nest kind count (← evaluate inner scope)
  | .copies item count, scope => do
    return .sequence (← (evaluate item scope).replicate count)
  | .fail error, _ => Part.fail error
  | .access kind accessor arguments, scope => do
    let arguments ← evaluateItems arguments scope
    match scope.accessors.get? accessor with
    | some a => Part.access kind a arguments
    | none => Part.fail (.undefinedAlias accessor)
  | .argument index level fallback, scope =>
    match (scope.arguments.getD level [])[index]? with
    | some type => pure (.leaf type)
    | none => evaluateFallback fallback index scope
  | .argumentsFrom index, scope => pure (.sequence ((scope.innermost.drop index).map .leaf))
  | .byArity choices, scope => evaluateChoice choices scope.innermost.length scope

/-- The expressions of terms from left to right. -/
def evaluateItems : List Term → Scope → Part (List (Expr Nat))
  | [], _ => return []
  | t :: ts, scope => do
    let first ← evaluate t scope
    let rest ← evaluateItems ts scope
    return first :: rest

/-- The expressions of fields from left to right. -/
def evaluateFields : List (String × Term) → Scope → Part (List (String × Expr Nat))
  | [], _ => return []
  | (key, t) :: fields, scope => do
    let first ← evaluate t scope
    let rest ← evaluateFields fields scope
    return (key, first) :: rest

/-- The types of terms from left to right. -/
def evaluateTypes : List Term → Scope → Part (List Ty)
  | [], _ => return []
  | t :: ts, scope => do
    let first ← Part.normalizeType (← evaluate t scope)
    let rest ← evaluateTypes ts scope
    return first :: rest

/-- The types of fields from left to right. -/
def evaluateTypeFields : List (String × Term) → Scope → Part (List (String × Ty))
  | [], _ => return []
  | (key, t) :: fields, scope => do
    let first ← Part.normalizeType (← evaluate t scope)
    let rest ← evaluateTypeFields fields scope
    return (key, first) :: rest

/-- The expression for an argument that is not there. -/
def evaluateFallback : Option Term → Nat → Scope → Part (Expr Nat)
  | some t, _, scope => evaluate t scope
  | none, index, _ => Part.fail (.usage s!"missing argument {index}")

/-- The expression of the choice with a number, or of the last one. -/
def evaluateChoice : List Term → Nat → Scope → Part (Expr Nat)
  | [], _, _ => Part.fail (.usage "nothing to choose from")
  | [t], _, scope => evaluate t scope
  | t :: _, 0, scope => evaluate t scope
  | _ :: u :: ts, number + 1, scope => evaluateChoice (u :: ts) number scope

end

/-- The body that comes to a term. -/
def body (t : Term) (scope : Scope) : Body := t.evaluate scope .finish

end Term

end NamedTypes
