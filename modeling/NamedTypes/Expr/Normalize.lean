import NamedTypes.AliasError
import NamedTypes.Expr.Basic

/-! # Compiling expressions
`Expr.validator` compiles an expression into one validator. Records are arranged by key first, so
the order of writing never shows; a key that occurs twice is reported before the fields are looked
at, and otherwise the first fault by ascending key is. Type functions and raw values describe no
type. `Expr.compile` says which instance the expression comes to: an existing type is kept as it is,
and everything else becomes a new one. -/

namespace NamedTypes

/-- What an expression comes to: a type, or a type function. -/
inductive Normalized (F : Type) : Type
  | type (type : Ty)
  | function (function : F)

namespace Normalized

variable {F : Type}

/-- The type, where a type is needed. -/
def intoType : Normalized F → Except AliasError Ty
  | .type t => .ok t
  | .function _ => .error .misplacedFunction

/-- The type, if it is one. -/
def asType? : Normalized F → Option Ty
  | .type t => some t
  | .function _ => none

/-- The expression that stands for a result. -/
def toExpr : Normalized F → Expr F
  | .type t => .leaf t
  | .function f => .generator f

end Normalized

namespace Expr

variable {F : Type}

/-- The fields of a record, each with what its value came to, by ascending key: the first fault, or
the validators of all of them. -/
def collectFields :
    Entries (Except AliasError Validator) → Except AliasError (List (String × Validator))
  | [] => .ok []
  | (key, result) :: fields => do
    let validator ← result
    let rest ← collectFields fields
    return (key, validator) :: rest

/-- The record validator of fields in any order. -/
def assembleRecord (fields : Entries (Except AliasError Validator)) :
    Except AliasError Validator :=
  match fields.sort.repeatedKey? with
  | some key => .error (.duplicateField key)
  | none => Validator.record <$> collectFields fields.sort

mutual

/-- The validator that an expression describes, or its first fault. -/
def validator : Expr F → Except AliasError Validator
  | .leaf type => .ok type.validator
  | .sequence items => Validator.tuple <$> validators items
  | .record fields => assembleRecord (fieldValidators fields)
  | .generator _ => .error .misplacedFunction
  | .data value => .error (.rawValue value.kind)

/-- The validators of a list of expressions, or the first fault from left to right. -/
def validators : List (Expr F) → Except AliasError (List Validator)
  | [] => .ok []
  | e :: es => do
    let first ← validator e
    let rest ← validators es
    return first :: rest

/-- What the values of fields come to, each on its own. -/
def fieldValidators : List (String × Expr F) → List (String × Except AliasError Validator)
  | [] => []
  | (key, e) :: fields => (key, validator e) :: fieldValidators fields

end

theorem fieldValidators_eq_map (fields : List (String × Expr F)) :
    fieldValidators fields = fields.map fun f => (f.1, f.2.validator) := by
  induction fields with
  | nil => simp [fieldValidators]
  | cons f fields ih => simp [fieldValidators, ih]

end Expr

/-! ## Instances -/

/-- What has to be done for the type that an expression describes. -/
inductive Compiled : Type
  /-- The type exists. -/
  | existing (type : Ty)
  /-- A new type has to be made. -/
  | new (validator : Validator)

/-- The validator of the type. -/
def Compiled.validator : Compiled → Validator
  | .existing type => type.validator
  | .new validator => validator

namespace Expr

variable {F : Type}

/-- Compiles an expression where a type is needed. -/
def compile : Expr F → Except AliasError Compiled
  | .leaf type => .ok (.existing type)
  | e => .new <$> e.validator

/-- The validator of the compiled type is the one that the expression describes. -/
theorem validator_compile (e : Expr F) : Compiled.validator <$> e.compile = e.validator := by
  cases e with
  | leaf type => rfl
  | sequence items => simp only [compile]; cases validator (.sequence items) <;> rfl
  | record fields => simp only [compile]; cases validator (.record fields) <;> rfl
  | generator f => rfl
  | data v => rfl

end Expr

end NamedTypes
