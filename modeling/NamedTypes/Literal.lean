import NamedTypes.Body

/-! # Literals
A JSON value read as a type expression: arrays are sequences, objects are records, strings are
names, and everything else is a raw value. A name is looked up among the names that the reader knows
first and in the prelude second; a name that is in neither is refused. Names are looked up in the
order in which they stand, object members by ascending key, and the first failure ends the
reading. -/

namespace NamedTypes

/-- Named types that literals may use. -/
abbrev Prelude : Type := Table Ty

namespace Literal

variable {m : Type → Type} [Monad m] [MonadExceptOf AliasError m]

mutual

/-- Reads a literal, where `known?` looks a name up before the prelude does. -/
def read (known? : String → m (Option Ty)) (prelude : Prelude) : Json.Value → m TypeExpr
  | .array items => do return .sequence (← readItems known? prelude items)
  | .object members => do return .record (← readMembers known? prelude members)
  | .string name => do
    match ← known? name with
    | some type => return .leaf type
    | none => match prelude.get? name with
      | some type => return .leaf type
      | none => throw (.unsupportedValidator name)
  | .null => return .data .null
  | .bool value => return .data (.bool value)
  | .number value => return .data (.number value)

/-- Reads literals from left to right. -/
def readItems (known? : String → m (Option Ty)) (prelude : Prelude) :
    List Json.Value → m (List TypeExpr)
  | [] => return []
  | v :: vs => do
    let first ← read known? prelude v
    let rest ← readItems known? prelude vs
    return first :: rest

/-- Reads the values of members from left to right. -/
def readMembers (known? : String → m (Option Ty)) (prelude : Prelude) :
    List (String × Json.Value) → m (List (String × TypeExpr))
  | [] => return []
  | (key, v) :: members => do
    let first ← read known? prelude v
    let rest ← readMembers known? prelude members
    return (key, first) :: rest

end

end Literal

namespace Prelude

/-- Reads a literal with the names of a prelude only. -/
def read (prelude : Prelude) (literal : Json.Value) : Except AliasError TypeExpr :=
  Literal.read (fun _ => pure none) prelude literal

end Prelude

end NamedTypes
