/-! # Accessors
How aliases are referred to from outside of their namespace, and what may be asked of them. -/

namespace NamedTypes

/-- A handle to a **slot**, the place that was made for a name in a namespace. A slot belongs to one
name for good, so its handle carries that name; what the slot holds is kept by the registry. Slots
that were made for one name are told apart by their numbers. -/
structure Accessor where
  /-- The number of the namespace. -/
  space : Nat
  /-- The name for which the slot was made. -/
  name : String
  /-- The number of the slot among those made for the name. -/
  slot : Nat
deriving DecidableEq, Repr

/-- What an access has to come to. -/
inductive Demand
  /-- A type; a type function is an error. -/
  | type
  /-- A type or a type function. -/
  | any
deriving DecidableEq, Repr

/-- The ways to use an accessor. -/
inductive AccessKind
  /-- Without arguments, for a type. -/
  | get
  /-- With a raw argument list, for a type. -/
  | call
  /-- With one list of parameters, for a type. -/
  | apply
  /-- With a raw argument list, for a type or a type function. -/
  | resolve
deriving DecidableEq, Repr

end NamedTypes
