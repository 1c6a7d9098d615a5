import NamedTypes.Json.Value
import NamedTypes.Table

/-! # Validators
A **validator** decides which JSON values it accepts (`Validator.check`) and renders itself for
diagnostics (`Validator.describe`). Validators are built from the primitives and from validators
that users bring along by four combinators: tuples, records, lists and unions. The combinators take
their parts as they come; sorting the fields of a record and refusing duplicate ones is the business
of whoever builds it. -/

namespace NamedTypes

/-- The primitive validators. -/
inductive Primitive
  /-- Accepts every value. -/
  | any
  /-- Accepts strings. -/
  | str
  /-- Accepts integers. -/
  | int
  /-- Accepts numbers, integers among them. -/
  | float
  /-- Accepts the two truth values. -/
  | bool
deriving DecidableEq, Repr

namespace Primitive

/-- The primitives in the order in which they are listed. -/
def all : List Primitive := [.any, .str, .int, .float, .bool]

/-- The name of a primitive. -/
def name : Primitive → String
  | .any => "Any"
  | .str => "Str"
  | .int => "Int"
  | .float => "Float"
  | .bool => "Bool"

/-- The primitive of a name. -/
def ofName? (name : String) : Option Primitive := all.find? fun p => p.name == name

/-- Whether a primitive accepts a value. -/
def accepts : Primitive → Json.Value → Bool
  | .any, _ => true
  | .str, .string _ => true
  | .int, .number (.int _) => true
  | .float, .number _ => true
  | .bool, .bool _ => true
  | _, _ => false

end Primitive

/-- A validator of JSON values. -/
inductive Validator
  | primitive (kind : Primitive)
  /-- A validator that a user brings along, with its own rendering. -/
  | custom (label : String) (accepts : Json.Value → Bool)
  /-- Arrays of the same length whose elements match the items one by one. -/
  | tuple (items : List Validator)
  /-- Objects that have exactly the listed keys, each with a matching value. -/
  | record (fields : List (String × Validator))
  /-- Arrays whose elements all match. -/
  | list (element : Validator)
  /-- Values that match either side. -/
  | union (left right : Validator)

namespace Validator

mutual

/-- Whether a validator accepts a value. A record compares the number of fields and looks every
listed key up. -/
def check : Validator → Json.Value → Bool
  | .primitive p, v => p.accepts v
  | .custom _ accepts, v => accepts v
  | .tuple items, .array vs => checkItems items vs
  | .record fields, .object members =>
    members.length == fields.length && checkFields fields members
  | .list element, .array vs => vs.all (check element)
  | .union left right, v => check left v || check right v
  | _, _ => false

/-- Whether there are as many values as validators, each accepted by the one at its position. -/
def checkItems : List Validator → List Json.Value → Bool
  | [], [] => true
  | t :: ts, v :: vs => check t v && checkItems ts vs
  | _, _ => false

/-- Whether every field is a member with an accepted value. -/
def checkFields : List (String × Validator) → Entries Json.Value → Bool
  | [], _ => true
  | (key, t) :: fields, members =>
    (match members.lookup key with
      | some v => check t v
      | none => false) && checkFields fields members

end

mutual

/-- The rendering of a validator. The two sides of a union stand beside each other without
brackets. -/
def describe : Validator → String
  | .primitive p => p.name
  | .custom label _ => label
  | .tuple items => "Tuple[" ++ ", ".intercalate (describeItems items) ++ "]"
  | .record fields => "Record\x7b" ++ ", ".intercalate (describeFields fields) ++ "\x7d"
  | .list element => "List[" ++ describe element ++ "]"
  | .union left right => describe left ++ " | " ++ describe right

/-- The renderings of validators in order. -/
def describeItems : List Validator → List String
  | [] => []
  | t :: ts => describe t :: describeItems ts

/-- The renderings of fields in order. -/
def describeFields : List (String × Validator) → List String
  | [] => []
  | (key, t) :: fields => (key ++ ": " ++ describe t) :: describeFields fields

end

theorem describeItems_eq_map (ts : List Validator) : describeItems ts = ts.map describe := by
  induction ts with
  | nil => simp [describeItems]
  | cons t ts ih => simp [describeItems, ih]

theorem describeFields_eq_map (fields : List (String × Validator)) :
    describeFields fields = fields.map fun f => f.1 ++ ": " ++ f.2.describe := by
  induction fields with
  | nil => simp [describeFields]
  | cons f fields ih => simp [describeFields, ih]

end Validator

/-- A **type**: one instance of a validator. Instances are told apart by their identity, also where
their validators are the same; copies of a type keep it. -/
structure Ty where
  /-- The identity. -/
  id : Nat
  /-- The validator that the instance holds. -/
  validator : Validator

namespace Ty

/-- Whether a type accepts a value. -/
def check (t : Ty) (v : Json.Value) : Bool := t.validator.check v

/-- The rendering of a type. -/
def describe (t : Ty) : String := t.validator.describe

/-- Whether two types are one instance. -/
def sameInstance (s t : Ty) : Bool := s.id == t.id

/-- Whether two types are one instance or render alike. -/
def sameStructure (s t : Ty) : Bool := s.sameInstance t || s.describe == t.describe

end Ty

end NamedTypes
