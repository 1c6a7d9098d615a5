/-! # JSON values
The values that validators look at and literals are made of. Numbers are integers or floating point
numbers, and the two never coincide: `1` is an integer and `1.0` is not. The members of an object
stand by ascending key, each key once. -/

namespace NamedTypes.Json

/-- A JSON number, kept in the form in which it was written. -/
inductive Number
  /-- A number written without fraction and exponent, within 64 bits. -/
  | int (value : Int)
  /-- Every other number. -/
  | float (value : Float)

/-- A JSON value. -/
inductive Value
  | null
  | bool (value : Bool)
  | number (value : Number)
  | string (value : String)
  | array (items : List Value)
  | object (members : List (String × Value))

namespace Value

/-- The integer `value` as a JSON value. -/
def int (value : Int) : Value := .number (.int value)

/-- The name of a value's kind in diagnostics; integers and other numbers are told apart. -/
def kind : Value → String
  | .null => "null"
  | .bool _ => "bool"
  | .number (.int _) => "int"
  | .number (.float _) => "float"
  | .string _ => "string"
  | .array _ => "array"
  | .object _ => "object"

/-- **Induction over values.** What passes from the elements of an array and from the values of an
object's members to the whole holds of every value. -/
@[elab_as_elim]
theorem memberInduction {motive : Value → Prop} (null : motive .null)
    (bool : ∀ value, motive (.bool value)) (number : ∀ value, motive (.number value))
    (string : ∀ value, motive (.string value))
    (array : ∀ items, (∀ v ∈ items, motive v) → motive (.array items))
    (object : ∀ members, (∀ m ∈ members, motive m.2) → motive (.object members)) :
    ∀ v, motive v
  | .null => null
  | .bool value => bool value
  | .number value => number value
  | .string value => string value
  | .array items => array items fun v _ => memberInduction null bool number string array object v
  | .object members => object members fun m _ =>
    memberInduction null bool number string array object m.2
termination_by v => sizeOf v
decreasing_by
  · have := List.sizeOf_lt_of_mem ‹v ∈ items›
    simp only [Value.array.sizeOf_spec]
    omega
  · have := List.sizeOf_lt_of_mem ‹m ∈ members›
    obtain ⟨key, value⟩ := m
    simp only [Value.object.sizeOf_spec, Prod.mk.sizeOf_spec] at *
    omega

end Value

end NamedTypes.Json
