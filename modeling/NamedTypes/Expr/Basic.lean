import NamedTypes.Validator

/-! # Type expressions
A **type expression** (`Expr F`) is the literal description of a type: an existing type, a sequence,
a record, a type function, or a raw value, which describes no type at all. The parameter `F` is what
stands for a type function; `Expr.map` exchanges it. -/

namespace NamedTypes

/-- A literal description of a type, over type functions `F`. -/
inductive Expr (F : Type) : Type
  /-- An existing type, which stands for itself. -/
  | leaf (type : Ty)
  /-- Arrays with a type for each position. -/
  | sequence (items : List (Expr F))
  /-- Objects with a type for each key, in the order of writing. -/
  | record (fields : List (String × Expr F))
  /-- A type function. -/
  | generator (function : F)
  /-- A raw value. -/
  | data (value : Json.Value)

namespace Expr

variable {F G : Type}

/-- The name of an expression's shape in diagnostics. -/
def shape : Expr F → String
  | .leaf _ => "leaf"
  | .sequence _ => "sequence"
  | .record _ => "record"
  | .generator _ => "generator"
  | .data value => value.kind

/-- Whether an expression is an existing type. -/
def isLeaf : Expr F → Bool
  | .leaf _ => true
  | _ => false

mutual

/-- Exchanges the type functions of an expression. -/
def map (f : F → G) : Expr F → Expr G
  | .leaf type => .leaf type
  | .sequence items => .sequence (mapItems f items)
  | .record fields => .record (mapFields f fields)
  | .generator function => .generator (f function)
  | .data value => .data value

/-- Exchanges the type functions of a list of expressions. -/
def mapItems (f : F → G) : List (Expr F) → List (Expr G)
  | [] => []
  | e :: es => map f e :: mapItems f es

/-- Exchanges the type functions of fields. -/
def mapFields (f : F → G) : List (String × Expr F) → List (String × Expr G)
  | [] => []
  | (key, e) :: fields => (key, map f e) :: mapFields f fields

end

/-- **Induction over expressions.** What passes from the items of a sequence and from the values of
a record's fields to the whole holds of every expression. -/
@[elab_as_elim]
theorem memberInduction {motive : Expr F → Prop} (leaf : ∀ type, motive (.leaf type))
    (sequence : ∀ items, (∀ e ∈ items, motive e) → motive (.sequence items))
    (record : ∀ fields, (∀ f ∈ fields, motive f.2) → motive (.record fields))
    (generator : ∀ function, motive (.generator function))
    (data : ∀ value, motive (.data value)) : ∀ e, motive e
  | .leaf type => leaf type
  | .sequence items => sequence items fun e _ =>
    memberInduction leaf sequence record generator data e
  | .record fields => record fields fun f _ =>
    memberInduction leaf sequence record generator data f.2
  | .generator function => generator function
  | .data value => data value
termination_by e => sizeOf e
decreasing_by
  · have := List.sizeOf_lt_of_mem ‹e ∈ items›
    simp only [Expr.sequence.sizeOf_spec]
    omega
  · have := List.sizeOf_lt_of_mem ‹f ∈ fields›
    obtain ⟨key, value⟩ := f
    simp only [Expr.record.sizeOf_spec, Prod.mk.sizeOf_spec] at *
    omega

theorem mapItems_eq_map (f : F → G) (es : List (Expr F)) : mapItems f es = es.map (map f) := by
  induction es with
  | nil => simp [mapItems]
  | cons e es ih => simp [mapItems, ih]

theorem mapFields_eq_map (f : F → G) (fields : List (String × Expr F)) :
    mapFields f fields = fields.map fun e => (e.1, map f e.2) := by
  induction fields with
  | nil => simp [mapFields]
  | cons e fields ih => simp [mapFields, ih]

end Expr

end NamedTypes
