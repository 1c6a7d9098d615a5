import NamedTypes.Cell
import NamedTypes.Config
import NamedTypes.Log.Line
import NamedTypes.Memo
import NamedTypes.Metrics

/-! # The registry of namespaces
A **namespace** has a slot for every declared name. A slot holds an alias: it is pending until its
name is bound, and then either a plain expression with a place for its type or a type function. The
**registry** (`Registry`) holds all namespaces together with what they share: how deeply accesses
are nested at the moment, which types have been made, and what happened so far. An accessor is a
handle to a slot. It sees whatever that slot holds, whether the name still stands for the slot or
not. -/

namespace NamedTypes

/-- What a name stands for. -/
inductive Alias
  /-- Declared, not bound yet. -/
  | pending
  /-- Bound to an expression; `type` is there once the expression has been compiled. -/
  | plain (source : TypeExpr) (type : Option Ty)
  /-- Bound to a type function; `memo` is there if it remembers results. -/
  | function (function : Generator) (memo : Option Memo)

/-- How far an alias has come. -/
inductive AliasState
  | unresolved
  | bound
  | resolved
  | generatorBound
deriving DecidableEq, Repr

/-- The name of a state. -/
def AliasState.name : AliasState → String
  | .unresolved => "Unresolved"
  | .bound => "Bound"
  | .resolved => "Resolved"
  | .generatorBound => "GeneratorBound"

namespace Alias

/-- How far an alias has come. -/
def state : Alias → AliasState
  | .pending => .unresolved
  | .plain _ none => .bound
  | .plain _ (some _) => .resolved
  | .function _ _ => .generatorBound

/-- The type that an alias keeps. -/
def type? : Alias → Option Ty
  | .plain _ type => type
  | _ => none

/-- An alias that keeps a type from now on. -/
def keep (type : Ty) : Alias → Alias
  | .plain source _ => .plain source (some type)
  | other => other

/-- An alias that remembers the result of a call from now on. -/
def remember (arguments : List Ty) (result : Normalized Generator) : Alias → Alias
  | .function f (some memo) => .function f (some (memo.insert arguments result))
  | other => other

/-- The alias that an expression is bound as. -/
def ofSource (config : Config) : TypeExpr → Alias
  | .generator f => .function f (if config.memoize then some {} else none)
  | source => .plain source none

end Alias

/-- The slots that were made for a name. The name stands for one of them; handles to the others may
still be around. -/
structure Slots where
  /-- What the slots hold, in the order in which they were made. -/
  held : List Alias
  /-- The number of the slot that the name stands for. -/
  current : Nat
  /-- There is such a slot. -/
  current_lt : current < held.length

namespace Slots

/-- What the slot holds that the name stands for. -/
def now (s : Slots) : Alias := s.held.get ⟨s.current, s.current_lt⟩

/-- The slots of a name for which one more was made, pending. The name stands for that one. -/
def added : Option Slots → Slots
  | none => ⟨[.pending], 0, Nat.zero_lt_one⟩
  | some s => ⟨s.held ++ [.pending], s.held.length, by simp⟩

/-- The slots after one of them was given something else to hold. -/
def set (s : Slots) (slot : Nat) (entry : Alias) : Slots :=
  ⟨s.held.set slot entry, s.current, by simpa using s.current_lt⟩

end Slots

/-- A namespace. -/
structure Namespace where
  /-- The name under which it appears in the log. -/
  name : String
  /-- The choices made for it. -/
  config : Config
  /-- What it has counted. -/
  metrics : Metrics := {}
  /-- Its slots by name. -/
  slots : Table Slots := {}

namespace Namespace

/-- The names declared, ascending. -/
def names (n : Namespace) : List String := n.slots.keys

/-- Whether a name was declared. -/
def contains (n : Namespace) (name : String) : Bool := n.slots.contains name

/-- What the declared names stand for. -/
def aliases (n : Namespace) : Table Alias := n.slots.map Slots.now

/-- How far a name has come, if it was declared. -/
def state? (n : Namespace) (name : String) : Option AliasState :=
  (n.slots.get? name).map fun s => s.now.state

end Namespace

/-- Something that happened in a namespace. -/
structure Notice where
  /-- The number of the namespace. -/
  space : Nat
  /-- What happened. -/
  event : Log.Event
  /-- The circumstances. -/
  fields : Entries String
deriving DecidableEq

/-- All namespaces and what they share. -/
structure Registry where
  /-- The namespaces by number. -/
  spaces : Array Namespace := #[]
  /-- How many accesses are running inside each other. -/
  depth : Nat := 0
  /-- The validators of the types made so far. The identity of a type is its place among them. -/
  instances : Array Validator := #[]
  /-- What happened, in order. -/
  notices : Array Notice := #[]

namespace Registry

/-! ## Namespaces and aliases -/

/-- The namespace of a number. -/
def space? (r : Registry) (space : Nat) : Option Namespace := r.spaces[space]?

/-- Changes a namespace. -/
def modifySpace (r : Registry) (space : Nat) (f : Namespace → Namespace) : Registry :=
  { r with spaces := r.spaces.modify space f }

/-- The slots of a name. -/
def slots? (r : Registry) (space : Nat) (name : String) : Option Slots :=
  (r.space? space).bind fun n => n.slots.get? name

/-- The handle to the slot that a name stands for. -/
def accessor? (r : Registry) (space : Nat) (name : String) : Option Accessor :=
  (r.slots? space name).map fun s => ⟨space, name, s.current⟩

/-- What the slot of an accessor holds. -/
def alias? (r : Registry) (a : Accessor) : Option Alias :=
  (r.slots? a.space a.name).bind fun s => s.held[a.slot]?

/-- Changes the slots of a name. -/
def setSlots (r : Registry) (space : Nat) (name : String) (s : Slots) : Registry :=
  r.modifySpace space fun n => { n with slots := n.slots.insert name s }

/-- Makes a slot for a name, pending. The name stands for it from then on. -/
def addSlot (r : Registry) (space : Nat) (name : String) : Accessor × Registry :=
  let s := Slots.added (r.slots? space name)
  (⟨space, name, s.current⟩, r.setSlots space name s)

/-- Gives the slot of an accessor something else to hold. -/
def setAlias (r : Registry) (a : Accessor) (entry : Alias) : Registry :=
  match r.slots? a.space a.name with
  | some s => r.setSlots a.space a.name (s.set a.slot entry)
  | none => r

/-- Changes what the slot of an accessor holds. -/
def modifyAlias (r : Registry) (a : Accessor) (f : Alias → Alias) : Registry :=
  match r.alias? a with
  | some entry => r.setAlias a (f entry)
  | none => r

/-- How far the alias of an accessor has come. -/
def state (r : Registry) (a : Accessor) : AliasState :=
  ((r.alias? a).map Alias.state).getD .unresolved

@[simp] theorem space?_modifySpace (r : Registry) (space other : Nat) (f : Namespace → Namespace) :
    (r.modifySpace space f).space? other =
      if space = other then (r.space? other).map f else r.space? other := by
  simp [modifySpace, space?, Array.getElem?_modify]

/-- The slots of a name after some slots were changed. -/
theorem slots?_setSlots (r : Registry) (space other : Nat) (name otherName : String) (s : Slots) :
    (r.setSlots space name s).slots? other otherName =
      if (other = space ∧ otherName = name) ∧ (r.space? space).isSome then some s
      else r.slots? other otherName := by
  rw [slots?, slots?, setSlots, space?_modifySpace]
  by_cases hspace : space = other
  · subst hspace
    cases r.space? space with
    | none => simp
    | some n =>
      by_cases hname : otherName = name
      · simp [hname]
      · simp [hname, Table.get?_insert_of_ne]
  · simp [hspace, Ne.symm hspace]

/-- What is given to a slot is seen through its accessor and through no other one. -/
theorem alias?_setAlias (r : Registry) (a b : Accessor) (entry : Alias)
    (h : (r.alias? a).isSome) :
    (r.setAlias a entry).alias? b = if b = a then some entry else r.alias? b := by
  obtain ⟨old, hold⟩ := Option.isSome_iff_exists.1 h
  obtain ⟨s, hs, hslot⟩ := Option.bind_eq_some_iff.1 hold
  obtain ⟨n, hn, -⟩ := Option.bind_eq_some_iff.1 hs
  obtain ⟨hlt, -⟩ := List.getElem?_eq_some_iff.1 hslot
  obtain ⟨space, name, slot⟩ := a
  obtain ⟨otherSpace, otherName, otherSlot⟩ := b
  rw [setAlias, hs, alias?, alias?, slots?_setSlots]
  by_cases hname : otherSpace = space ∧ otherName = name
  · obtain ⟨rfl, rfl⟩ := hname
    simp only at hs hn hlt
    by_cases heq : slot = otherSlot
    · subst heq
      simp [hn, Slots.set, hlt]
    · simp [hn, hs, Slots.set, heq, Ne.symm heq]
  · rw [if_neg (fun h => hname h.1), if_neg]
    rintro ⟨⟩
    exact hname ⟨rfl, rfl⟩

/-! ## Counting, logging and making types -/

/-- Raises a counter of a namespace. -/
def count (r : Registry) (space : Nat) (counter : Counter) : Registry :=
  r.modifySpace space fun n => { n with metrics := n.metrics.increment counter }

/-- Notes that something happened in a namespace. -/
def note (r : Registry) (space : Nat) (event : Log.Event) (fields : Entries String) : Registry :=
  match r.space? space with
  | some n =>
    { r with notices := r.notices.push ⟨space, event, ("namespace", n.name) :: fields⟩ }
  | none => r

/-- Counts and notes a failure that concerns a name. -/
def noteFailure (r : Registry) (space : Nat) (name : String) (event : Log.Event)
    (error : AliasError) : Registry :=
  (r.count space .errors).note space event
    [("alias", name), ("code", error.code), ("error", error.message)]

/-- Makes a new type, with an identity of its own. -/
def newType (r : Registry) (validator : Validator) : Ty × Registry :=
  (⟨r.instances.size, validator⟩, { r with instances := r.instances.push validator })

/-- Adds a namespace without names; the result comes with its number. -/
def addSpace (r : Registry) (name : String) (config : Config) : Nat × Registry :=
  let space := r.spaces.size
  let r := { r with spaces := r.spaces.push { name, config } }
  (space, r.note space .namespaceCreated
    [("memoize_generators", if config.memoize then "true" else "false")])

/-- Counting leaves all slots as they are. -/
@[simp] theorem slots?_count (r : Registry) (space other : Nat) (counter : Counter)
    (name : String) : (r.count space counter).slots? other name = r.slots? other name := by
  simp only [slots?, count, space?_modifySpace]
  split
  · cases r.space? other <;> rfl
  · rfl

/-- Logging leaves all slots as they are. -/
@[simp] theorem slots?_note (r : Registry) (space other : Nat) (event : Log.Event)
    (fields : Entries String) (name : String) :
    (r.note space event fields).slots? other name = r.slots? other name := by
  unfold note
  split <;> rfl

/-- Counting leaves every alias as it is. -/
@[simp] theorem alias?_count (r : Registry) (space : Nat) (counter : Counter) (a : Accessor) :
    (r.count space counter).alias? a = r.alias? a := by
  rw [alias?, slots?_count, alias?]

/-- Logging leaves every alias as it is. -/
@[simp] theorem alias?_note (r : Registry) (space : Nat) (event : Log.Event)
    (fields : Entries String) (a : Accessor) :
    (r.note space event fields).alias? a = r.alias? a := by
  rw [alias?, slots?_note, alias?]

/-- Making a type leaves every alias as it is. -/
@[simp] theorem alias?_newType (r : Registry) (validator : Validator) (a : Accessor) :
    (r.newType validator).2.alias? a = r.alias? a := rfl

/-! ## What is written -/

/-- What is written for a notice: nothing if its namespace does not log events so slight. -/
def written? (r : Registry) (notice : Notice) : Option Log.Written :=
  (r.space? notice.space).bind fun n =>
    Log.writeEvent? n.config.logLevel notice.event notice.fields

/-- Everything that is written, in order. -/
def written (r : Registry) : List Log.Written := r.notices.toList.filterMap r.written?

end Registry

end NamedTypes
