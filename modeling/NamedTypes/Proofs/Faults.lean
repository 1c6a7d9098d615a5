import NamedTypes.Proofs.Action
import NamedTypes.Proofs.Entries

/-! # Which expressions describe a type
An expression describes a type (`Expr.DescribesType`) unless a raw value, a type function or a record
with a repeated key is among its parts. `Expr.FirstFault` says which of these is met first: items are
looked at from left to right, fields by ascending key, and a repeated key before any field. Compiling
accepts exactly the expressions that describe a type and names the first fault of all others
(`normalization_names_first_fault`).

Compiling sorts a record and compares neighbours only, so that it overlooks no repeated key rests on
`Entries.repeatedKey?_sort_eq_some_iff`. -/

namespace NamedTypes

/-! ## Parts and faults -/

/-- A reason why an expression describes no type. -/
inductive Fault
  /-- A raw value stands where a type is needed. -/
  | rawValue (value : Json.Value)
  /-- A record has a key more than once. -/
  | duplicateField (key : String)
  /-- A type function stands where a type is needed. -/
  | misplacedFunction

/-- The JSON type of a value, by name. Integers are a type of their own. -/
inductive Json.Value.IsA : Json.Value → String → Prop
  | null : IsA .null "null"
  | bool (value : Bool) : IsA (.bool value) "bool"
  | int (value : Int) : IsA (.number (.int value)) "int"
  | float (value : Float) : IsA (.number (.float value)) "float"
  | string (value : String) : IsA (.string value) "string"
  | array (items : List Json.Value) : IsA (.array items) "array"
  | object (members : List (String × Json.Value)) : IsA (.object members) "object"

/-- The kind of a value is its JSON type. -/
theorem Json.Value.isA_iff {value : Json.Value} {type : String} :
    value.IsA type ↔ value.kind = type := by
  constructor
  · intro h
    cases h <;> rfl
  · rintro rfl
    rcases value with _ | b | (n | x) | s | items | members
    · exact .null
    · exact .bool b
    · exact .int n
    · exact .float x
    · exact .string s
    · exact .array items
    · exact .object members

/-- What a fault is called in diagnostics. -/
inductive Fault.Called : Fault → String → Prop
  /-- A raw value is called by its JSON type. -/
  | rawValue {value : Json.Value} {type : String} (isA : value.IsA type) :
    Called (.rawValue value) s!"raw {type} value"
  | duplicateField (key : String) :
    Called (.duplicateField key) s!"record with duplicate field '{key}'"
  | misplacedFunction : Called .misplacedFunction "type function where a type was expected"

/-- Every fault is called something. -/
theorem Fault.exists_called (fault : Fault) : ∃ name, fault.Called name := by
  cases fault with
  | rawValue value => exact ⟨_, .rawValue (Json.Value.isA_iff.2 rfl)⟩
  | duplicateField key => exact ⟨_, .duplicateField key⟩
  | misplacedFunction => exact ⟨_, .misplacedFunction⟩

namespace Expr

variable {F : Type}

/-- What is reached from an expression through the items of sequences and the fields of records. -/
inductive Part : Expr F → Expr F → Prop
  /-- An expression is a part of itself. -/
  | self (e : Expr F) : Part e e
  /-- The parts of an item are parts of the sequence. -/
  | item {items : List (Expr F)} {e part : Expr F} (mem : e ∈ items) (within : Part e part) :
    Part (.sequence items) part
  /-- The parts of a field's value are parts of the record. -/
  | field {fields : List (String × Expr F)} {f : String × Expr F} {part : Expr F} (mem : f ∈ fields)
    (within : Part f.2 part) : Part (.record fields) part

/-- An expression without raw values, type functions and records with repeated keys. -/
structure DescribesType (e : Expr F) : Prop where
  /-- No part is a raw value. -/
  no_data : ∀ value, ¬ Part e (.data value)
  /-- No part is a type function. -/
  no_generator : ∀ function, ¬ Part e (.generator function)
  /-- Every record among the parts has every key once. -/
  nodup_keys : ∀ fields, Part e (.record fields) → (Entries.keys fields).Nodup

/-- The fault that is met first. -/
inductive FirstFault : Expr F → Fault → Prop
  /-- A raw value is a fault. -/
  | data (value : Json.Value) : FirstFault (.data value) (.rawValue value)
  /-- A type function is a fault. -/
  | generator (function : F) : FirstFault (.generator function) .misplacedFunction
  /-- Items come from left to right. -/
  | sequence {before after : List (Expr F)} {e : Expr F} {fault : Fault}
    (faultless : ∀ d ∈ before, d.DescribesType) (first : FirstFault e fault) :
    FirstFault (.sequence (before ++ e :: after)) fault
  /-- A record with repeated keys is a fault itself, named by the least of them. -/
  | repeatedKey {fields : List (String × Expr F)} {key : String}
    (least : IsLeast {k | 1 < (Entries.keys fields).count k} key) :
    FirstFault (.record fields) (.duplicateField key)
  /-- Fields come by ascending key. -/
  | field {fields : List (String × Expr F)} {f : String × Expr F} {fault : Fault}
    (nodup_keys : (Entries.keys fields).Nodup) (mem : f ∈ fields)
    (faultless : ∀ g ∈ fields, g.1 < f.1 → g.2.DescribesType) (first : FirstFault f.2 fault) :
    FirstFault (.record fields) fault

/-! ### Describing a type, by shape -/

theorem describesType_leaf (type : Ty) : (Expr.leaf type : Expr F).DescribesType where
  no_data _ h := by cases h
  no_generator _ h := by cases h
  nodup_keys _ h := by cases h

theorem not_describesType_data (value : Json.Value) : ¬ (Expr.data value : Expr F).DescribesType :=
  fun h => h.no_data value (.self _)

theorem not_describesType_generator (function : F) : ¬ (Expr.generator function).DescribesType :=
  fun h => h.no_generator function (.self _)

/-- A sequence describes a type if all its items do. -/
theorem describesType_sequence_iff {items : List (Expr F)} :
    (Expr.sequence items).DescribesType ↔ ∀ e ∈ items, e.DescribesType := by
  constructor
  · intro h e he
    exact {
      no_data := fun value part => h.no_data value (.item he part)
      no_generator := fun function part => h.no_generator function (.item he part)
      nodup_keys := fun fields part => h.nodup_keys fields (.item he part) }
  · intro h
    refine ⟨fun value part => ?_, fun function part => ?_, fun fields part => ?_⟩
    · cases part with | item he part => exact (h _ he).no_data value part
    · cases part with | item he part => exact (h _ he).no_generator function part
    · cases part with | item he part => exact (h _ he).nodup_keys fields part

/-- A record describes a type if its keys are distinct and the values of all fields describe types. -/
theorem describesType_record_iff {fields : List (String × Expr F)} :
    (Expr.record fields).DescribesType ↔
      (Entries.keys fields).Nodup ∧ ∀ f ∈ fields, f.2.DescribesType := by
  constructor
  · intro h
    refine ⟨h.nodup_keys fields (.self _), fun f hf => ?_⟩
    exact {
      no_data := fun value part => h.no_data value (.field hf part)
      no_generator := fun function part => h.no_generator function (.field hf part)
      nodup_keys := fun inner part => h.nodup_keys inner (.field hf part) }
  · rintro ⟨hnodup, h⟩
    refine ⟨fun value part => ?_, fun function part => ?_, fun inner part => ?_⟩
    · cases part with | field hf part => exact (h _ hf).no_data value part
    · cases part with | field hf part => exact (h _ hf).no_generator function part
    · cases part with
      | self => exact hnodup
      | field hf part => exact (h _ hf).nodup_keys inner part

/-! ## Every expression has a first fault or none -/

/-- An expression with a first fault describes no type. -/
theorem FirstFault.not_describesType {e : Expr F} {fault : Fault} (h : e.FirstFault fault) :
    ¬ e.DescribesType := by
  induction h with
  | data value => exact not_describesType_data value
  | generator function => exact not_describesType_generator function
  | sequence _ _ ih =>
    exact fun hd => ih (describesType_sequence_iff.1 hd _ (by simp))
  | repeatedKey least =>
    intro hd
    have hnodup := (describesType_record_iff.1 hd).1
    exact absurd (List.nodup_iff_count_le_one.1 hnodup _) (not_le.2 least.1)
  | field _ mem _ _ ih => exact fun hd => ih ((describesType_record_iff.1 hd).2 _ mem)

/-- There is at most one first fault. -/
theorem FirstFault.unique {e : Expr F} {fault fault' : Fault} (h : e.FirstFault fault)
    (h' : e.FirstFault fault') : fault = fault' := by
  induction h generalizing fault' with
  | data value => cases h'; rfl
  | generator function => cases h'; rfl
  | @sequence before after e fault faultless first ih =>
    generalize hitems : before ++ e :: after = items at h'
    cases h' with
    | @sequence before' after' e' _ faultless' first' =>
      -- whichever of the two positions comes later, the other is before it and has no fault
      rcases List.append_eq_append_iff.1 hitems with ⟨mid, hmid, hrest⟩ | ⟨mid, hmid, hrest⟩
      · cases mid with
        | nil =>
          obtain ⟨rfl, -⟩ := List.cons.inj hrest
          exact ih first'
        | cons d mid =>
          obtain ⟨rfl, -⟩ := List.cons.inj hrest
          exact absurd (faultless' e (by simp [hmid])) first.not_describesType
      · cases mid with
        | nil =>
          obtain ⟨rfl, -⟩ := List.cons.inj hrest
          exact ih first'
        | cons d mid =>
          obtain ⟨rfl, -⟩ := List.cons.inj hrest
          exact absurd (faultless e' (by simp [hmid])) first'.not_describesType
  | @repeatedKey fields key least =>
    cases h' with
    | repeatedKey least' => rw [least.unique least']
    | field nodup_keys =>
      exact absurd (List.nodup_iff_count_le_one.1 nodup_keys key) (not_le.2 least.1)
  | @field fields f fault nodup_keys mem faultless first ih =>
    cases h' with
    | @repeatedKey _ key least =>
      exact absurd (List.nodup_iff_count_le_one.1 nodup_keys key) (not_le.2 least.1)
    | @field _ g _ _ mem' faultless' first' =>
      rcases lt_trichotomy f.1 g.1 with hlt | heq | hlt
      · exact absurd (faultless' f mem hlt) first.not_describesType
      · obtain rfl : f = g := List.inj_on_of_nodup_map nodup_keys mem mem' heq
        exact ih first'
      · exact absurd (faultless g mem' hlt) first'.not_describesType

/-- Where some of a list's members have a property, one of them is the first that does. -/
private theorem exists_first {α : Type} {p : α → Prop} {xs : List α} (h : ∃ x ∈ xs, p x) :
    ∃ before x after, xs = before ++ x :: after ∧ (∀ y ∈ before, ¬ p y) ∧ p x := by
  classical
  obtain ⟨x, hx⟩ : ∃ x, xs.find? (fun x => decide (p x)) = some x := by
    refine Option.isSome_iff_exists.1 (List.find?_isSome.2 ?_)
    simpa using h
  obtain ⟨hp, before, after, rfl, hbefore⟩ := List.find?_eq_some_iff_append.1 hx
  exact ⟨before, x, after, rfl, by simpa using hbefore, by simpa using hp⟩

/-- An expression that describes no type has a first fault. -/
theorem exists_firstFault (e : Expr F) : ¬ e.DescribesType → ∃ fault, e.FirstFault fault := by
  induction e using memberInduction with
  | leaf type => exact fun h => absurd (describesType_leaf type) h
  | generator function => exact fun _ => ⟨_, .generator function⟩
  | data value => exact fun _ => ⟨_, .data value⟩
  | sequence items ih =>
    intro h
    have hsome : ∃ e ∈ items, ¬ e.DescribesType := by
      simpa only [not_forall, exists_prop] using mt describesType_sequence_iff.2 h
    obtain ⟨before, e, after, rfl, hbefore, he⟩ := exists_first hsome
    obtain ⟨fault, first⟩ := ih e (by simp) he
    exact ⟨fault, .sequence (fun d hd => not_not.1 (hbefore d hd)) first⟩
  | record fields ih =>
    intro h
    cases hkey : (Entries.sort fields).repeatedKey? with
    | some key => exact ⟨_, .repeatedKey (Entries.repeatedKey?_sort_eq_some_iff.1 hkey)⟩
    | none =>
      have hnodup := Entries.repeatedKey?_sort_eq_none_iff.1 hkey
      rw [describesType_record_iff, not_and] at h
      have hsome : ∃ f ∈ Entries.sort fields, ¬ f.2.DescribesType := by
        obtain ⟨f, hf, hfault⟩ := by simpa only [not_forall] using h hnodup
        exact ⟨f, (Entries.perm_sort fields).mem_iff.2 hf, hfault⟩
      -- in the sorted fields, what stands before has the smaller keys
      obtain ⟨before, f, after, hsort, hbefore, hf⟩ := exists_first hsome
      have hasc : Entries.Ascending (before ++ f :: after) :=
        hsort ▸ Entries.ascending_sort hkey
      have hmem (g : String × Expr F) : g ∈ fields ↔ g ∈ before ++ f :: after := by
        rw [← hsort, (Entries.perm_sort fields).mem_iff]
      obtain ⟨fault, first⟩ := ih f ((hmem f).2 (by simp)) hf
      refine ⟨fault, .field hnodup ((hmem f).2 (by simp)) (fun g hg hlt => ?_) first⟩
      rcases List.mem_append.1 ((hmem g).1 hg) with hg | hg
      · exact not_not.1 (hbefore g hg)
      · have hle : f.1 ≤ g.1 := by
          rcases List.mem_cons.1 hg with rfl | hg
          · exact String.le_refl _
          · exact le_of_lt ((List.pairwise_cons.1 (List.pairwise_append.1 hasc).2.1).1 g hg)
        exact absurd hlt (not_lt.2 hle)

/-! ## What compiling finds -/

/-- Items are compiled up to the first that has no validator. -/
theorem validators_append_cons {before after : List (Expr F)} {e : Expr F} {error : AliasError}
    (hbefore : ∀ d ∈ before, ∃ t, d.validator = .ok t) (he : e.validator = .error error) :
    validators (before ++ e :: after) = .error error := by
  induction before with
  | nil => rw [List.nil_append, validators, he]; rfl
  | cons d before ih =>
    obtain ⟨t, ht⟩ := hbefore d List.mem_cons_self
    rw [List.cons_append, validators, ht, ih fun d hd => hbefore d (List.mem_cons_of_mem _ hd)]
    rfl

/-- Fields are collected up to the first that has no validator. -/
theorem collectFields_append_cons {before after : Entries (Except AliasError Validator)}
    {key : String} {error : AliasError} (hbefore : ∀ f ∈ before, ∃ t, f.2 = .ok t) :
    collectFields (before ++ (key, .error error) :: after) = .error error := by
  induction before with
  | nil => rfl
  | cons f before ih =>
    obtain ⟨k, result⟩ := f
    obtain ⟨t, rfl⟩ := hbefore _ List.mem_cons_self
    rw [List.cons_append, collectFields, ih fun f hf => hbefore f (List.mem_cons_of_mem _ hf)]
    rfl

/-- Items that all have validators are compiled. -/
theorem exists_validators {items : List (Expr F)}
    (h : ∀ e ∈ items, ∃ t, e.validator = .ok t) : ∃ ts, validators items = .ok ts := by
  induction items with
  | nil => exact ⟨[], rfl⟩
  | cons e items ih =>
    obtain ⟨t, ht⟩ := h e List.mem_cons_self
    obtain ⟨ts, hts⟩ := ih fun e he => h e (List.mem_cons_of_mem _ he)
    exact ⟨t :: ts, by rw [validators, ht, hts]; rfl⟩

/-- Fields that all have validators are collected. -/
theorem exists_collectFields {results : Entries (Except AliasError Validator)}
    (h : ∀ f ∈ results, ∃ t, f.2 = .ok t) : ∃ ts, collectFields results = .ok ts := by
  induction results with
  | nil => exact ⟨[], rfl⟩
  | cons f results ih =>
    obtain ⟨key, result⟩ := f
    obtain ⟨t, rfl⟩ := h _ List.mem_cons_self
    obtain ⟨ts, hts⟩ := ih fun f hf => h f (List.mem_cons_of_mem _ hf)
    exact ⟨(key, t) :: ts, by rw [collectFields, hts]; rfl⟩

/-- Where the keys are distinct, a record collects its fields as they are sorted. -/
theorem validator_record_of_nodup {fields : List (String × Expr F)}
    (h : (Entries.keys fields).Nodup) : validator (.record fields) =
      Validator.record <$>
        collectFields ((Entries.sort fields).map fun f => (f.1, f.2.validator)) := by
  rw [validator, assembleRecord, fieldValidators_eq_map, Entries.sort_map (α := Expr F) validator,
    Entries.repeatedKey?_map (α := Expr F) validator, Entries.repeatedKey?_sort_eq_none_iff.2 h]

/-- What describes a type has a validator. -/
theorem DescribesType.exists_validator (e : Expr F) :
    e.DescribesType → ∃ t, e.validator = .ok t := by
  induction e using memberInduction with
  | leaf type => exact fun _ => ⟨_, rfl⟩
  | generator function => exact fun h => absurd h (not_describesType_generator function)
  | data value => exact fun h => absurd h (not_describesType_data value)
  | sequence items ih =>
    intro h
    obtain ⟨ts, hts⟩ := exists_validators fun e he => ih e he (describesType_sequence_iff.1 h e he)
    exact ⟨.tuple ts, by rw [validator, hts]; rfl⟩
  | record fields ih =>
    intro h
    obtain ⟨hnodup, hfields⟩ := describesType_record_iff.1 h
    have hsorted : ∀ g ∈ (Entries.sort fields).map fun f => (f.1, f.2.validator),
        ∃ t, g.2 = .ok t := by
      rintro g hg
      obtain ⟨f, hf, rfl⟩ := List.mem_map.1 hg
      have hf' : f ∈ fields := (Entries.perm_sort fields).mem_iff.1 hf
      exact ih f hf' (hfields f hf')
    obtain ⟨ts, hts⟩ := exists_collectFields hsorted
    exact ⟨.record ts, by rw [validator_record_of_nodup hnodup, hts]; rfl⟩

/-- Compiling ends with the first fault. -/
theorem FirstFault.validator_eq {e : Expr F} {fault : Fault} {name : String}
    (h : e.FirstFault fault) (called : fault.Called name) :
    e.validator = .error (.unsupportedLiteral name) := by
  induction h with
  | data value =>
    cases called with
    | rawValue isA => rw [← Json.Value.isA_iff.1 isA]; rfl
  | generator function => cases called; rfl
  | @sequence before after e fault faultless _ ih =>
    rw [validator,
      validators_append_cons (fun d hd => DescribesType.exists_validator d (faultless d hd))
        (ih called)]
    rfl
  | @repeatedKey fields key least =>
    cases called
    rw [validator, assembleRecord, fieldValidators_eq_map, Entries.sort_map (α := Expr F) validator,
      Entries.repeatedKey?_map (α := Expr F) validator,
      Entries.repeatedKey?_sort_eq_some_iff.2 least]
    rfl
  | @field fields f fault nodup_keys mem faultless _ ih =>
    have hasc : Entries.Ascending (Entries.sort fields) :=
      Entries.ascending_sort (Entries.repeatedKey?_sort_eq_none_iff.2 nodup_keys)
    obtain ⟨before, after, hsort⟩ := List.append_of_mem ((Entries.perm_sort fields).mem_iff.2 mem)
    rw [hsort] at hasc
    -- fields are compiled in the order of their keys, and those with lesser keys have no fault
    have hbefore : ∀ g ∈ before.map fun f => (f.1, f.2.validator), ∃ t, g.2 = .ok t := by
      rintro g hg
      obtain ⟨d, hd, rfl⟩ := List.mem_map.1 hg
      have hd' : d ∈ fields :=
        (Entries.perm_sort fields).mem_iff.1 (hsort ▸ List.mem_append_left _ hd)
      have hlt : d.1 < f.1 := (List.pairwise_append.1 hasc).2.2 d hd f List.mem_cons_self
      exact DescribesType.exists_validator d.2 (faultless d hd' hlt)
    rw [validator_record_of_nodup nodup_keys, hsort, List.map_append, List.map_cons,
      ih called, collectFields_append_cons hbefore]
    rfl

end Expr

/-! ## Actions -/

namespace Action

/-- An expression that is no type function comes to the type that it describes. -/
theorem normalize_eq_normalizeType {e : TypeExpr} (h : ∀ function, e ≠ .generator function) :
    normalize e = (do return .type (← normalizeType e)) := by
  cases e with
  | generator function => exact absurd rfl (h function)
  | _ => rfl

/-- What describes a type is compiled. -/
theorem exists_normalizeType {e : TypeExpr} (h : e.DescribesType) (r : Registry) :
    ∃ t r', normalizeType e r = some (.ok t, r') := by
  obtain ⟨t, ht⟩ := Expr.DescribesType.exists_validator e h
  rw [← e.validator_compile] at ht
  rw [normalizeType_apply]
  cases hc : e.compile with
  | ok c => exact ⟨_, _, rfl⟩
  | error error => simp [hc] at ht

/-- Anything else ends with its first fault and makes nothing. -/
theorem normalizeType_of_firstFault {e : TypeExpr} {fault : Fault} {name : String}
    (h : e.FirstFault fault) (called : fault.Called name) (r : Registry) :
    normalizeType e r = some (.error (.unsupportedLiteral name), r) := by
  have hv := h.validator_eq called
  rw [← e.validator_compile] at hv
  rw [normalizeType_apply]
  cases hc : e.compile with
  | ok c => simp [hc] at hv
  | error error =>
    rw [hc] at hv
    obtain rfl := Except.error.inj hv
    rfl

end Action

/-- **Expressions are compiled exactly if they describe a type, and otherwise the first fault is
named.** Where a type is needed, an expression is compiled if and only if no part of it is a raw
value, a type function or a record with a repeated key; where a type function will do as well, the
whole may also be one. Everything else has exactly one first fault, and this is what the error
names, a raw value by its JSON type. -/
theorem normalization_names_first_fault (e : TypeExpr) (r : Registry) :
    ((∃ t r', Action.normalizeType e r = some (.ok t, r')) ↔ e.DescribesType) ∧
    ((∃ result r', Action.normalize e r = some (.ok result, r')) ↔
      e.DescribesType ∨ ∃ function, e = .generator function) ∧
    (e.DescribesType ∨ ∃ fault name, (∀ other, e.FirstFault other ↔ other = fault) ∧
      fault.Called name ∧ Action.normalizeType e r = some (.error (.unsupportedLiteral name), r) ∧
      ((∃ function, e = .generator function) ∨
        Action.normalize e r = some (.error (.unsupportedLiteral name), r))) := by
  have hnormalize (hne : ∀ function, e ≠ .generator function) :
      Action.normalize e r = Option.map (fun p => (Normalized.type <$> p.1, p.2))
        (Action.normalizeType e r) := by
    rw [Action.normalize_eq_normalizeType hne]
    exact Action.map_apply Normalized.type (Action.normalizeType e) r
  by_cases hd : e.DescribesType
  case pos =>
    have htype := Action.exists_normalizeType hd r
    refine ⟨iff_of_true htype hd, iff_of_true ?_ (.inl hd), .inl hd⟩
    have hne (function : Generator) : e ≠ .generator function := by
      rintro rfl
      exact Expr.not_describesType_generator function hd
    obtain ⟨t, r', h⟩ := htype
    exact ⟨.type t, r', by rw [hnormalize hne, h]; rfl⟩
  case neg =>
    obtain ⟨fault, first⟩ := e.exists_firstFault hd
    obtain ⟨name, called⟩ := fault.exists_called
    have htype := Action.normalizeType_of_firstFault first called r
    have honly (other : Fault) : e.FirstFault other ↔ other = fault :=
      ⟨fun h => h.unique first, fun h => h ▸ first⟩
    by_cases hgen : ∃ function, e = .generator function
    · -- a type function is a fault only where a type is needed
      obtain ⟨function, rfl⟩ := hgen
      refine ⟨iff_of_false ?_ hd, iff_of_true ⟨.function function, r, rfl⟩ (.inr ⟨function, rfl⟩),
        .inr ⟨fault, name, honly, called, htype, .inl ⟨function, rfl⟩⟩⟩
      rintro ⟨t, r', h⟩
      simp [htype] at h
    · have hall : Action.normalize e r = some (.error (.unsupportedLiteral name), r) := by
        rw [hnormalize (not_exists.1 hgen), htype]
        rfl
      refine ⟨iff_of_false ?_ hd, iff_of_false ?_ (not_or_intro hd hgen),
        .inr ⟨fault, name, honly, called, htype, .inr hall⟩⟩
      · rintro ⟨t, r', h⟩
        simp [htype] at h
      · rintro ⟨result, r', h⟩
        simp [hall] at h

/-- A sequence that holds an array behind an existing type, in the field that comes first, where the
other field holds a raw value as well. -/
theorem raw_array_named_first :
    let e : TypeExpr := .record [("b", .data .null),
      ("a", .sequence [.leaf ⟨0, .primitive .int⟩, .data (.array [.null])])]
    e.FirstFault (.rawValue (.array [.null])) ∧
      Action.normalizeType e {} = some (.error (.unsupportedLiteral "raw array value"), {}) ∧
      Action.normalize e {} = some (.error (.unsupportedLiteral "raw array value"), {}) := by
  intro e
  have hlist : Expr.FirstFault (F := Generator)
      (.sequence [.leaf ⟨0, .primitive .int⟩, .data (.array [.null])])
      (.rawValue (.array [.null])) :=
    @Expr.FirstFault.sequence _ [_] _ _ _
      (List.forall_mem_singleton.2 (Expr.describesType_leaf _)) (.data _)
  -- no field comes before this one
  have first : e.FirstFault (.rawValue (.array [.null])) :=
    .field (f := ("a", _)) (by decide) (List.mem_cons_of_mem _ List.mem_cons_self)
      (List.forall_mem_cons.2 ⟨fun hlt => absurd hlt (by decide),
        List.forall_mem_singleton.2 fun hlt => absurd hlt (by decide)⟩) hlist
  obtain hdescribes | ⟨fault, name, honly, called, htype, hgenerator | hall⟩ :=
    (normalization_names_first_fault e {}).2.2
  · exact absurd hdescribes first.not_describesType
  · obtain ⟨function, hfunction⟩ := hgenerator
    cases (show Expr.record _ = Expr.generator function from hfunction)
  · obtain rfl := (honly _).1 first
    cases called with
    | rawValue isA =>
      cases isA
      exact ⟨first, htype, hall⟩

/-- A repeated key deep in the field that comes first counts before a raw value in a later one. -/
example (r : Registry) :
    Action.normalizeType (.record [("b", .data .null),
      ("a", .sequence [.record [("y", .data .null), ("x", .sequence []), ("y", .data .null)]])]) r =
      some (.error (.unsupportedLiteral "record with duplicate field 'y'"), r) := by
  cbv

end NamedTypes
