import NamedTypes.Literal
import NamedTypes.Proofs.Entries

/-! # Expanding literals
Names in a literal may be written out (`Json.Value.expand`). What a literal describes depends on what
its names stand for and on nothing else (`Json.Value.validator`), so writing names out is a
substitution (`Json.Value.validator_expand`). A prelude alone reads a literal as what it describes
with the names of the prelude (`Prelude.validator_read`).

Descriptions are optional validators here: there are many ways in which a literal can fail to
describe a type, and which one is met first changes when names are written out. -/

namespace NamedTypes

/-- The record validator of fields in any order, if no key occurs twice. -/
def Validator.ofFields (fields : Entries Validator) : Option Validator :=
  match fields.sort.repeatedKey? with
  | some _ => none
  | none => some (.record fields.sort)

namespace Json.Value

mutual

/-- Writes out the names that are known. -/
def expand (known : String → Option Value) : Value → Value
  | .string name => (known name).getD (.string name)
  | .array items => .array (expandItems known items)
  | .object members => .object (expandMembers known members)
  | .null => .null
  | .bool value => .bool value
  | .number value => .number value

/-- Writes out the names in a list of values. -/
def expandItems (known : String → Option Value) : List Value → List Value
  | [] => []
  | v :: vs => expand known v :: expandItems known vs

/-- Writes out the names in the values of members; keys stay as they are. -/
def expandMembers (known : String → Option Value) : List (String × Value) → List (String × Value)
  | [] => []
  | (key, v) :: members => (key, expand known v) :: expandMembers known members

end

mutual

/-- The validator that a literal describes, where names stand for validators. -/
def validator (names : String → Option Validator) : Value → Option Validator
  | .string name => names name
  | .array items => Validator.tuple <$> validators names items
  | .object members => do
    Validator.ofFields ((members.map Prod.fst).zip (← memberValidators names members))
  | .null => none
  | .bool _ => none
  | .number _ => none

/-- The validators that a list of literals describes. -/
def validators (names : String → Option Validator) : List Value → Option (List Validator)
  | [] => some []
  | v :: vs => do
    let first ← validator names v
    let rest ← validators names vs
    return first :: rest

/-- The validators that the values of members describe. -/
def memberValidators (names : String → Option Validator) :
    List (String × Value) → Option (List Validator)
  | [] => some []
  | (_, v) :: members => do
    let first ← validator names v
    let rest ← memberValidators names members
    return first :: rest

end

theorem expandItems_eq_map (known : String → Option Value) (vs : List Value) :
    expandItems known vs = vs.map (expand known) := by
  induction vs with
  | nil => simp [expandItems]
  | cons v vs ih => simp [expandItems, ih]

theorem expandMembers_eq_map (known : String → Option Value) (members : List (String × Value)) :
    expandMembers known members = members.map fun m => (m.1, expand known m.2) := by
  induction members with
  | nil => simp [expandMembers]
  | cons m members ih => simp [expandMembers, ih]

theorem memberValidators_eq (names : String → Option Validator)
    (members : List (String × Value)) :
    memberValidators names members = validators names (members.map Prod.snd) := by
  induction members with
  | nil => simp [memberValidators, validators]
  | cons m members ih => simp [memberValidators, validators, ih]

/-! ## Writing names out -/

theorem validators_map {names names' : String → Option Validator} {f : Value → Value}
    {vs : List Value} (h : ∀ v ∈ vs, validator names (f v) = validator names' v) :
    validators names (vs.map f) = validators names' vs := by
  induction vs with
  | nil => simp [validators]
  | cons v vs ih =>
    simp [validators, h v List.mem_cons_self, ih fun w hw => h w (List.mem_cons_of_mem _ hw)]

/-- **Writing names out is a substitution.** A literal with names written out describes what it
describes when these names stand for what is written. -/
theorem validator_expand (names : String → Option Validator) (known : String → Option Value)
    (v : Value) :
    (v.expand known).validator names =
      v.validator fun name => (known name).elim (names name) (validator names) := by
  induction v using memberInduction with
  | null | bool | number => simp [expand, validator]
  | string name =>
    rw [expand, validator]
    cases known name with
    | none => simp [validator]
    | some written => simp
  | array items ih =>
    rw [expand, validator, validator, expandItems_eq_map, validators_map ih]
  | object members ih =>
    have hkeys : (expandMembers known members).map Prod.fst = members.map Prod.fst := by
      simp [expandMembers_eq_map]
    have hvalues : (expandMembers known members).map Prod.snd =
        (members.map Prod.snd).map (expand known) := by
      simp [expandMembers_eq_map]
    rw [expand, validator, validator, memberValidators_eq, memberValidators_eq, hkeys, hvalues,
      validators_map fun v hv => ?_]
    obtain ⟨m, hm, rfl⟩ := List.mem_map.1 hv
    exact ih m hm

end Json.Value

/-! ## Expressions that literals are read as -/

namespace Expr

variable {F : Type}

/-! ### Expressions that may be missing -/

/-- An expression before others, where each may be missing. -/
theorem validators_cons (first : Except AliasError (Expr F))
    (rest : Except AliasError (List (Expr F))) :
    ((do
      let e ← first
      let es ← rest
      return e :: es) >>= validators).toOption = do
        let v ← (first >>= validator).toOption
        let vs ← (rest >>= validators).toOption
        return v :: vs := by
  cases first with
  | error => rfl
  | ok e =>
    cases rest with
    | error =>
      change none = (validator e).toOption.bind fun v => none
      cases validator e <;> rfl
    | ok es =>
      change (validators (e :: es)).toOption = (validator e).toOption.bind fun v =>
        (validators es).toOption.bind fun vs => some (v :: vs)
      rw [validators]
      cases validator e with
      | error => rfl
      | ok v => cases validators es <;> rfl

theorem validator_sequence (items : Except AliasError (List (Expr F))) :
    (Expr.sequence <$> items >>= validator).toOption =
      Validator.tuple <$> (items >>= validators).toOption := by
  cases items with
  | error => rfl
  | ok es =>
    change (validator (.sequence es)).toOption = Validator.tuple <$> (validators es).toOption
    rw [validator]
    cases validators es <;> rfl

/-! ### Records -/

theorem collectFields_ok (fields : List (String × Validator)) :
    collectFields (fields.map fun f => (f.1, .ok f.2)) = .ok fields := by
  induction fields with
  | nil => rfl
  | cons f fields ih =>
    rw [List.map_cons, collectFields, ih]
    rfl

/-- One field at fault is enough. -/
theorem collectFields_error {fields : Entries (Except AliasError Validator)} {key : String}
    {error : AliasError} (h : (key, .error error) ∈ fields) :
    (collectFields fields).toOption = none := by
  induction fields with
  | nil => cases h
  | cons f fields ih =>
    obtain ⟨k, result⟩ := f
    rw [collectFields]
    cases result with
    | error => rfl
    | ok v =>
      have hrest := ih ((List.mem_cons.1 h).resolve_left nofun)
      cases hcollect : collectFields fields with
      | ok fs => rw [hcollect] at hrest; cases hrest
      | error => rfl

theorem assembleRecord_ok (fields : Entries Validator) :
    (assembleRecord (fields.map fun f => (f.1, .ok f.2))).toOption = Validator.ofFields fields := by
  rw [assembleRecord, Validator.ofFields, Entries.sort_map, Entries.repeatedKey?_map,
    collectFields_ok]
  cases fields.sort.repeatedKey? <;> rfl

theorem assembleRecord_error {fields : Entries (Except AliasError Validator)} {key : String}
    {error : AliasError} (h : (key, .error error) ∈ fields) :
    (assembleRecord fields).toOption = none := by
  have hcollect := collectFields_error ((Entries.perm_sort fields).mem_iff.2 h)
  rw [assembleRecord]
  cases fields.sort.repeatedKey? with
  | some key => rfl
  | none =>
    cases hfields : collectFields fields.sort with
    | ok fs => rw [hfields] at hcollect; cases hcollect
    | error => rfl

/-- The expressions describe validators, or one of them is at fault. -/
theorem fieldValidators_cases (keys : List String) (es : List (Expr F))
    (hlength : keys.length = es.length) :
    (∃ vs, validators es = .ok vs ∧ fieldValidators (keys.zip es) =
        (keys.zip vs).map fun f => (f.1, .ok f.2)) ∨
      ∃ error key error', validators es = .error error ∧
        (key, .error error') ∈ fieldValidators (keys.zip es) := by
  induction keys generalizing es with
  | nil =>
    obtain rfl := List.eq_nil_of_length_eq_zero hlength.symm
    exact .inl ⟨[], rfl, rfl⟩
  | cons key keys ih =>
    cases es with
    | nil => cases hlength
    | cons e es =>
      simp only [List.zip_cons_cons, fieldValidators, validators]
      cases he : e.validator with
      | error error => exact .inr ⟨error, key, error, rfl, List.mem_cons_self⟩
      | ok v =>
        obtain ⟨vs, hvs, hfields⟩ | ⟨error, key', error', herror, hmem⟩ :=
          ih es (Nat.succ.inj hlength)
        · exact .inl ⟨v :: vs, by rw [hvs]; rfl, by rw [hfields]; rfl⟩
        · exact .inr ⟨error, key', error', by rw [herror]; rfl, List.mem_cons_of_mem _ hmem⟩

/-- A record describes what its fields describe together. -/
theorem validator_record (keys : List String) {items : Except AliasError (List (Expr F))}
    (hlength : ∀ es, items = .ok es → keys.length = es.length) :
    ((fun es => Expr.record (keys.zip es)) <$> items >>= validator).toOption =
      (items >>= validators).toOption.bind fun vs => Validator.ofFields (keys.zip vs) := by
  cases items with
  | error => rfl
  | ok es =>
  change (validator (.record (keys.zip es))).toOption =
    (validators es).toOption.bind fun vs => Validator.ofFields (keys.zip vs)
  rw [validator]
  obtain ⟨vs, hvs, hfields⟩ | ⟨error, key, error', herror, hmem⟩ :=
    fieldValidators_cases keys es (hlength es rfl)
  · rw [hfields, hvs, assembleRecord_ok]
    rfl
  · rw [assembleRecord_error hmem, herror]
    rfl

end Expr

/-! ## Reading with a prelude alone -/

namespace Prelude

/-- What the names of a prelude stand for. -/
def validator? (prelude : Prelude) (name : String) : Option Validator :=
  (prelude.get? name).map Ty.validator

/-- Reads literals from left to right with the names of a prelude only. -/
def readItems (prelude : Prelude) (vs : List Json.Value) : Except AliasError (List TypeExpr) :=
  Literal.readItems (fun _ => pure none) prelude vs

theorem readItems_nil (prelude : Prelude) : prelude.readItems [] = .ok [] := by
  rw [readItems, Literal.readItems]
  rfl

theorem readItems_cons (prelude : Prelude) (v : Json.Value) (vs : List Json.Value) :
    prelude.readItems (v :: vs) = do
      let e ← prelude.read v
      let es ← prelude.readItems vs
      return e :: es := by
  rw [readItems, Literal.readItems]
  rfl

theorem readMembers_eq (prelude : Prelude) (members : List (String × Json.Value)) :
    Literal.readMembers (m := Except AliasError) (fun _ => pure none) prelude members =
      (fun es => (members.map Prod.fst).zip es) <$> prelude.readItems (members.map Prod.snd) := by
  induction members with
  | nil =>
    rw [Literal.readMembers, List.map_nil, List.map_nil, readItems_nil]
    rfl
  | cons m members ih =>
    rw [Literal.readMembers, ih, List.map_cons, List.map_cons, readItems_cons]
    change (do
      let first ← prelude.read m.2
      let rest ← (fun es => (members.map Prod.fst).zip es) <$>
        prelude.readItems (members.map Prod.snd)
      return (m.1, first) :: rest) = _
    cases prelude.read m.2 with
    | error => rfl
    | ok e => cases prelude.readItems (members.map Prod.snd) <;> rfl

theorem length_of_readItems {prelude : Prelude} {vs : List Json.Value} {es : List TypeExpr}
    (h : prelude.readItems vs = .ok es) : es.length = vs.length := by
  induction vs generalizing es with
  | nil =>
    rw [readItems_nil] at h
    obtain rfl := Except.ok.inj h
    rfl
  | cons v vs ih =>
    rw [readItems_cons] at h
    cases hv : prelude.read v with
    | error => rw [hv] at h; cases h
    | ok e =>
      cases hvs : prelude.readItems vs with
      | error => rw [hv, hvs] at h; cases h
      | ok rest =>
        rw [hv, hvs] at h
        obtain rfl := Except.ok.inj h
        rw [List.length_cons, ih hvs, List.length_cons]

theorem validators_readItems {prelude : Prelude} {names : String → Option Validator}
    {vs : List Json.Value}
    (h : ∀ v ∈ vs, (prelude.read v >>= Expr.validator).toOption = v.validator names) :
    (prelude.readItems vs >>= Expr.validators).toOption = Json.Value.validators names vs := by
  induction vs with
  | nil => rw [readItems_nil, Json.Value.validators]; rfl
  | cons v vs ih =>
    have hfirst := h v List.mem_cons_self
    have hrest := ih fun w hw => h w (List.mem_cons_of_mem _ hw)
    rw [readItems_cons, Json.Value.validators, ← hfirst, ← hrest]
    exact Expr.validators_cons ..

/-- **What a prelude alone reads a literal as** describes what the literal does with the names of the
prelude. -/
theorem validator_read (prelude : Prelude) (v : Json.Value) :
    (prelude.read v >>= Expr.validator).toOption = v.validator prelude.validator? := by
  induction v using Json.Value.memberInduction with
  | null | bool | number => rw [Json.Value.validator, Prelude.read, Literal.read]; rfl
  | string name =>
    rw [Json.Value.validator, Prelude.read, Literal.read, validator?, pure_bind]
    cases prelude.get? name <;> rfl
  | array items ih =>
    rw [Json.Value.validator, Prelude.read, Literal.read, ← validators_readItems ih]
    exact Expr.validator_sequence _
  | object members ih =>
    have hitems : (prelude.readItems (members.map Prod.snd) >>= Expr.validators).toOption =
        Json.Value.validators prelude.validator? (members.map Prod.snd) := by
      refine validators_readItems fun v hv => ?_
      obtain ⟨m, hm, rfl⟩ := List.mem_map.1 hv
      exact ih m hm
    have hlength (es : List TypeExpr) (hes : prelude.readItems (members.map Prod.snd) = .ok es) :
        (members.map Prod.fst).length = es.length := by
      rw [length_of_readItems hes, List.length_map, List.length_map]
    rw [Json.Value.validator, Prelude.read, Literal.read, Json.Value.memberValidators_eq, ← hitems,
      readMembers_eq]
    refine Eq.trans ?_ (Expr.validator_record (members.map Prod.fst) hlength)
    cases prelude.readItems (members.map Prod.snd) <;> rfl

end Prelude

end NamedTypes
