import NamedTypes.Proofs.Action
import NamedTypes.Proofs.Entries

/-! # What compiled types accept
`Expr.Matches` says which JSON values an expression describes, by its own shape: an array that
matches a sequence position by position, an object that has exactly the keys of a record. The type
that the expression is compiled into accepts exactly these values (`check_eq_true_iff_matches`).
A record validator only compares numbers of keys and looks the declared ones up; that this leaves
no room for an undeclared key rests on the keys being distinct on both sides: in the validator,
because compiling refuses repeated keys, and in the value, because an object is a map. -/

namespace NamedTypes

/-! ## Values and what describes them -/

/-- A JSON value in which no object has a key twice. -/
inductive Json.Value.WellFormed : Json.Value → Prop
  | null : WellFormed .null
  | bool (value : Bool) : WellFormed (.bool value)
  | number (value : Json.Number) : WellFormed (.number value)
  | string (value : String) : WellFormed (.string value)
  | array {items : List Json.Value} (items_wellFormed : ∀ v ∈ items, WellFormed v) :
    WellFormed (.array items)
  | object {members : Entries Json.Value} (nodup_keys : members.keys.Nodup)
    (members_wellFormed : ∀ m ∈ members, WellFormed m.2) : WellFormed (.object members)

namespace Expr

variable {F : Type}

/-- Which values an expression describes. Type functions and raw values describe none. -/
inductive Matches : Expr F → Json.Value → Prop
  /-- A type describes what it accepts. -/
  | leaf {type : Ty} {v : Json.Value} (accepted : type.check v = true) : Matches (.leaf type) v
  /-- A sequence describes the arrays of its length that match item by item. -/
  | sequence {items : List (Expr F)} {vs : List Json.Value} (length_eq : vs.length = items.length)
    (each : ∀ (i : Nat) (h : i < items.length) (h' : i < vs.length), Matches items[i] vs[i]) :
    Matches (.sequence items) (.array vs)
  /-- A record describes the objects with exactly its keys whose values match field by field. -/
  | record {fields : List (String × Expr F)} {members : Entries Json.Value}
    (same_keys : ∀ key, key ∈ members.keys ↔ key ∈ Entries.keys fields)
    (each : ∀ f ∈ fields, ∀ v, (f.1, v) ∈ members → Matches f.2 v) :
    Matches (.record fields) (.object members)

end Expr

/-! ## Checking tuples and records -/

namespace Validator

/-- A tuple compares position by position. -/
theorem checkItems_eq_true_iff {ts : List Validator} {vs : List Json.Value} :
    checkItems ts vs = true ↔ vs.length = ts.length ∧
      ∀ (i : Nat) (h : i < ts.length) (h' : i < vs.length), ts[i].check vs[i] = true := by
  induction ts generalizing vs with
  | nil => cases vs <;> simp [checkItems]
  | cons t ts ih =>
    cases vs with
    | nil => simp [checkItems]
    | cons v vs =>
      simp only [checkItems, Bool.and_eq_true, ih, List.length_cons, Nat.add_right_cancel_iff]
      constructor
      · rintro ⟨hhead, hlen, htail⟩
        refine ⟨hlen, fun i h h' => ?_⟩
        cases i with
        | zero => exact hhead
        | succ i => exact htail i (Nat.lt_of_succ_lt_succ h) (Nat.lt_of_succ_lt_succ h')
      · rintro ⟨hlen, hall⟩
        exact ⟨hall 0 (Nat.succ_pos _) (Nat.succ_pos _), hlen, fun i h h' =>
          hall (i + 1) (Nat.succ_lt_succ h) (Nat.succ_lt_succ h')⟩

/-- A record looks every field up. -/
theorem checkFields_eq_true_iff {fields : List (String × Validator)}
    {members : Entries Json.Value} :
    checkFields fields members = true ↔
      ∀ f ∈ fields, ∃ v, members.lookup f.1 = some v ∧ f.2.check v = true := by
  induction fields with
  | nil => simp [checkFields]
  | cons f fields ih =>
    obtain ⟨key, t⟩ := f
    rw [checkFields, Bool.and_eq_true, ih, List.forall_mem_cons]
    refine and_congr ?_ Iff.rfl
    cases members.lookup key <;> simp

end Validator

namespace Expr

variable {F : Type}

/-! ## What compiling gives -/

/-- Items compile from left to right, each on its own. -/
theorem validators_eq_ok_iff {items : List (Expr F)} {ts : List Validator} :
    validators items = .ok ts ↔ items.map validator = ts.map .ok := by
  induction items generalizing ts with
  | nil => cases ts <;> simp [validators]
  | cons e items ih =>
    rw [validators, List.map_cons]
    cases he : e.validator with
    | error error => cases ts <;> simp [Bind.bind, Except.bind]
    | ok t =>
      cases hrest : validators items with
      | error error =>
        have hne : ∀ us : List Validator, items.map validator ≠ us.map .ok := fun us h => by
          rw [ih.2 h] at hrest
          cases hrest
        cases ts <;> simp [Bind.bind, Except.bind, hne]
      | ok us =>
        have hus : items.map validator = us.map .ok := ih.1 hrest
        have hinj : Function.Injective (Except.ok : Validator → Except AliasError Validator) :=
          fun _ _ h => Except.ok.inj h
        cases ts with
        | nil => simp [Bind.bind, Except.bind, pure, Except.pure]
        | cons t' ts =>
          simp [Bind.bind, Except.bind, pure, Except.pure, hus, hinj.list_map.eq_iff]

/-- Fields are collected one after the other, each with its own validator. -/
theorem collectFields_eq_ok_iff {results : Entries (Except AliasError Validator)}
    {fields : List (String × Validator)} :
    collectFields results = .ok fields ↔ results = fields.map fun f => (f.1, .ok f.2) := by
  induction results generalizing fields with
  | nil => cases fields <;> simp [collectFields]
  | cons e results ih =>
    obtain ⟨key, result⟩ := e
    rw [collectFields]
    cases result with
    | error error => cases fields <;> simp [Bind.bind, Except.bind]
    | ok t =>
      cases hrest : collectFields results with
      | error error =>
        have hne : ∀ gs : List (String × Validator),
            results ≠ gs.map fun g => (g.1, .ok g.2) := fun gs h => by
          rw [ih.2 h] at hrest
          cases hrest
        cases fields <;> simp [Bind.bind, Except.bind, hne]
      | ok gs =>
        obtain rfl := ih.1 hrest
        have hinj : Function.Injective fun g : String × Validator =>
            (g.1, (.ok g.2 : Except AliasError Validator)) := by
          rintro ⟨k, v⟩ ⟨k', v'⟩ h
          simpa using h
        cases fields with
        | nil => simp [Bind.bind, Except.bind, pure, Except.pure]
        | cons f fields =>
          simp [Bind.bind, Except.bind, pure, Except.pure, hinj.list_map.eq_iff, Prod.ext_iff,
            and_assoc]

/-- A record compiles when no key is repeated and every value compiles; its fields are then the
compiled values by ascending key. -/
theorem validator_record_eq_ok_iff {fields : List (String × Expr F)} {t : Validator} :
    validator (.record fields) = .ok t ↔ (Entries.sort fields).repeatedKey? = none ∧
      ∃ ts : List (String × Validator), t = .record ts ∧
        (Entries.sort fields).map (fun f => (f.1, f.2.validator)) =
          ts.map fun f => (f.1, .ok f.2) := by
  rw [validator, assembleRecord, fieldValidators_eq_map, Entries.sort_map (α := Expr F) validator,
    Entries.repeatedKey?_map (α := Expr F) validator]
  cases hkey : (Entries.sort fields).repeatedKey? with
  | some key => simp
  | none =>
    simp only [← collectFields_eq_ok_iff, true_and]
    cases collectFields ((Entries.sort fields).map fun f => (f.1, f.2.validator)) <;>
      simp [Functor.map, Except.map, eq_comm]

end Expr

/-! ## Accepted is described -/

namespace Expr

variable {F : Type}

/-- A compiled sequence accepts what the sequence describes, if its items do. -/
theorem check_tuple_iff {items : List (Expr F)} {ts : List Validator}
    (hts : items.map validator = ts.map .ok)
    (ih : ∀ e ∈ items, ∀ t, e.validator = .ok t → ∀ v : Json.Value, v.WellFormed →
      (t.check v = true ↔ e.Matches v))
    {v : Json.Value} (hv : v.WellFormed) :
    (Validator.tuple ts).check v = true ↔ (Expr.sequence items).Matches v := by
  have hlen : items.length = ts.length := by simpa using congrArg List.length hts
  have hitem (i : Nat) (h : i < items.length) (h' : i < ts.length) :
      items[i].validator = .ok ts[i] := by
    have hi : (items.map validator)[i]? = (ts.map .ok)[i]? := by rw [hts]
    simpa [h, h'] using hi
  cases hv with
  | array hvs =>
    rw [Validator.check, Validator.checkItems_eq_true_iff]
    constructor
    · rintro ⟨hvlen, hall⟩
      refine .sequence (hvlen.trans hlen.symm) fun i h h' => ?_
      have hts' : i < ts.length := hlen ▸ h
      exact (ih _ (List.getElem_mem h) _ (hitem i h hts') _ (hvs _ (List.getElem_mem h'))).1
        (hall i hts' h')
    · intro hmatch
      cases hmatch with
      | sequence hvlen hall =>
        refine ⟨hvlen.trans hlen, fun i h h' => ?_⟩
        have hi : i < items.length := hlen ▸ h
        exact (ih _ (List.getElem_mem hi) _ (hitem i hi h) _ (hvs _ (List.getElem_mem h'))).2
          (hall i hi h')
  | _ =>
    -- a value of another kind is refused, and it is not described either
    exact iff_of_false (by simp [Validator.check]) (by rintro ⟨⟩)

/-- A compiled record accepts what the record describes, if its fields do. -/
theorem check_record_iff {fields : List (String × Expr F)} {ts : List (String × Validator)}
    (hkey : (Entries.sort fields).repeatedKey? = none)
    (hts : (Entries.sort fields).map (fun f => (f.1, f.2.validator)) = ts.map fun f => (f.1, .ok f.2))
    (ih : ∀ f ∈ fields, ∀ t, f.2.validator = .ok t → ∀ v : Json.Value, v.WellFormed →
      (t.check v = true ↔ f.2.Matches v))
    {v : Json.Value} (hv : v.WellFormed) :
    (Validator.record ts).check v = true ↔ (Expr.record fields).Matches v := by
  -- the compiled record has the keys of the expression, each once
  have hkeys : Entries.keys ts = (Entries.sort fields).keys := by
    have := congrArg (List.map Prod.fst) hts
    simpa [Entries.keys, Function.comp_def] using this.symm
  have hnodup : (Entries.keys ts).Nodup := hkeys ▸ (Entries.ascending_sort hkey).nodup_keys
  have hmemKeys (key : String) : key ∈ Entries.keys ts ↔ key ∈ Entries.keys fields := by
    rw [hkeys, Entries.mem_keys_sort]
  have hfield (f : String × Expr F) (hf : f ∈ fields) :
      ∃ t, (f.1, t) ∈ ts ∧ f.2.validator = .ok t := by
    have hin : (f.1, f.2.validator) ∈ ts.map fun g => (g.1, .ok g.2) :=
      hts ▸ List.mem_map.2 ⟨f, (Entries.perm_sort fields).mem_iff.2 hf, rfl⟩
    obtain ⟨⟨key, t⟩, hg, heq⟩ := List.mem_map.1 hin
    obtain ⟨rfl, ht⟩ := Prod.mk.inj heq
    exact ⟨t, hg, ht.symm⟩
  have hsource (g : String × Validator) (hg : g ∈ ts) :
      ∃ e, (g.1, e) ∈ fields ∧ e.validator = .ok g.2 := by
    have hin : (g.1, .ok g.2) ∈ (Entries.sort fields).map fun f => (f.1, f.2.validator) :=
      hts ▸ List.mem_map.2 ⟨g, hg, rfl⟩
    obtain ⟨⟨key, e⟩, hf, heq⟩ := List.mem_map.1 hin
    obtain ⟨rfl, he⟩ := Prod.mk.inj heq
    exact ⟨e, (Entries.perm_sort fields).mem_iff.1 hf, he⟩
  cases hv with
  | @object members hmembers hwell =>
    rw [Validator.check, Bool.and_eq_true, beq_iff_eq, Validator.checkFields_eq_true_iff]
    constructor
    · rintro ⟨hlen, hall⟩
      -- every declared key is present, and there are no more members than declared keys
      have hsub : Entries.keys ts ⊆ Entries.keys members := fun key hk => by
        obtain ⟨t, ht⟩ := Entries.mem_keys_iff.1 hk
        obtain ⟨w, hw, -⟩ := hall _ ht
        exact Entries.mem_keys_iff.2 ⟨w, (Entries.lookup_eq_some_iff hmembers).1 hw⟩
      have hperm : (Entries.keys ts).Perm (Entries.keys members) :=
        (hnodup.subperm hsub).perm_of_length_le (by simp [Entries.keys, hlen])
      refine .record (fun key => hperm.mem_iff.symm.trans (hmemKeys key)) fun f hf w hw => ?_
      obtain ⟨t, ht, hcompiled⟩ := hfield f hf
      obtain ⟨w', hw', haccept⟩ := hall _ ht
      have hwin : (f.1, w') ∈ members := (Entries.lookup_eq_some_iff hmembers).1 hw'
      obtain rfl : w' = w := Option.some.inj
        (hw'.symm.trans ((Entries.lookup_eq_some_iff hmembers).2 hw))
      exact (ih f hf t hcompiled w' (hwell _ hwin)).1 haccept
    · intro hmatch
      cases hmatch with
      | record hsame hall =>
        have hperm : (Entries.keys members).Perm (Entries.keys ts) :=
          (List.perm_ext_iff_of_nodup hmembers hnodup).2 fun key =>
            (hsame key).trans (hmemKeys key).symm
        refine ⟨by simpa [Entries.keys] using hperm.length_eq, fun g hg => ?_⟩
        obtain ⟨e, he, hcompiled⟩ := hsource g hg
        have hkey : g.1 ∈ Entries.keys members :=
          (hsame g.1).2 (Entries.mem_keys_iff.2 ⟨e, he⟩)
        obtain ⟨w, hw⟩ := Entries.mem_keys_iff.1 hkey
        refine ⟨w, (Entries.lookup_eq_some_iff hmembers).2 hw, ?_⟩
        exact (ih _ he _ hcompiled w (hwell _ hw)).2 (hall _ he w hw)
  | _ =>
    -- a value of another kind is refused, and it is not described either
    exact iff_of_false (by simp [Validator.check]) (by rintro ⟨⟩)

/-- The validator of an expression accepts exactly the values that the expression describes. -/
theorem check_validator_iff (e : Expr F) : ∀ t, e.validator = .ok t → ∀ v : Json.Value,
    v.WellFormed → (t.check v = true ↔ e.Matches v) := by
  induction e using memberInduction with
  | leaf type =>
    intro t ht v _
    rw [validator] at ht
    obtain rfl := Except.ok.inj ht
    exact ⟨.leaf, fun h => by cases h with | leaf h => exact h⟩
  | sequence items ih =>
    intro t ht v hv
    rw [validator] at ht
    cases hts : validators items with
    | error error => simp [hts, Functor.map, Except.map] at ht
    | ok ts =>
      obtain rfl : Validator.tuple ts = t := by simpa [hts, Functor.map, Except.map] using ht
      exact check_tuple_iff (validators_eq_ok_iff.1 hts) ih hv
  | record fields ih =>
    intro t ht v hv
    obtain ⟨hkey, ts, rfl, hts⟩ := validator_record_eq_ok_iff.1 ht
    exact check_record_iff hkey hts ih hv
  | generator function =>
    intro t ht
    rw [validator] at ht
    cases ht
  | data value =>
    intro t ht
    rw [validator] at ht
    cases ht

end Expr

/-- **Compiled types accept what their literals describe.** Whatever an expression is built from, the
type that it is compiled into accepts a value exactly if the expression describes the value. -/
theorem check_eq_true_iff_matches {e : TypeExpr} {r r' : Registry} {t : Ty}
    (h : Action.normalizeType e r = some (.ok t, r')) {v : Json.Value} (hv : v.WellFormed) :
    t.check v = true ↔ e.Matches v :=
  e.check_validator_iff _ (Action.validator_of_normalizeType h) v hv

/-- A record inside a sequence, written out of order, refuses an object with a key too many. -/
theorem check_undeclared_key :
    let int : Ty := ⟨0, .primitive .int⟩
    let fields : List (String × TypeExpr) := [("b", .leaf int), ("a", .sequence [.leaf int])]
    let one : Json.Value := .number (.int 1)
    let v : Json.Value := .array [.object [("a", .array [one]), ("b", one), ("c", one)]]
    let t : Ty := ⟨0, .tuple [.record [("a", .tuple [.primitive .int]), ("b", .primitive .int)]]⟩
    Action.normalizeType (.sequence [.record fields]) {} =
        some (.ok t, ({} : Registry).newType t.validator |>.2) ∧
      v.WellFormed ∧ t.check v = false ∧ ¬ (Expr.sequence [.record fields]).Matches v := by
  intro int fields one v t
  have h : Action.normalizeType (.sequence [.record fields]) {} =
      some (.ok t, ({} : Registry).newType t.validator |>.2) := by cbv
  have hone : one.WellFormed := .number _
  have hv : v.WellFormed := by
    refine .array fun w hw => ?_
    obtain rfl := List.mem_singleton.1 hw
    refine .object (by decide) ?_
    simp only [List.forall_mem_cons, List.not_mem_nil, false_implies, implies_true, and_true]
    refine ⟨.array fun u hu => ?_, hone, hone⟩
    exact List.mem_singleton.1 hu ▸ hone
  have hrefused : t.check v = false := by decide
  refine ⟨h, hv, hrefused, fun hmatch => ?_⟩
  rw [(check_eq_true_iff_matches h hv).2 hmatch] at hrefused
  cases hrefused

end NamedTypes
