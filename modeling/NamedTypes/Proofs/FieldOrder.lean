import NamedTypes.Proofs.Acceptance
import NamedTypes.Proofs.Alike

/-! # The order of fields
Expressions that differ only in the order in which the fields of their records are written, at any
depth, describe the same type or have the same fault (`field_order_immaterial`). Two observations
carry this. Fields in any order have the same keys once they are sorted, so the same key is reported
as repeated; and if no key is repeated, there is only one sorted arrangement, so from then on
everything happens in the same order. -/

namespace NamedTypes

/-- Entries with the same keys and the same values are the same. -/
theorem Entries.Paired.eq {α : Type} {es fs : Entries α} (h : Entries.Paired Eq es fs) :
    es = fs := by
  induction h with
  | nil => rfl
  | cons related _ ih => rw [related, ih]

namespace Expr

variable {F : Type}

/-- Expressions that differ only in the order of fields: a record on the one side is a record on the
other, with fields that correspond to each other up to their order. -/
inductive Reordered : Expr F → Expr F → Prop
  | leaf {type : Ty} : Reordered (.leaf type) (.leaf type)
  | sequence {es es' : List (Expr F)} (items : List.Forall₂ Reordered es es') :
    Reordered (.sequence es) (.sequence es')
  | record {fields fields' fields'' : List (String × Expr F)}
    (paired : Entries.Paired Reordered fields fields') (perm : fields'.Perm fields'') :
    Reordered (.record fields) (.record fields'')
  | generator {function : F} : Reordered (.generator function) (.generator function)
  | data {value : Json.Value} : Reordered (.data value) (.data value)

/-- The validator is put together from the types of the expression as its sequences and records
tell. The fields of every record put together are those of the expression, with strictly ascending
keys. -/
inductive Composes : Expr F → Validator → Prop
  | leaf {type : Ty} : Composes (.leaf type) type.validator
  | sequence {es : List (Expr F)} {ts : List Validator} (items : List.Forall₂ Composes es ts) :
    Composes (.sequence es) (.tuple ts)
  | record {fields sorted : List (String × Expr F)} {ts : List (String × Validator)}
    (perm : fields.Perm sorted) (paired : Entries.Paired Composes sorted ts)
    (ascending : Entries.Ascending ts) : Composes (.record fields) (.record ts)

/-! ## Records -/

/-- Whatever the fields of a record come to, their order does not matter. -/
theorem assembleRecord_of_perm {results results' : Entries (Except AliasError Validator)}
    (h : results.Perm results') : assembleRecord results = assembleRecord results' := by
  have hrepeated : results.sort.repeatedKey? = results'.sort.repeatedKey? :=
    Entries.repeatedKey?_of_keys_eq (Entries.keys_sort_of_perm h)
  rw [assembleRecord, assembleRecord, ← hrepeated]
  -- a repeated key is reported before the fields are looked at
  cases hkey : results.sort.repeatedKey? with
  | some key => rfl
  | none => rw [Entries.sort_of_perm h hkey]

/-! ## The same validator or the same fault -/

theorem validators_of_forall₂ {R : Expr F → Expr F → Prop} {es es' : List (Expr F)}
    (h : List.Forall₂ R es es') (ih : ∀ e ∈ es, ∀ e', R e e' → e.validator = e'.validator) :
    validators es = validators es' := by
  induction h with
  | nil => rfl
  | cons related _ ihrest =>
    rw [validators, validators, ih _ List.mem_cons_self _ related,
      ihrest fun e he => ih e (List.mem_cons_of_mem _ he)]

/-- Expressions that differ in the order of fields only come to the same. -/
theorem Reordered.validator_eq {e : Expr F} :
    ∀ {e' : Expr F}, Reordered e e' → e.validator = e'.validator := by
  induction e using memberInduction with
  | leaf type => rintro _ ⟨⟩; rfl
  | sequence items ih =>
    intro e' h
    cases h with
    | sequence hitems =>
      rw [validator, validator, validators_of_forall₂ hitems fun e he e' => ih e he]
  | record fields ih =>
    intro e' h
    cases h with
    | record paired perm =>
      -- first the values are exchanged, each for one that comes to the same, and then the order is
      rw [validator, validator, fieldValidators_eq_map, fieldValidators_eq_map,
        (paired.map (S := Eq) fun f hf e' => ih f hf).eq]
      exact assembleRecord_of_perm (perm.map _)
  | generator function => rintro _ ⟨⟩; rfl
  | data value => rintro _ ⟨⟩; rfl

/-! ## How validators are put together -/

/-- Items that come to validators one by one, with what is known of each item. -/
theorem forall₂_of_validators {R : Expr F → Validator → Prop} {es : List (Expr F)}
    {ts : List Validator} (h : validators es = .ok ts)
    (ih : ∀ e ∈ es, ∀ {t}, e.validator = .ok t → R e t) : List.Forall₂ R es ts := by
  have hmaps : List.Forall₂ Eq (es.map validator) (ts.map .ok) := by
    rw [validators_eq_ok_iff.1 h]
    exact List.forall₂_refl _
  have heach := List.forall₂_map_left_iff.1 (List.forall₂_map_right_iff.1 hmaps)
  exact ((List.forall₂_and_left _ _).2 ⟨fun e he => @ih e he, heach⟩).imp fun _ _ h => h.1 h.2

/-- Fields whose values come to validators one by one, with what is known of each value. -/
theorem paired_of_validators {R : Expr F → Validator → Prop} {fields : Entries (Expr F)}
    {ts : Entries Validator}
    (h : (fields.map fun f => (f.1, f.2.validator)) = ts.map fun f => (f.1, .ok f.2))
    (ih : ∀ f ∈ fields, ∀ {t}, f.2.validator = .ok t → R f.2 t) : Entries.Paired R fields ts := by
  induction fields generalizing ts with
  | nil =>
    cases ts with
    | nil => exact .nil
    | cons => cases h
  | cons f fields ihrest =>
    cases ts with
    | nil => cases h
    | cons t ts =>
      obtain ⟨hfirst, hrest⟩ := List.cons.inj h
      obtain ⟨key, e⟩ := f
      obtain ⟨key', v⟩ := t
      obtain ⟨rfl, hvalidator⟩ := Prod.mk.inj hfirst
      exact .cons (ih _ List.mem_cons_self hvalidator)
        (ihrest hrest fun f hf => ih f (List.mem_cons_of_mem _ hf))

/-- Every record in a compiled validator has its fields in strictly ascending order. -/
theorem composes_of_validator {e : Expr F} :
    ∀ {v : Validator}, e.validator = .ok v → Composes e v := by
  induction e using memberInduction with
  | leaf type =>
    intro v h
    obtain rfl := Except.ok.inj h
    exact .leaf
  | sequence items ih =>
    intro v h
    rw [validator] at h
    cases hitems : validators items with
    | error error => rw [hitems] at h; cases h
    | ok ts =>
      rw [hitems] at h
      obtain rfl := Except.ok.inj h
      exact .sequence (forall₂_of_validators hitems ih)
  | record fields ih =>
    intro v h
    obtain ⟨hnone, ts, rfl, hts⟩ := validator_record_eq_ok_iff.1 h
    have hperm : (Entries.sort fields).Perm fields := Entries.perm_sort fields
    refine .record hperm.symm
      (paired_of_validators hts fun f hf => ih f (hperm.mem_iff.1 hf)) ?_
    -- the keys of the validator are those of the sorted fields
    have hasc : Entries.Ascending ((Entries.sort fields).map fun f => (f.1, f.2.validator)) :=
      List.pairwise_map.2 (Entries.ascending_sort hnone)
    rw [hts, Entries.Ascending, List.pairwise_map] at hasc
    exact hasc
  | generator function => intro v h; cases h
  | data value => intro v h; cases h

end Expr

/-- **The order of fields never matters, not even for faults.** Let two expressions differ only in
the order in which the fields of records are written, at any number of places and any depth; keys
may be repeated, and raw values and type functions may stand anywhere. Compiled on whatever
registries, either both fail with the same error, or both come to types that render alike and accept
the same values, put together so that the fields of every record ascend strictly. -/
theorem field_order_immaterial {e e' : TypeExpr} (h : e.Reordered e') (r r' : Registry) :
    (∃ error, Action.normalizeType e r = some (.error error, r) ∧
        Action.normalizeType e' r' = some (.error error, r')) ∨
      ∃ (t t' : Ty) (r₁ r₁' : Registry), Action.normalizeType e r = some (.ok t, r₁) ∧
        Action.normalizeType e' r' = some (.ok t', r₁') ∧ t.describe = t'.describe ∧
        (∀ v, t.check v = t'.check v) ∧ e.Composes t.validator ∧ e'.Composes t'.validator := by
  have hvalidator := h.validator_eq
  have hleft := Action.normalizeType_apply e r
  have hright := Action.normalizeType_apply e' r'
  -- both compile or neither does, since they come to the same validator
  rw [← e.validator_compile, ← e'.validator_compile] at hvalidator
  cases hc : e.compile with
  | error error =>
    cases hc' : e'.compile with
    | ok c' => rw [hc, hc'] at hvalidator; cases hvalidator
    | error error' =>
      rw [hc, hc'] at hvalidator
      obtain rfl := Except.error.inj hvalidator
      rw [hc] at hleft
      rw [hc'] at hright
      exact .inl ⟨error, hleft, hright⟩
  | ok c =>
    cases hc' : e'.compile with
    | error error' => rw [hc, hc'] at hvalidator; cases hvalidator
    | ok c' =>
      rw [hc] at hleft
      rw [hc'] at hright
      have ht := Action.validator_of_normalizeType hleft
      have ht' := Action.validator_of_normalizeType hright
      have hsame : (c.instantiate r).1.validator = (c'.instantiate r').1.validator :=
        Except.ok.inj (ht.symm.trans (h.validator_eq.trans ht'))
      refine .inr ⟨_, _, _, _, hleft, hright, ?_, fun v => ?_, Expr.composes_of_validator ht,
        Expr.composes_of_validator ht'⟩
      · rw [Ty.describe, Ty.describe, hsame]
      · rw [Ty.check, Ty.check, hsame]

/-- Two records in two orders each, one inside of the other. -/
theorem nested_records_reordered :
    let int : Ty := ⟨0, .primitive .int⟩
    let str : Ty := ⟨1, .primitive .str⟩
    let e : TypeExpr :=
      .record [("b", .sequence [.record [("y", .leaf int), ("x", .leaf str)]]), ("a", .leaf int)]
    let e' : TypeExpr :=
      .record [("a", .leaf int), ("b", .sequence [.record [("x", .leaf str), ("y", .leaf int)]])]
    e.Reordered e' ∧ ∃ (t t' : Ty) (r₁ r₁' : Registry),
      Action.normalizeType e {} = some (.ok t, r₁) ∧
      Action.normalizeType e' {} = some (.ok t', r₁') ∧
      t.describe = "Record\x7ba: Int, b: Tuple[Record\x7bx: Str, y: Int\x7d]\x7d" ∧
      t.describe = t'.describe ∧ (∀ v, t.check v = t'.check v) ∧ e'.Composes t'.validator := by
  intro int str e e'
  have hreordered : e.Reordered e' :=
    .record (.cons (.sequence (.cons (.record (.cons .leaf (.cons .leaf .nil)) (.swap ..)) .nil))
      (.cons .leaf .nil)) (.swap ..)
  have hvalidator : e.validator = .ok (.record [("a", int.validator),
      ("b", .tuple [.record [("x", str.validator), ("y", int.validator)]])]) := by cbv
  obtain ⟨error, herror, -⟩ | ⟨t, t', r₁, r₁', hleft, hright, hdescribe, hcheck, -, hcomposes⟩ :=
    field_order_immaterial hreordered {} {}
  · cases hvalidator.symm.trans (Action.error_of_normalizeType herror)
  · have ht := Except.ok.inj (hvalidator.symm.trans (Action.validator_of_normalizeType hleft))
    have hrendered : t.describe =
        "Record\x7ba: Int, b: Tuple[Record\x7bx: Str, y: Int\x7d]\x7d" := by
      rw [Ty.describe, ← ht]
      decide
    exact ⟨hreordered, t, t', r₁, r₁', hleft, hright, hrendered, hdescribe, hcheck, hcomposes⟩

end NamedTypes
