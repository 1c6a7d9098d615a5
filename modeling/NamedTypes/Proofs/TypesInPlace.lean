import NamedTypes.Proofs.Alike
import NamedTypes.Proofs.PlainAlias

/-! # Types in place of expressions
A part of an expression may be exchanged for a type that stands for it: one that the part was
compiled into on its own, or one with which a name that is bound to the part has answered
(`StandsFor`). Parts may be exchanged at any number of places and any depth (`Expr.Exchanged`); what
comes of the whole, its first fault included, stays the same (`normalization_compositional`).

A type that stands for a part holds the validator of the part, so an exchange is not seen by
`Expr.validator`, and a part without fault hides no fault that would be met later. -/

namespace NamedTypes

namespace Expr

variable {F : Type} {R : Expr F → Ty → Prop}

/-- The second expression is the first one with parts exchanged for types that are related to them.
What stands inside of an exchanged part is gone. -/
inductive Exchanged (R : Expr F → Ty → Prop) : Expr F → Expr F → Prop
  /-- A part is exchanged. -/
  | exchanged {e : Expr F} {t : Ty} (stands : R e t) : Exchanged R e (.leaf t)
  | leaf {t : Ty} : Exchanged R (.leaf t) (.leaf t)
  | sequence {es es' : List (Expr F)} (items : List.Forall₂ (Exchanged R) es es') :
    Exchanged R (.sequence es) (.sequence es')
  | record {fields fields' : List (String × Expr F)}
    (paired : Entries.Paired (Exchanged R) fields fields') :
    Exchanged R (.record fields) (.record fields')
  | generator {function : F} : Exchanged R (.generator function) (.generator function)
  | data {value : Json.Value} : Exchanged R (.data value) (.data value)

/-- Items that come to the same one by one come to the same together. -/
theorem validators_of_exchanged {es es' : List (Expr F)} (h : List.Forall₂ (Exchanged R) es es')
    (ih : ∀ e ∈ es, ∀ e', Exchanged R e e' → e.validator = e'.validator) :
    validators es = validators es' := by
  induction h with
  | nil => rfl
  | cons first _ ihrest =>
    rw [validators, validators, ih _ List.mem_cons_self _ first,
      ihrest fun e he => ih e (List.mem_cons_of_mem _ he)]

/-- Fields that come to the same one by one are the same once they are compiled. -/
theorem fieldValidators_of_exchanged {fields fields' : List (String × Expr F)}
    (h : Entries.Paired (Exchanged R) fields fields')
    (ih : ∀ f ∈ fields, ∀ e', Exchanged R f.2 e' → f.2.validator = e'.validator) :
    fieldValidators fields = fieldValidators fields' := by
  induction h with
  | nil => rfl
  | cons first _ ihrest =>
    rw [fieldValidators, fieldValidators, ih _ List.mem_cons_self _ first,
      ihrest fun f hf => ih f (List.mem_cons_of_mem _ hf)]

/-- **Exchanging parts for types that hold their validators is not seen.** -/
theorem Exchanged.validator_eq (hR : ∀ e t, R e t → e.validator = .ok t.validator) {e : Expr F} :
    ∀ {e' : Expr F}, Exchanged R e e' → e.validator = e'.validator := by
  induction e using memberInduction with
  | leaf type =>
    intro e' h
    cases h with
    | exchanged stands => exact hR _ _ stands
    | leaf => rfl
  | sequence items ih =>
    intro e' h
    cases h with
    | exchanged stands => exact hR _ _ stands
    | sequence hitems =>
      rw [validator, validator, validators_of_exchanged hitems fun e he e' => ih e he]
  | record fields ih =>
    intro e' h
    cases h with
    | exchanged stands => exact hR _ _ stands
    | record paired =>
      -- the keys are the same, so the fields are arranged in the same order
      rw [validator, validator, fieldValidators_of_exchanged paired fun f hf e' => ih f hf]
  | generator function =>
    intro e' h
    cases h with
    | exchanged stands => exact hR _ _ stands
    | generator => rfl
  | data value =>
    intro e' h
    cases h with
    | exchanged stands => exact hR _ _ stands
    | data => rfl

end Expr

/-! ## Types that stand for expressions -/

/-- In a history that began when a name was bound to the expression, which is no type function, the
name was accessed without arguments, by users, a body or a literal, and this was the answer. -/
inductive AnsweredFor (source : TypeExpr) (answer : Except AliasError (Normalized Generator)) : Prop
  | intro {fuel fuel' : Nat} {a : Accessor} {r r₁ : Registry} {ops : List Operation}
    {log : List Visit} {steps : List (Except AliasError Outcome × Registry)} {v : Visit}
    (bound : Registry.BoundTo fuel a source r r₁) (isSome_space : (r.space? a.space).isSome)
    (noFunction : ∀ f, source ≠ .generator f)
    (history : Registry.History fuel' ops r₁ log steps) (mem : v ∈ log)
    (isBare : v.isBare a = true) (answer_eq : v.answer = answer)

/-- A type that stands for an expression. -/
inductive StandsFor (e : TypeExpr) (t : Ty) : Prop
  /-- The expression was compiled into the type, on whatever registry. -/
  | compiled {r r' : Registry} (compiled : Action.normalizeType e r = some (.ok t, r'))
  /-- A name that is bound to the expression has answered with the type. -/
  | answered (answered : AnsweredFor e (.ok (.type t)))

/-- Each access in the story of a plain alias comes to what the source comes to. -/
theorem Story.comesTo {a : Accessor} {source : TypeExpr} {kept kept' : Option Ty}
    {vs : List Visit} (h : Story a source kept vs kept')
    (hkept : ∀ t, kept = some t → source.validator = .ok t.validator) :
    ∀ v ∈ vs, (∃ t : Ty, v.answer = .ok (.type t) ∧ source.validator = .ok t.validator) ∨
      ∃ error, v.answer = .error error ∧ source.validator = .error error := by
  induction h with
  | done => exact nofun
  | @first t v vs _ compiled _ isFirst _ ih =>
    refine List.forall_mem_cons.2 ⟨.inl ⟨t, isFirst.answer_eq, compiled⟩, ih fun u hu => ?_⟩
    exact Option.some.inj hu ▸ compiled
  | @hit t v vs _ isHit _ ih =>
    exact List.forall_mem_cons.2 ⟨.inl ⟨t, isHit.answer_eq, hkept t rfl⟩, ih hkept⟩
  | @failure error v vs _ faulty isFailure _ ih =>
    exact List.forall_mem_cons.2 ⟨.inr ⟨error, isFailure.answer_eq, faulty⟩, ih hkept⟩

/-- A name comes to what the expression comes to that it is bound to. -/
theorem AnsweredFor.comesTo {source : TypeExpr} {answer : Except AliasError (Normalized Generator)}
    (h : AnsweredFor source answer) :
    (∃ t : Ty, answer = .ok (.type t) ∧ source.validator = .ok t.validator) ∨
      ∃ error, answer = .error error ∧ source.validator = .error error := by
  obtain ⟨bound, hspace, noFunction, history, mem, isBare, rfl⟩ := h
  obtain ⟨kept, hstory⟩ := Registry.story_of_history history
    (Registry.alias?_of_boundTo bound hspace noFunction)
  exact hstory.comesTo nofun _ (List.mem_filter.2 ⟨mem, isBare⟩)

/-- What a bound name answers when it is got is an answer for its source. -/
theorem AnsweredFor.of_get {fuel fuel' : Nat} {a : Accessor} {source : TypeExpr}
    {r r₁ r₂ : Registry} {outcome : Except AliasError Outcome}
    (bound : Registry.BoundTo fuel a source r r₁) (isSome_space : (r.space? a.space).isSome)
    (noFunction : ∀ f, source ≠ .generator f)
    (got : Registry.perform fuel' (.use .get a []) r₁ = some (outcome, r₂)) :
    ∃ answer, AnsweredFor source answer ∧ outcome = .answer <$> answer := by
  have hrun : Registry.performAll fuel' [.use .get a []] r₁ = some [(outcome, r₂)] := by
    simp [Registry.performAll, got]
  obtain ⟨log, hlog⟩ := Registry.exists_history hrun
  cases hlog with
  | cons first others =>
    cases first with
    | direct isDirect => cases isDirect
    | use accesses =>
      obtain ⟨fuel, rfl⟩ : ∃ n, fuel' = n + 1 := by
        cases fuel' with
        | zero => exact accesses.elim
        | succ n => exact ⟨n, rfl⟩
      have hhistory := Registry.History.cons (.use accesses) others
      cases accesses with
      | intro resolves answer_eq =>
        exact ⟨_, .intro bound isSome_space noFunction hhistory
          (List.mem_append_left _ (List.mem_append_right _ List.mem_cons_self))
          (by simp [Visit.isBare, AccessKind.given]) answer_eq.symm, rfl⟩

/-- A type that stands for an expression holds its validator. -/
theorem StandsFor.validator_eq {e : TypeExpr} {t : Ty} (h : StandsFor e t) :
    e.validator = .ok t.validator := by
  cases h with
  | compiled compiled => exact Action.validator_of_normalizeType compiled
  | answered answered =>
    obtain ⟨u, hu, hvalidator⟩ | ⟨error, herror, -⟩ := answered.comesTo
    · cases hu
      exact hvalidator
    · cases herror

/-! ## Compiling -/

namespace Action

/-- An expression whose first fault is known ends with it on every registry. -/
theorem normalizeType_of_validator_error {e : TypeExpr} {error : AliasError}
    (h : e.validator = .error error) (r : Registry) :
    normalizeType e r = some (.error error, r) := by
  rw [← e.validator_compile] at h
  rw [normalizeType_apply]
  cases hc : e.compile with
  | ok c => rw [hc] at h; cases h
  | error error' =>
    rw [hc] at h
    obtain rfl := Except.error.inj h
    rfl

/-- An expression that has a validator is compiled into a type that holds it, on every registry. -/
theorem normalizeType_of_validator_ok {e : TypeExpr} {v : Validator} (h : e.validator = .ok v)
    (r : Registry) : ∃ t r', normalizeType e r = some (.ok t, r') ∧ t.validator = v := by
  rw [← e.validator_compile] at h
  rw [normalizeType_apply]
  cases hc : e.compile with
  | ok c =>
    rw [hc] at h
    obtain rfl := Except.ok.inj h
    exact ⟨_, _, rfl, c.validator_instantiate r⟩
  | error error => rw [hc] at h; cases h

end Action

/-- **Compiling is compositional.** Let parts of an expression be exchanged for types that stand for
them, at any places. Compiled on whatever registries, the two expressions either fail with the same
error, or come to types that render alike and accept the same values. In particular, what an
expression was compiled into is compiled into itself again, the very same instance; and where a name
that is bound to the expression has failed, the expression written in place fails in the same way.
-/
theorem normalization_compositional {e e' : TypeExpr} (h : e.Exchanged StandsFor e')
    (r r' : Registry) :
    ((∃ error, Action.normalizeType e r = some (.error error, r) ∧
        Action.normalizeType e' r' = some (.error error, r')) ∨
      ∃ (t t' : Ty) (r₁ r₁' : Registry), Action.normalizeType e r = some (.ok t, r₁) ∧
        Action.normalizeType e' r' = some (.ok t', r₁') ∧ t.describe = t'.describe ∧
        ∀ v, t.check v = t'.check v) ∧
    (∀ t r₁, Action.normalizeType e r = some (.ok t, r₁) →
      Action.normalizeType (.leaf t) r' = some (.ok t, r')) ∧
    ∀ error, AnsweredFor e (.error error) → Action.normalizeType e r = some (.error error, r) := by
  refine ⟨?_, fun t r₁ _ => rfl, fun error answered => ?_⟩
  · -- what comes of an expression is told by its validator, or by the fault that stands for it
    have hsame : e.validator = e'.validator := h.validator_eq fun e t => StandsFor.validator_eq
    cases hv : e.validator with
    | error error =>
      exact .inl ⟨error, Action.normalizeType_of_validator_error hv r,
        Action.normalizeType_of_validator_error (hsame ▸ hv) r'⟩
    | ok v =>
      obtain ⟨t, r₁, hleft, ht⟩ := Action.normalizeType_of_validator_ok hv r
      obtain ⟨t', r₁', hright, ht'⟩ := Action.normalizeType_of_validator_ok (hsame ▸ hv) r'
      refine .inr ⟨t, t', r₁, r₁', hleft, hright, ?_, fun value => ?_⟩
      · rw [Ty.describe, Ty.describe, ht, ht']
      · rw [Ty.check, Ty.check, ht, ht']
  · obtain ⟨u, hu, -⟩ | ⟨error', herror, hvalidator⟩ := answered.comesTo
    · cases hu
    · cases herror
      exact Action.normalizeType_of_validator_error hvalidator r

/-- A row holds the same pair in two places. The first is exchanged for what the pair was compiled
into on another registry, the second for the answer of a name that is bound to it. -/
theorem row_with_types_in_place :
    let int : Ty := ⟨0, .primitive .int⟩
    let str : Ty := ⟨1, .primitive .str⟩
    let pair : TypeExpr := .sequence [.leaf int, .leaf str]
    let row (first second : TypeExpr) : TypeExpr :=
      .record [("rest", .sequence [first, .leaf int]), ("head", second)]
    let r := ((Registry.newType {} int.validator).2.newType str.validator).2
    ∃ t u : Ty, StandsFor pair t ∧ AnsweredFor pair (.ok (.type u)) ∧
      ∃ (w w' : Ty) (r₁ r₂ : Registry),
        Action.normalizeType (row pair pair) r = some (.ok w, r₁) ∧
        Action.normalizeType (row (.leaf t) (.leaf u)) r = some (.ok w', r₂) ∧
        w.describe = "Record\x7bhead: Tuple[Int, Str], rest: Tuple[Tuple[Int, Str], Int]\x7d" ∧
        w'.describe = w.describe ∧ ∀ v, w.check v = w'.check v := by
  intro int str pair row r
  obtain ⟨t, r', hcompiled⟩ : ∃ t r', Action.normalizeType pair r = some (.ok t, r') :=
    ⟨_, _, rfl⟩
  obtain ⟨u, hu⟩ : ∃ u : Ty, AnsweredFor pair (.ok (.type u)) := by
    let s := (r.addSpace "main" {}).2
    obtain ⟨s₁, hbind⟩ : ∃ s₁, Registry.perform 1 (.bind 0 "Pair" pair) s =
        some (.ok (.accessor ⟨0, "Pair", 0⟩), s₁) := ⟨_, rfl⟩
    obtain ⟨⟨outcome, s₂⟩, hget⟩ : ∃ step,
        Registry.perform 1 (.use .get ⟨0, "Pair", 0⟩ []) s₁ = some step := by
      obtain ⟨-, rfl⟩ := Prod.mk.inj (Option.some.inj hbind)
      exact Option.isSome_iff_exists.1 (by decide +kernel)
    have hbound : Registry.BoundTo 1 ⟨0, "Pair", 0⟩ pair s s₁ := .bind hbind
    obtain ⟨answer, hanswer, -⟩ := AnsweredFor.of_get hbound rfl nofun hget
    -- the pair has no fault, so the answer is a type
    obtain ⟨u, rfl, -⟩ | ⟨error, -, hfault⟩ := hanswer.comesTo
    · exact ⟨u, hanswer⟩
    · cases hfault
  have hexchanged : (row pair pair).Exchanged StandsFor (row (.leaf t) (.leaf u)) :=
    .record (.cons (.sequence (.cons (.exchanged (.compiled hcompiled)) (.cons .leaf .nil)))
      (.cons (.exchanged (.answered hu)) .nil))
  have hrow : (row pair pair).validator.toOption.map Validator.describe =
      some "Record\x7bhead: Tuple[Int, Str], rest: Tuple[Tuple[Int, Str], Int]\x7d" := by
    decide +kernel
  obtain ⟨⟨error, hfails, -⟩ | ⟨w, w', r₁, r₂, hw, hw', hdescribe, hcheck⟩, -⟩ :=
    normalization_compositional hexchanged r r
  · rw [Action.error_of_normalizeType hfails] at hrow
    cases hrow
  · rw [Action.validator_of_normalizeType hw] at hrow
    exact ⟨t, u, .compiled hcompiled, hu, w, w', r₁, r₂, hw, hw', Option.some.inj hrow,
      hdescribe.symm, hcheck⟩

end NamedTypes
