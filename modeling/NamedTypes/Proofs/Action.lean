import NamedTypes.Registry.Access

/-! # Running actions
What an action does to a registry, read off its parts: `bind_apply` runs one action after another,
and the equations beside it run the steps that need no fuel. Compiling an expression is such a step;
it has an outcome on every registry and at most makes a new type (`normalizeType_apply`). -/

namespace NamedTypes

namespace Compiled

/-- The type of a compiled expression, made if it has to be. -/
def instantiate (r : Registry) : Compiled → Ty × Registry
  | .existing type => (type, r)
  | .new validator => r.newType validator

/-- The instance holds the compiled validator. -/
@[simp] theorem validator_instantiate (r : Registry) (c : Compiled) :
    (c.instantiate r).1.validator = c.validator := by
  cases c <;> rfl

/-- Making an instance leaves every alias as it is. -/
@[simp] theorem alias?_instantiate (r : Registry) (c : Compiled) (a : Accessor) :
    (c.instantiate r).2.alias? a = r.alias? a := by
  cases c <;> rfl

end Compiled

namespace Action

variable {α β : Type}

/-! ## Steps -/

/-- One action after another, whatever state they carry. An error ends both, and no outcome of the
first is no outcome. -/
theorem bind_apply {σ : Type} (x : ExceptT AliasError (StateT σ Option) α)
    (f : α → ExceptT AliasError (StateT σ Option) β) (s : σ) :
    (x >>= f) s = (x s).bind fun
      | (.ok result, after) => f result after
      | (.error error, after) => some (.error error, after) := by
  change (Option.bind (x s) fun p => _) = _
  cases x s with
  | none => rfl
  | some p =>
    obtain ⟨outcome, after⟩ := p
    cases outcome <;> rfl

/-- An outcome of one action after another is one of the second, or an error of the first. -/
theorem bind_cases {x : Action α} {f : α → Action β} {r r' : Registry}
    {outcome : Except AliasError β} (h : (x >>= f) r = some (outcome, r')) :
    (∃ a r₁, x r = some (.ok a, r₁) ∧ f a r₁ = some (outcome, r')) ∨
      ∃ error, x r = some (.error error, r') ∧ outcome = .error error := by
  rw [bind_apply, Option.bind_eq_some_iff] at h
  obtain ⟨⟨first, r₁⟩, hfirst, h⟩ := h
  cases first with
  | ok a => exact .inl ⟨a, r₁, hfirst, h⟩
  | error error =>
    obtain ⟨rfl, rfl⟩ := Prod.mk.inj (Option.some.inj h)
    exact .inr ⟨error, hfirst, rfl⟩

/-- A function of the result of an action. -/
theorem map_apply (f : α → β) (x : Action α) (r : Registry) :
    (f <$> x) r = (x r).map fun p => (f <$> p.1, p.2) := by
  change Option.bind (x r) (fun p => _) = _
  cases x r with
  | none => rfl
  | some p =>
    obtain ⟨outcome, after⟩ := p
    cases outcome <;> rfl

/-- An outcome of a function of an action's result is one of the action. -/
theorem map_cases {f : α → β} {x : Action α} {r r' : Registry} {outcome : Except AliasError β}
    (h : (f <$> x) r = some (outcome, r')) : ∃ o, x r = some (o, r') ∧ outcome = f <$> o := by
  rw [map_apply, Option.map_eq_some_iff] at h
  obtain ⟨⟨o, r₁⟩, hx, h⟩ := h
  obtain ⟨rfl, rfl⟩ := Prod.mk.inj h
  exact ⟨o, hx, rfl⟩

/-- An outcome of an action whose errors are handled is a result of it, or one of the handler. -/
theorem tryCatch_cases {x : Action α} {handle : AliasError → Action α} {r r' : Registry}
    {outcome : Except AliasError α} (h : tryCatch x handle r = some (outcome, r')) :
    (∃ a, x r = some (.ok a, r') ∧ outcome = .ok a) ∨
      ∃ error r₁, x r = some (.error error, r₁) ∧ handle error r₁ = some (outcome, r') := by
  obtain ⟨⟨first, r₁⟩, hfirst, h⟩ := Option.bind_eq_some_iff.1 h
  cases first with
  | ok a =>
    obtain ⟨rfl, rfl⟩ := Prod.mk.inj (Option.some.inj h)
    exact .inl ⟨a, hfirst, rfl⟩
  | error error => exact .inr ⟨error, r₁, hfirst, h⟩

@[simp] theorem pure_apply (a : α) (r : Registry) : (pure a : Action α) r = some (.ok a, r) := rfl

@[simp] theorem throw_apply (error : AliasError) (r : Registry) :
    (throw error : Action α) r = some (.error error, r) := rfl

@[simp] theorem get_bind_apply (f : Registry → Action β) (r : Registry) :
    (get >>= f) r = f r r := rfl

@[simp] theorem modify_bind_apply (g : Registry → Registry) (f : Unit → Action β) (r : Registry) :
    ((modify g : Action Unit) >>= f) r = f () (g r) := rfl

@[simp] theorem ofExcept_apply (outcome : Except AliasError α) (r : Registry) :
    ofExcept outcome r = some (outcome, r) := rfl

/-! ## Compiling -/

/-- Compiling ends with the first fault, or with the instance of what was compiled. -/
theorem normalizeType_apply (e : TypeExpr) (r : Registry) :
    normalizeType e r = some (match e.compile with
      | .ok c => (.ok (c.instantiate r).1, (c.instantiate r).2)
      | .error error => (.error error, r)) := by
  rw [normalizeType, bind_apply, ofExcept_apply]
  cases e.compile with
  | error error => rfl
  | ok c => cases c <;> rfl

/-- An expression that is not compiled has the fault that was found. -/
theorem error_of_normalizeType {e : TypeExpr} {r r' : Registry} {error : AliasError}
    (h : normalizeType e r = some (.error error, r')) : e.validator = .error error := by
  rw [normalizeType_apply] at h
  rw [← e.validator_compile]
  cases hc : e.compile with
  | ok c => simp [hc] at h
  | error error' =>
    simp only [hc, Option.some.injEq, Prod.mk.injEq, Except.error.injEq] at h
    rw [h.1]
    rfl

/-- A type that an expression is compiled into holds the validator of the expression. -/
theorem validator_of_normalizeType {e : TypeExpr} {r r' : Registry} {t : Ty}
    (h : normalizeType e r = some (.ok t, r')) : e.validator = .ok t.validator := by
  rw [normalizeType_apply] at h
  rw [← e.validator_compile]
  cases hc : e.compile with
  | error error => simp [hc] at h
  | ok c =>
    simp only [hc, Option.some.injEq, Prod.mk.injEq, Except.ok.injEq] at h
    rw [← h.1, Compiled.validator_instantiate]
    rfl

/-- Compiling leaves every alias as it is. -/
theorem alias?_of_normalizeType {e : TypeExpr} {r r' : Registry} {outcome : Except AliasError Ty}
    (h : normalizeType e r = some (outcome, r')) (a : Accessor) :
    r'.alias? a = r.alias? a := by
  rw [normalizeType_apply, Option.some.injEq] at h
  cases hc : e.compile with
  | error error =>
    rw [hc] at h
    rw [← (Prod.mk.inj h).2]
  | ok c =>
    rw [hc] at h
    rw [← (Prod.mk.inj h).2, Compiled.alias?_instantiate]

end Action

end NamedTypes
