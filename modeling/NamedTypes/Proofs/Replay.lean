import NamedTypes.Proofs.Evaluation

/-! # The rules are complete
What comes about by the rules of evaluation, the program comes to (`Registry.access_of_accesses`).
Together with the converse (`Registry.exists_accesses`), the rules and the program are the same, so
an evaluation that is put together from rules is one that the program performs. -/

namespace NamedTypes

namespace Registry

variable {H : Handler (StateT Registry Option)} {W : World Registry Visit} {r r' : Registry}
  {log : List Visit} {a : Accessor}

/-- A handler comes to whatever a world answers. -/
structure Realizes (H : Handler (StateT Registry Option)) (W : World Registry Visit) : Prop where
  makes : ∀ {validator r t r'}, W.makes validator r t r' → (t, r') = r.newType validator
  create : ∀ {validator r t r'}, W.makes validator r t r' → H.create validator r = some (t, r')
  access : ∀ {a demand arguments r log answer r'}, W.accesses a demand arguments r log answer r' →
    H.access a demand arguments r = some (answer, r')
  call : ∀ {function arguments r log answer r'}, W.calls function arguments r log answer r' →
    H.call function arguments r = some (answer, r')

theorem bind_of_ok {α β : Type} {x : Action α} {f : α → Action β} {result : α} {r₁ : Registry}
    (hx : x r = some (.ok result, r₁)) : (x >>= f) r = f result r₁ := by
  rw [Action.bind_apply, hx]
  rfl

theorem bind_of_error {α β : Type} {x : Action α} {f : α → Action β} {error : AliasError}
    (hx : x r = some (.error error, r')) : (x >>= f) r = some (.error error, r') := by
  rw [Action.bind_apply, hx]
  rfl

namespace Realizes

/-! ## Compiling -/

theorem compiles (hH : Realizes H W) {e : TypeExpr} {outcome : Except AliasError Ty}
    (h : W.Compiles e r outcome r') : Action.normalizeType e r = some (outcome, r') := by
  rw [Action.normalizeType_apply]
  cases h with
  | existing compiled => rw [compiled]; rfl
  | made compiled makes =>
    obtain ⟨rfl, rfl⟩ := Prod.mk.inj (hH.makes makes)
    rw [compiled]
    rfl
  | faulty compiled => rw [compiled]

theorem compilesAll (hH : Realizes H W) {es : List TypeExpr} {outcome : Except AliasError (List Ty)}
    (h : W.CompilesAll es r outcome r') :
    (es.mapM Action.normalizeType : Action (List Ty)) r = some (outcome, r') := by
  induction h with
  | nil => rw [List.mapM_nil, Action.pure_apply]
  | cons first _ ih => rw [List.mapM_cons, bind_of_ok (hH.compiles first), bind_of_ok ih]; rfl
  | faultyFirst first => rw [List.mapM_cons, bind_of_error (hH.compiles first)]
  | faultyRest first _ ih =>
    rw [List.mapM_cons, bind_of_ok (hH.compiles first), bind_of_error ih]

theorem normalizes (hH : Realizes H W) {e : TypeExpr}
    {outcome : Except AliasError (Normalized Generator)} (h : W.Normalizes e r outcome r') :
    Action.normalize e r = some (outcome, r') := by
  cases h with
  | function => rfl
  | @type _ _ _ compiled noFunction compiles =>
    have hnorm : Action.normalize e = do return .type (← Action.normalizeType e) := by
      cases e with
      | generator f => exact absurd rfl (noFunction f)
      | _ => rfl
    rw [hnorm]
    cases compiled with
    | ok t => rw [bind_of_ok (hH.compiles compiles)]; rfl
    | error error => rw [bind_of_error (hH.compiles compiles)]; rfl

/-! ## Bodies and calls -/

/-- A body that runs in the world runs with the handler. -/
theorem runs (hH : Realizes H W) {b : Body} {frame : Frame} {outcome : Except AliasError TypeExpr}
    (h : W.Runs b frame r log outcome r') : b.run H frame r = some (outcome, r') := by
  induction h with
  | finish => rfl
  | fail => rfl
  | create makes _ ih => exact Option.bind_eq_some_iff.2 ⟨_, hH.create makes, ih⟩
  | access accesses _ ih => exact Option.bind_eq_some_iff.2 ⟨_, hH.access accesses, ih⟩
  | call calls _ ih => exact Option.bind_eq_some_iff.2 ⟨_, hH.call calls, ih⟩
  | build _ ih => exact ih

theorem applies (hH : Realizes H W) {f : Generator} {types : List Ty}
    {outcome : Except AliasError (Normalized Generator)} (h : W.Applies f types r log outcome r') :
    apply H f types r = some (outcome, r') := by
  cases h with
  | produced runs normalizes =>
    exact (bind_of_ok (x := ExceptT.mk (f.invoke H types)) (hH.runs runs)).trans
      (hH.normalizes normalizes)
  | failed runs => exact bind_of_error (x := ExceptT.mk (f.invoke H types)) (hH.runs runs)

theorem calls (hH : Realizes H W) {f : Generator} {arguments : List TypeExpr}
    {outcome : Except AliasError (Normalized Generator)}
    (h : W.Calls f arguments r log outcome r') :
    Registry.call H f arguments r = some (outcome, r') := by
  cases h with
  | applied compiles applies =>
    rw [Registry.call, bind_of_ok (hH.compilesAll compiles)]
    exact hH.applies applies
  | faulty compiles => rw [Registry.call, bind_of_error (hH.compilesAll compiles)]

/-! ## Accesses -/

/-- A plain alias that keeps a type answers with it. -/
theorem forcePlain_of_kept {source : TypeExpr} {t : Ty}
    (entry : r.alias? a = some (.plain source (some t))) :
    forcePlain a source r = some (.ok t,
      (r.count a.space .cacheHits).note a.space .cacheHit [("alias", a.name)]) := by
  rw [forcePlain, read_bind_apply, entry]
  rfl

/-- A plain alias that keeps no type yet keeps the one that it is compiled to. -/
theorem forcePlain_of_ok (hH : Realizes H W) {source : TypeExpr} {t : Ty} {r₁ : Registry}
    (entry : r.alias? a = some (.plain source none))
    (h : W.Compiles source (r.count a.space .normalizations) (.ok t) r₁) :
    forcePlain a source r = some (.ok t, (r₁.modifyAlias a (Alias.keep t)).note a.space
      .aliasResolved [("alias", a.name), ("type", t.describe)]) := by
  have hmade := hH.compiles h
  have hcell : (r₁.alias? a).bind Alias.type? = none := by
    rw [Action.alias?_of_normalizeType hmade, alias?_count, entry]
    rfl
  have hforce : ((aliasCell a).force do
      modify fun r => r.count a.space .normalizations
      Action.normalizeType source) r = some (.ok t, r₁.modifyAlias a (Alias.keep t)) := by
    rw [Cell.force, read_bind_apply, entry]
    refine (bind_of_ok hmade).trans ?_
    rw [read_bind_apply, hcell]
    rfl
  rw [forcePlain, read_bind_apply, entry]
  exact bind_of_ok hforce

/-- A plain alias that describes no type fails every time. -/
theorem forcePlain_of_error (hH : Realizes H W) {source : TypeExpr} {error : AliasError}
    (entry : r.alias? a = some (.plain source none))
    (h : W.Compiles source (r.count a.space .normalizations) (.error error) r') :
    forcePlain a source r = some (.error error, r') := by
  have hmade := hH.compiles h
  have hforce : ((aliasCell a).force do
      modify fun r => r.count a.space .normalizations
      Action.normalizeType source) r = some (.error error, r') := by
    rw [Cell.force, read_bind_apply, entry]
    exact bind_of_error hmade
  rw [forcePlain, read_bind_apply, entry]
  exact bind_of_error hforce

/-- What an alias comes to by the rules, the program comes to. -/
theorem resolves (hH : Realizes H W) {arguments : List TypeExpr}
    {outcome : Except AliasError (Normalized Generator)}
    (h : Resolves W a arguments r log outcome r') :
    resolveAlias H a arguments r = some (outcome, r') := by
  have hinvoke {f : Generator} {memo : Option Memo} {call : Invocation Generator}
      (entry : r.alias? a = some (.function f memo))
      (invocation : Invocation.ofArguments arguments = .ok call) :
      resolveAlias H a arguments r = invoke H a f memo call r := by
    rw [resolveAlias, Action.get_bind_apply]
    simp only [entry, invocation]
    rfl
  -- calls that are not stable are never looked up, and the others were not found
  have hfound {memo : Option Memo} {call : Invocation Generator} {types : List Ty}
      (notFound : call.isStable = true → memo.bind (·.get? types) = none) :
      ((if call.isStable then memo else none).bind fun m => m.get? types) = none := by
    split
    · next hs => exact notFound hs
    · rfl
  cases h with
  | undefined undefined =>
    rw [resolveAlias, Action.get_bind_apply]
    cases hentry : r.alias? a with
    | none => rfl
    | some entry =>
      obtain rfl := undefined entry hentry
      rfl
  | overApplied entry arguments_ne_nil =>
    rw [resolveAlias, Action.get_bind_apply]
    simp only [entry, List.isEmpty_iff, if_neg arguments_ne_nil]
    rfl
  | kept entry arguments_eq_nil =>
    subst arguments_eq_nil
    rw [resolveAlias, Action.get_bind_apply]
    simp only [entry]
    exact bind_of_ok (forcePlain_of_kept entry)
  | compiled entry arguments_eq_nil compiles =>
    subst arguments_eq_nil
    rw [resolveAlias, Action.get_bind_apply]
    simp only [entry]
    exact bind_of_ok (hH.forcePlain_of_ok entry compiles)
  | faultySource entry arguments_eq_nil compiles =>
    subst arguments_eq_nil
    rw [resolveAlias, Action.get_bind_apply]
    simp only [entry]
    exact bind_of_error (hH.forcePlain_of_error entry compiles)
  | misapplied entry invocation =>
    rw [resolveAlias, Action.get_bind_apply]
    simp only [entry, invocation]
    rfl
  | faultyParameter entry invocation compiles =>
    rw [hinvoke entry invocation, invoke]
    exact bind_of_error (hH.compilesAll compiles)
  | remembered entry invocation stable compiles found =>
    rw [hinvoke entry invocation, invoke, bind_of_ok (hH.compilesAll compiles)]
    simp only [stable, if_true, Option.bind_some, found]
    rfl
  | @ran _ memo call types _ _ _ _ entry invocation compiles notFound applies =>
    rw [hinvoke entry invocation, invoke, bind_of_ok (hH.compilesAll compiles)]
    simp only [hfound notFound, Action.modify_bind_apply]
    rw [bind_of_ok (hH.applies applies)]
    cases call.isStable <;> cases memo <;> rfl
  | @failed _ memo call types _ _ _ _ entry invocation compiles notFound applies =>
    rw [hinvoke entry invocation, invoke, bind_of_ok (hH.compilesAll compiles)]
    simp only [hfound notFound, Action.modify_bind_apply]
    exact bind_of_error (hH.applies applies)

end Realizes

/-- **The program does whatever the rules give**, with the same fuel. -/
theorem realizes_world (fuel : Nat) : Realizes (handler fuel) (world fuel) := by
  have hmakes {fuel v r t r'} (h : (world fuel).makes v r t r') : (t, r') = r.newType v := by
    rwa [makes_world] at h
  induction fuel with
  | zero => exact ⟨hmakes, fun h => congrArg some (hmakes h).symm, fun h => h.elim, fun h => h.elim⟩
  | succ fuel ih =>
    refine ⟨hmakes, fun h => congrArg some (hmakes h).symm,
      fun {a demand arguments r log answer r'} h => ?_, fun h => ih.calls h⟩
    obtain @⟨inner, resolved, _, r₁, resolves, rfl⟩ := h
    change tracked a (resolveAlias (handler fuel) a arguments >>= fun answer =>
      Action.ofExcept (demand.require answer)) r = _
    rw [tracked_apply]
    have hrun : (resolveAlias (handler fuel) a arguments >>= fun answer =>
        Action.ofExcept (demand.require answer)) r.enter = some (resolved >>= demand.require, r₁) := by
      cases resolved with
      | ok result => exact bind_of_ok (ih.resolves resolves)
      | error error => exact bind_of_error (ih.resolves resolves)
    rw [hrun]
    rfl

/-- What an access comes to by the rules, the program answers. -/
theorem access_of_accesses {fuel : Nat} {demand : Demand} {arguments : List TypeExpr}
    {answer : Except AliasError (Normalized Generator)}
    (h : (world fuel).accesses a demand arguments r log answer r') :
    access fuel a demand arguments r = some (answer, r') :=
  (realizes_world fuel).access h

end Registry

/-- Whichever way an accessor is used, it answers with what an access comes to. -/
theorem Accessor.use_of_access {fuel : Nat} {kind : AccessKind} {arguments : List TypeExpr}
    {a : Accessor} {r r' : Registry} {answer : Except AliasError (Normalized Generator)}
    (h : Registry.access fuel a kind.demand (kind.given arguments) r = some (answer, r')) :
    a.use fuel kind arguments r = some (answer, r') := by
  have hcall {es : List TypeExpr} (h : Registry.access fuel a .type es r = some (answer, r')) :
      (Normalized.type (F := Generator) <$> a.call fuel es) r = some (answer, r') := by
    cases answer with
    | error error =>
      rw [Action.map_apply, Accessor.call, Registry.bind_of_error h]
      rfl
    | ok x =>
      obtain ⟨t, rfl⟩ := Registry.type_of_access h
      rw [Action.map_apply, Accessor.call, Registry.bind_of_ok h]
      rfl
  cases kind with
  | get => exact hcall h
  | call => exact hcall h
  | apply => exact hcall h
  | resolve => exact h

end NamedTypes
