import NamedTypes.Proofs.Action
import NamedTypes.Proofs.World

/-! # Evaluation
The rules of the program, one for each thing that an access can meet (`Registry.Resolves`), with a
log of all accesses that are made on the way, each entered when it ends (`Visit`). Every outcome of
`Registry.access` comes about by these rules (`Registry.exists_accesses`), so a property of the
rules is a property of the program. Which accesses and calls run inside each other is still bounded
by fuel: `Registry.world fuel` knows those that need no more. -/

namespace NamedTypes

/-- One access: what was asked of which alias, on which registry, and what came of it. -/
structure Visit where
  /-- The alias. -/
  accessor : Accessor
  /-- What was asked for. -/
  demand : Demand
  /-- The raw argument list. -/
  arguments : List TypeExpr
  /-- The registry before. -/
  before : Registry
  /-- What the alias came to. -/
  resolved : Except AliasError (Normalized Generator)
  /-- The registry after. -/
  after : Registry

/-- The answer: what was asked for, if the alias came to it. -/
def Visit.answer (v : Visit) : Except AliasError (Normalized Generator) :=
  v.resolved >>= v.demand.require

/-- Whether a counter is one that resolving an alias may raise. -/
def Counter.isOfResolving : Counter → Bool
  | .normalizations | .cacheHits | .functionInvocations | .memoHits => true
  | _ => false

theorem Counter.ne_errors {counter : Counter} (h : counter.isOfResolving = true) :
    counter ≠ .errors := by
  rintro rfl
  cases h

/-- A type meets every demand. -/
@[simp] theorem Demand.require_type (demand : Demand) (t : Ty) :
    demand.require (.type t) = .ok (.type t) := by
  cases demand <;> rfl

/-- What meets a demand is left as it is. -/
theorem Demand.eq_of_require {demand : Demand} {x y : Normalized Generator}
    (h : demand.require x = .ok y) : y = x := by
  cases x with
  | type t =>
    rw [require_type] at h
    exact (Except.ok.inj h).symm
  | function f =>
    cases demand with
    | any => exact (Except.ok.inj h).symm
    | type => cases h

namespace Registry

/-! ## The registry around an access -/

/-- The registry with one more access running. -/
def enter (r : Registry) : Registry := { r with depth := r.depth + 1 }

/-- The registry with the depth of `r` again, after an access that ended in `after`. A failure is
reported if no access was running before. -/
def leave {α : Type} (r : Registry) (a : Accessor) (outcome : Except AliasError α)
    (after : Registry) : Registry :=
  match outcome with
  | .ok _ => { after with depth := r.depth }
  | .error error =>
    if r.depth = 0 then
      ({ after with depth := r.depth }).noteFailure a.space a.name .resolutionFailed error
    else { after with depth := r.depth }

theorem tracked_apply {α : Type} (a : Accessor) (run : Action α) (r : Registry) :
    tracked a run r = (run r.enter).map fun p => (p.1, r.leave a p.1 p.2) := by
  simp only [tracked, enter]
  cases run { r with depth := r.depth + 1 } with
  | none => rfl
  | some p =>
    obtain ⟨outcome, after⟩ := p
    cases outcome with
    | ok result => rfl
    | error error =>
      simp only [leave, Option.bind_eq_bind, Option.bind_some, Option.map_some]
      split <;> rfl

/-! ## The rules of accesses -/

variable (W : World Registry Visit)

/-- What an alias comes to when it is invoked with a raw argument list. -/
inductive Resolves (a : Accessor) (arguments : List TypeExpr) (r : Registry) :
    List Visit → Except AliasError (Normalized Generator) → Registry → Prop
  /-- There is no definition. -/
  | undefined (undefined : ∀ entry, r.alias? a = some entry → entry = .pending) :
    Resolves a arguments r [] (.error (.undefinedAlias a.name)) r
  /-- A plain alias was given arguments. -/
  | overApplied {source : TypeExpr} {type : Option Ty} (entry : r.alias? a = some (.plain source type))
    (arguments_ne_nil : arguments ≠ []) :
    Resolves a arguments r [] (.error (.takesNoParameters a.name)) r
  /-- A plain alias answers with the type it keeps. -/
  | kept {source : TypeExpr} {type : Ty} (entry : r.alias? a = some (.plain source (some type)))
    (arguments_eq_nil : arguments = []) :
    Resolves a arguments r [] (.ok (.type type))
      ((r.count a.space .cacheHits).note a.space .cacheHit [("alias", a.name)])
  /-- A plain alias is compiled and keeps its type from then on. -/
  | compiled {source : TypeExpr} {type : Ty} {r₁ : Registry}
    (entry : r.alias? a = some (.plain source none)) (arguments_eq_nil : arguments = [])
    (compiles : W.Compiles source (r.count a.space .normalizations) (.ok type) r₁) :
    Resolves a arguments r [] (.ok (.type type))
      ((r₁.modifyAlias a (Alias.keep type)).note a.space .aliasResolved
        [("alias", a.name), ("type", type.describe)])
  /-- A plain alias describes no type. -/
  | faultySource {source : TypeExpr} {error : AliasError} {r₁ : Registry}
    (entry : r.alias? a = some (.plain source none)) (arguments_eq_nil : arguments = [])
    (compiles : W.Compiles source (r.count a.space .normalizations) (.error error) r₁) :
    Resolves a arguments r [] (.error error) r₁
  /-- A type function was not called as it must be. -/
  | misapplied {function : Generator} {memo : Option Memo} {error : AliasError}
    (entry : r.alias? a = some (.function function memo))
    (invocation : Invocation.ofArguments arguments = .error error) :
    Resolves a arguments r [] (.error error) r
  /-- A parameter of a type function describes no type. -/
  | faultyParameter {function : Generator} {memo : Option Memo} {call : Invocation Generator}
    {error : AliasError} {r₁ : Registry} (entry : r.alias? a = some (.function function memo))
    (invocation : Invocation.ofArguments arguments = .ok call)
    (compiles : W.CompilesAll call.parameters r (.error error) r₁) :
    Resolves a arguments r [] (.error error) r₁
  /-- A type function answers with a result that it remembers. -/
  | remembered {function : Generator} {memo : Memo} {call : Invocation Generator} {types : List Ty}
    {result : Normalized Generator} {r₁ : Registry}
    (entry : r.alias? a = some (.function function (some memo)))
    (invocation : Invocation.ofArguments arguments = .ok call) (stable : call.isStable = true)
    (compiles : W.CompilesAll call.parameters r (.ok types) r₁)
    (found : memo.get? types = some result) :
    Resolves a arguments r [] (.ok result)
      ((r₁.count a.space .memoHits).note a.space .memoHit
        [("alias", a.name), ("arity", toString types.length)])
  /-- A type function runs; if it remembers results, it remembers that of a stable call. -/
  | ran {function : Generator} {memo : Option Memo} {call : Invocation Generator} {types : List Ty}
    {result : Normalized Generator} {log : List Visit} {r₁ r₂ : Registry}
    (entry : r.alias? a = some (.function function memo))
    (invocation : Invocation.ofArguments arguments = .ok call)
    (compiles : W.CompilesAll call.parameters r (.ok types) r₁)
    (notFound : call.isStable = true → (memo.bind fun m => m.get? types) = none)
    (applies : W.Applies function types ((r₁.count a.space .functionInvocations).note a.space
      .functionInvoked [("alias", a.name), ("arity", toString types.length)]) log (.ok result) r₂) :
    Resolves a arguments r log (.ok result)
      (if call.isStable = true ∧ memo.isSome = true then
        r₂.modifyAlias a (Alias.remember types result) else r₂)
  /-- A type function runs and fails. -/
  | failed {function : Generator} {memo : Option Memo} {call : Invocation Generator}
    {types : List Ty} {error : AliasError} {log : List Visit} {r₁ r₂ : Registry}
    (entry : r.alias? a = some (.function function memo))
    (invocation : Invocation.ofArguments arguments = .ok call)
    (compiles : W.CompilesAll call.parameters r (.ok types) r₁)
    (notFound : call.isStable = true → (memo.bind fun m => m.get? types) = none)
    (applies : W.Applies function types ((r₁.count a.space .functionInvocations).note a.space
      .functionInvoked [("alias", a.name), ("arity", toString types.length)]) log (.error error)
      r₂) :
    Resolves a arguments r log (.error error) r₂

/-- A relation along logs that the effects on an alias and its namespace keep. -/
structure Admits (R : Registry → List Visit → Registry → Prop) (a : Accessor) : Prop where
  count : ∀ {r counter}, counter.isOfResolving = true → R r [] (r.count a.space counter)
  note : ∀ {r event fields}, event.severity ≠ .error → R r [] (r.note a.space event fields)
  keep : ∀ {r type}, R r [] (r.modifyAlias a (Alias.keep type))
  remember : ∀ {r types result}, R r [] (r.modifyAlias a (Alias.remember types result))

/-- Resolving an alias keeps what the requests of bodies and its own effects keep. -/
theorem Resolves.keeps {W : World Registry Visit} {R : Registry → List Visit → Registry → Prop}
    {a : Accessor} {arguments : List TypeExpr} {r r' : Registry} {log : List Visit}
    {outcome : Except AliasError (Normalized Generator)} (hR : W.Keeps R) (ha : Admits R a)
    (h : Resolves W a arguments r log outcome r') : R r log r' := by
  have invoked {r : Registry} {fields : Entries String} : R r []
      ((r.count a.space .functionInvocations).note a.space .functionInvoked fields) :=
    hR.trans (ha.count rfl) (ha.note (by decide))
  cases h with
  | undefined => exact hR.refl r
  | overApplied => exact hR.refl r
  | kept => exact hR.trans (ha.count rfl) (ha.note (by decide))
  | compiled _ _ compiles =>
    exact hR.trans (hR.trans (ha.count rfl) (hR.compiles compiles))
      (hR.trans ha.keep (ha.note (by decide)))
  | faultySource _ _ compiles => exact hR.trans (ha.count rfl) (hR.compiles compiles)
  | misapplied => exact hR.refl r
  | faultyParameter _ _ compiles => exact hR.compilesAll compiles
  | remembered _ _ _ compiles =>
    exact hR.trans (hR.compilesAll compiles)
      (hR.trans (ha.count rfl) (ha.note (by decide)))
  | ran _ _ compiles _ applies =>
    have hbody := hR.trans (hR.compilesAll compiles) (hR.trans invoked (hR.applies applies))
    split
    · rw [← List.append_nil log]
      exact hR.trans hbody ha.remember
    · exact hbody
  | failed _ _ compiles _ applies =>
    exact hR.trans (hR.compilesAll compiles) (hR.trans invoked (hR.applies applies))

/-- An access: the alias is resolved and the demand is made of what it comes to. The access itself
is the last one in its log. -/
inductive Accesses (a : Accessor) (demand : Demand) (arguments : List TypeExpr) (r : Registry) :
    List Visit → Except AliasError (Normalized Generator) → Registry → Prop
  | intro {inner : List Visit} {resolved answer : Except AliasError (Normalized Generator)}
    {r₁ : Registry} (resolves : Resolves W a arguments r.enter inner resolved r₁)
    (answer_eq : answer = resolved >>= demand.require) :
    Accesses a demand arguments r
      (inner ++ [⟨a, demand, arguments, r, resolved, r.leave a answer r₁⟩]) answer
      (r.leave a answer r₁)

/-- What the program answers to requests, where accesses and calls run inside each other as deeply
as the fuel tells. -/
def world : Nat → World Registry Visit
  | 0 =>
    { makes := fun validator r t r' => (t, r') = r.newType validator
      accesses := fun _ _ _ _ _ _ _ => False
      calls := fun _ _ _ _ _ _ => False }
  | fuel + 1 =>
    { makes := fun validator r t r' => (t, r') = r.newType validator
      accesses := Accesses (world fuel)
      calls := (world fuel).Calls }

@[simp] theorem makes_world (fuel : Nat) (validator : Validator) (r r' : Registry) (t : Ty) :
    (world fuel).makes validator r t r' ↔ (t, r') = r.newType validator := by
  cases fuel <;> rfl

theorem faithful_world (fuel : Nat) : (world fuel).Faithful := by
  intro v r t r' makes
  rw [makes_world] at makes
  rw [(Prod.mk.inj makes).1]

/-- Compiling changes nothing of any namespace. -/
theorem spaces_of_compiles {fuel : Nat} {e : TypeExpr} {r r' : Registry}
    {outcome : Except AliasError Ty} (h : (world fuel).Compiles e r outcome r') :
    r'.spaces = r.spaces := by
  cases h with
  | existing => rfl
  | made _ makes =>
    rw [makes_world] at makes
    rw [(Prod.mk.inj makes).2]
  | faulty => rfl

theorem spaces_of_compilesAll {fuel : Nat} {es : List TypeExpr} {r r' : Registry}
    {outcome : Except AliasError (List Ty)} (h : (world fuel).CompilesAll es r outcome r') :
    r'.spaces = r.spaces := by
  induction h with
  | nil => rfl
  | cons first _ ih => exact ih.trans (spaces_of_compiles first)
  | faultyFirst first => exact spaces_of_compiles first
  | faultyRest first _ ih => exact ih.trans (spaces_of_compiles first)

theorem spaces_of_normalizes {fuel : Nat} {e : TypeExpr} {r r' : Registry}
    {outcome : Except AliasError (Normalized Generator)}
    (h : (world fuel).Normalizes e r outcome r') : r'.spaces = r.spaces := by
  cases h with
  | function => rfl
  | type _ compiles => exact spaces_of_compiles compiles

/-- What new types keep and an access keeps if the bodies that it runs do, the whole program
keeps. -/
theorem keeps_world {R : Registry → List Visit → Registry → Prop} (refl : ∀ r, R r [] r)
    (trans : ∀ {r₁ r₂ r₃ log log'}, R r₁ log r₂ → R r₂ log' r₃ → R r₁ (log ++ log') r₃)
    (newType : ∀ r validator, R r [] (r.newType validator).2)
    (access : ∀ {fuel a demand arguments r log answer r'}, (world fuel).Keeps R →
      Accesses (world fuel) a demand arguments r log answer r' → R r log r')
    (fuel : Nat) : (world fuel).Keeps R := by
  have makes {fuel v r t r'} (h : (world fuel).makes v r t r') : R r [] r' := by
    rw [makes_world] at h
    rw [(Prod.mk.inj h).2]
    exact newType r v
  induction fuel with
  | zero => exact ⟨refl, trans, makes, nofun, nofun⟩
  | succ fuel ih => exact ⟨refl, trans, makes, access ih, ih.callsFunction⟩

/-! ## The program follows the rules -/

variable {W}

/-- A handler answers as a world does, on every registry on which it has an outcome. -/
structure Follows (H : Handler (StateT Registry Option)) (W : World Registry Visit) : Prop where
  create : ∀ {validator r t r'}, H.create validator r = some (t, r') → W.makes validator r t r'
  access : ∀ {a demand arguments r answer r'}, H.access a demand arguments r = some (answer, r') →
    ∃ log, W.accesses a demand arguments r log answer r'
  call : ∀ {function arguments r answer r'}, H.call function arguments r = some (answer, r') →
    ∃ log, W.calls function arguments r log answer r'

/-- New types come from the registry. -/
def Mints (W : World Registry Visit) : Prop :=
  ∀ validator r, W.makes validator r (r.newType validator).1 (r.newType validator).2

theorem Mints.compiles (hW : Mints W) {e : TypeExpr} {r r' : Registry}
    {outcome : Except AliasError Ty} (h : Action.normalizeType e r = some (outcome, r')) :
    W.Compiles e r outcome r' := by
  rw [Action.normalizeType_apply, Option.some.injEq] at h
  cases hc : e.compile with
  | error error =>
    rw [hc] at h
    obtain ⟨rfl, rfl⟩ := Prod.mk.inj h
    exact .faulty hc
  | ok c =>
    rw [hc] at h
    obtain ⟨rfl, rfl⟩ := Prod.mk.inj h
    cases c with
    | existing t => exact .existing hc
    | new v => exact .made hc (hW v r)

theorem Mints.compilesAll (hW : Mints W) {es : List TypeExpr} {r r' : Registry}
    {outcome : Except AliasError (List Ty)}
    (h : (es.mapM Action.normalizeType : Action (List Ty)) r = some (outcome, r')) :
    W.CompilesAll es r outcome r' := by
  induction es generalizing r outcome r' with
  | nil =>
    rw [List.mapM_nil, Action.pure_apply, Option.some.injEq] at h
    obtain ⟨rfl, rfl⟩ := Prod.mk.inj h
    exact .nil
  | cons e es ih =>
    rw [List.mapM_cons] at h
    obtain ⟨t, r₁, hfirst, h⟩ | ⟨error, hfirst, rfl⟩ := Action.bind_cases h
    · obtain ⟨ts, r₂, hrest, h⟩ | ⟨error, hrest, rfl⟩ := Action.bind_cases h
      · obtain ⟨rfl, rfl⟩ := Prod.mk.inj (Option.some.inj h)
        exact .cons (hW.compiles hfirst) (ih hrest)
      · exact .faultyRest (hW.compiles hfirst) (ih hrest)
    · exact .faultyFirst (hW.compiles hfirst)

theorem Mints.normalizes (hW : Mints W) {e : TypeExpr} {r r' : Registry}
    {outcome : Except AliasError (Normalized Generator)}
    (h : Action.normalize e r = some (outcome, r')) : W.Normalizes e r outcome r' := by
  by_cases hf : ∃ f, e = .generator f
  · obtain ⟨f, rfl⟩ := hf
    obtain ⟨rfl, rfl⟩ := Prod.mk.inj (Option.some.inj h)
    exact .function
  · have hne : ∀ f, e ≠ .generator f := fun f hef => hf ⟨f, hef⟩
    have hnorm : Action.normalize e = do return .type (← Action.normalizeType e) := by
      cases e with
      | generator f => exact absurd rfl (hne f)
      | _ => rfl
    rw [hnorm] at h
    obtain ⟨t, r₁, hcompiled, h⟩ | ⟨error, hcompiled, rfl⟩ := Action.bind_cases h
    · obtain ⟨rfl, rfl⟩ := Prod.mk.inj (Option.some.inj h)
      exact .type hne (hW.compiles hcompiled)
    · exact .type hne (hW.compiles hcompiled)

/-! ## Plain aliases -/

theorem read_bind_apply {β : Type} (a : Accessor) (f : Option Ty → Action β) (r : Registry) :
    ((aliasCell a).read >>= f) r = f ((r.alias? a).bind Alias.type?) r := rfl

/-- A cell without a type is filled with the one that the source describes, if there is one. -/
theorem of_force {a : Accessor} {source s : TypeExpr} {r r' : Registry}
    {outcome : Except AliasError Ty} (entry : r.alias? a = some (.plain source none))
    (h : ((aliasCell a).force do
      modify fun r => r.count a.space .normalizations
      Action.normalizeType s) r = some (outcome, r')) :
    (∃ t r₁, outcome = .ok t ∧
        Action.normalizeType s (r.count a.space .normalizations) = some (.ok t, r₁) ∧
        r' = r₁.modifyAlias a (Alias.keep t)) ∨
      ∃ error, outcome = .error error ∧
        Action.normalizeType s (r.count a.space .normalizations) = some (.error error, r') := by
  rw [Cell.force, read_bind_apply, entry] at h
  obtain ⟨t, r₁, hmade, h⟩ | ⟨error, hmade, rfl⟩ := Action.bind_cases h
  · have hcell : r₁.alias? a = some (.plain source none) := by
      rw [Action.alias?_of_normalizeType hmade, alias?_count, entry]
    rw [read_bind_apply, hcell] at h
    obtain ⟨rfl, rfl⟩ := Prod.mk.inj (Option.some.inj h)
    exact .inl ⟨t, r₁, rfl, hmade, rfl⟩
  · exact .inr ⟨error, rfl, hmade⟩

/-- Forcing a plain alias follows the rules of plain aliases that are given no arguments. -/
theorem Mints.forcePlain_resolves (hW : Mints W) {a : Accessor} {source : TypeExpr} {type : Option Ty}
    {r r' : Registry} {outcome : Except AliasError Ty}
    (entry : r.alias? a = some (.plain source type))
    (h : forcePlain a source r = some (outcome, r')) :
    Resolves W a [] r [] (.type <$> outcome) r' := by
  rw [forcePlain, read_bind_apply, entry] at h
  cases type with
  | some t =>
    obtain ⟨rfl, rfl⟩ := Prod.mk.inj (Option.some.inj h)
    exact .kept entry rfl
  | none =>
    obtain ⟨t, r₁, hforce, h⟩ | ⟨error, hforce, rfl⟩ := Action.bind_cases h
    · obtain ⟨t', r₂, ht, hmade, rfl⟩ | ⟨error, ht, -⟩ := of_force entry hforce
      · cases ht
        obtain ⟨rfl, rfl⟩ := Prod.mk.inj (Option.some.inj h)
        exact .compiled entry rfl (hW.compiles hmade)
      · cases ht
    · obtain ⟨t', r₂, ht, -⟩ | ⟨error', ht, hmade⟩ := of_force entry hforce
      · cases ht
      · cases ht
        exact .faultySource entry rfl (hW.compiles hmade)

/-! ## Bodies, calls and accesses -/

namespace Follows

variable {H : Handler (StateT Registry Option)}

/-- A body that runs with the handler runs in the world. -/
theorem runs (hH : Follows H W) {b : Body} {frame : Frame} {r r' : Registry}
    {outcome : Except AliasError TypeExpr} (h : b.run H frame r = some (outcome, r')) :
    ∃ log, W.Runs b frame r log outcome r' := by
  induction b generalizing frame r with
  | finish e =>
    obtain ⟨rfl, rfl⟩ := Prod.mk.inj (Option.some.inj h)
    exact ⟨[], .finish⟩
  | fail error =>
    obtain ⟨rfl, rfl⟩ := Prod.mk.inj (Option.some.inj h)
    exact ⟨[], .fail⟩
  | create v next ih =>
    obtain ⟨⟨t, r₁⟩, hmakes, hrest⟩ := Option.bind_eq_some_iff.1 h
    obtain ⟨log, hlog⟩ := ih t hrest
    exact ⟨log, .create (hH.create hmakes) hlog⟩
  | access a demand arguments next ih =>
    obtain ⟨⟨answer, r₁⟩, haccess, hrest⟩ := Option.bind_eq_some_iff.1 h
    obtain ⟨log, hlog⟩ := hH.access haccess
    obtain ⟨log', hlog'⟩ := ih _ hrest
    exact ⟨log ++ log', .access hlog hlog'⟩
  | call function arguments next ih =>
    obtain ⟨⟨answer, r₁⟩, hcall, hrest⟩ := Option.bind_eq_some_iff.1 h
    obtain ⟨log, hlog⟩ := hH.call hcall
    obtain ⟨log', hlog'⟩ := ih _ hrest
    exact ⟨log ++ log', .call hlog hlog'⟩
  | build captured function next _ ih =>
    obtain ⟨log, hlog⟩ := ih _ h
    exact ⟨log, .build hlog⟩

theorem applies (hH : Follows H W) (hW : Mints W) {function : Generator} {types : List Ty}
    {r r' : Registry} {outcome : Except AliasError (Normalized Generator)}
    (h : apply H function types r = some (outcome, r')) :
    ∃ log, W.Applies function types r log outcome r' := by
  obtain ⟨e, r₁, hrun, h⟩ | ⟨error, hrun, rfl⟩ := Action.bind_cases h
  · obtain ⟨log, hlog⟩ := hH.runs hrun
    exact ⟨log, .produced hlog (hW.normalizes h)⟩
  · obtain ⟨log, hlog⟩ := hH.runs hrun
    exact ⟨log, .failed hlog⟩

theorem calls (hH : Follows H W) (hW : Mints W) {function : Generator} {arguments : List TypeExpr}
    {r r' : Registry} {outcome : Except AliasError (Normalized Generator)}
    (h : Registry.call H function arguments r = some (outcome, r')) :
    ∃ log, W.Calls function arguments r log outcome r' := by
  obtain ⟨types, r₁, hcompiled, h⟩ | ⟨error, hcompiled, rfl⟩ := Action.bind_cases h
  · obtain ⟨log, hlog⟩ := hH.applies hW h
    exact ⟨log, .applied (hW.compilesAll hcompiled) hlog⟩
  · exact ⟨[], .faulty (hW.compilesAll hcompiled)⟩

theorem invoke_resolves (hH : Follows H W) (hW : Mints W) {a : Accessor} {function : Generator}
    {memo : Option Memo} {call : Invocation Generator} {arguments : List TypeExpr}
    {r r' : Registry} {outcome : Except AliasError (Normalized Generator)}
    (entry : r.alias? a = some (.function function memo))
    (invocation : Invocation.ofArguments arguments = .ok call)
    (h : invoke H a function memo call r = some (outcome, r')) :
    ∃ log, Resolves W a arguments r log outcome r' := by
  obtain ⟨types, r₁, hparams, h⟩ | ⟨error, hparams, rfl⟩ := Action.bind_cases h
  · have hcompiles := hW.compilesAll hparams
    cases hfound : (if call.isStable then memo else none).bind fun m => m.get? types with
    | some result =>
      simp only [hfound] at h
      obtain ⟨rfl, rfl⟩ := Prod.mk.inj (Option.some.inj h)
      cases hs : call.isStable with
      | false => simp [hs] at hfound
      | true =>
        rw [hs, if_pos rfl, Option.bind_eq_some_iff] at hfound
        obtain ⟨m, rfl, hfound⟩ := hfound
        exact ⟨[], .remembered entry invocation hs hcompiles hfound⟩
    | none =>
      have hnot : call.isStable = true → (memo.bind fun m => m.get? types) = none := fun hs => by
        rwa [hs, if_pos rfl] at hfound
      simp only [hfound] at h
      rw [Action.modify_bind_apply] at h
      obtain ⟨result, r₂, happly, h⟩ | ⟨error, happly, rfl⟩ := Action.bind_cases h
      · obtain ⟨log, hlog⟩ := hH.applies hW happly
        have hend : outcome = .ok result ∧ r' = if call.isStable = true ∧ memo.isSome = true then
            r₂.modifyAlias a (Alias.remember types result) else r₂ := by
          cases hs : call.isStable <;> cases memo <;> rw [hs] at h <;>
            obtain ⟨rfl, rfl⟩ := Prod.mk.inj (Option.some.inj h) <;> exact ⟨rfl, rfl⟩
        rw [hend.1, hend.2]
        exact ⟨log, .ran entry invocation hcompiles hnot hlog⟩
      · obtain ⟨log, hlog⟩ := hH.applies hW happly
        exact ⟨log, .failed entry invocation hcompiles hnot hlog⟩
  · exact ⟨[], .faultyParameter entry invocation (hW.compilesAll hparams)⟩

theorem resolves (hH : Follows H W) (hW : Mints W) {a : Accessor} {arguments : List TypeExpr}
    {r r' : Registry} {outcome : Except AliasError (Normalized Generator)}
    (h : resolveAlias H a arguments r = some (outcome, r')) :
    ∃ log, Resolves W a arguments r log outcome r' := by
  rw [resolveAlias, Action.get_bind_apply] at h
  cases hentry : r.alias? a with
  | none =>
    simp only [hentry] at h
    obtain ⟨rfl, rfl⟩ := Prod.mk.inj (Option.some.inj h)
    exact ⟨[], .undefined fun entry he => by rw [hentry] at he; cases he⟩
  | some entry =>
    simp only [hentry] at h
    cases entry with
    | pending =>
      obtain ⟨rfl, rfl⟩ := Prod.mk.inj (Option.some.inj h)
      exact ⟨[], .undefined fun e he => by rw [hentry] at he; exact (Option.some.inj he).symm⟩
    | plain source type =>
      cases arguments with
      | nil =>
        obtain ⟨t, r₁, hforce, h⟩ | ⟨error, hforce, rfl⟩ := Action.bind_cases h
        · obtain ⟨rfl, rfl⟩ := Prod.mk.inj (Option.some.inj h)
          exact ⟨[], hW.forcePlain_resolves hentry hforce⟩
        · exact ⟨[], hW.forcePlain_resolves hentry hforce⟩
      | cons e es =>
        obtain ⟨rfl, rfl⟩ := Prod.mk.inj (Option.some.inj h)
        exact ⟨[], .overApplied hentry (List.cons_ne_nil e es)⟩
    | function function memo =>
      obtain ⟨call, r₁, hcall, h⟩ | ⟨error, hcall, rfl⟩ := Action.bind_cases h
      · obtain ⟨hinvocation, rfl⟩ := Prod.mk.inj (Option.some.inj hcall)
        exact hH.invoke_resolves hW hentry hinvocation h
      · obtain ⟨hinvocation, rfl⟩ := Prod.mk.inj (Option.some.inj hcall)
        exact ⟨[], .misapplied hentry hinvocation⟩

end Follows

theorem mints_world (fuel : Nat) : Mints (world fuel) := fun _ _ => (makes_world ..).2 rfl

/-- **The program follows the rules**: what the handler answers with some fuel, the world answers
with the same fuel. -/
theorem follows_world (fuel : Nat) : Follows (handler fuel) (world fuel) := by
  induction fuel with
  | zero => exact ⟨fun h => (Option.some.inj h).symm, nofun, nofun⟩
  | succ fuel ih =>
    have hW := mints_world fuel
    refine ⟨fun h => (Option.some.inj h).symm, fun {a demand arguments r answer r'} h => ?_,
      fun h => ih.calls hW h⟩
    change tracked a (resolveAlias (handler fuel) a arguments >>= fun answer =>
      Action.ofExcept (demand.require answer)) r = some (answer, r') at h
    rw [tracked_apply, Option.map_eq_some_iff] at h
    obtain ⟨⟨outcome, r₁⟩, hrun, h⟩ := h
    obtain ⟨rfl, rfl⟩ := Prod.mk.inj h
    obtain ⟨result, r₂, hresolve, hdemand⟩ | ⟨error, hresolve, rfl⟩ := Action.bind_cases hrun
    · obtain ⟨rfl, rfl⟩ := Prod.mk.inj (Option.some.inj hdemand)
      obtain ⟨log, hlog⟩ := ih.resolves hW hresolve
      exact ⟨_, .intro hlog rfl⟩
    · obtain ⟨log, hlog⟩ := ih.resolves hW hresolve
      exact ⟨_, .intro hlog rfl⟩

/-- Every outcome of an access comes about by the rules. -/
theorem exists_accesses {fuel : Nat} {a : Accessor} {demand : Demand} {arguments : List TypeExpr}
    {r r' : Registry} {answer : Except AliasError (Normalized Generator)}
    (h : access fuel a demand arguments r = some (answer, r')) :
    ∃ log, (world fuel).accesses a demand arguments r log answer r' :=
  (follows_world fuel).access h

/-- An access that demands a type answers with none but types. -/
theorem type_of_access {fuel : Nat} {a : Accessor} {arguments : List TypeExpr} {r r' : Registry}
    {answer : Normalized Generator}
    (h : access fuel a .type arguments r = some (.ok answer, r')) : ∃ t, answer = .type t := by
  obtain ⟨log, hlog⟩ := exists_accesses h
  cases fuel with
  | zero => exact hlog.elim
  | succ fuel =>
    obtain @⟨inner, resolved, -, r₁, -, hanswer⟩ := hlog
    rcases resolved with error | type | function
    · cases hanswer
    · exact ⟨type, Except.ok.inj hanswer⟩
    · cases hanswer

end Registry

/-! ## Uses of accessors -/

namespace AccessKind

/-- What is asked for. -/
def demand : AccessKind → Demand
  | .resolve => .any
  | _ => .type

/-- The raw argument list that the alias is invoked with. -/
def given (arguments : List TypeExpr) : AccessKind → List TypeExpr
  | .get => []
  | .apply => [.sequence arguments]
  | _ => arguments

end AccessKind

namespace Accessor

/-- A call of an alias is an access that demands a type. -/
theorem access_of_call {fuel : Nat} {a : Accessor} {arguments : List TypeExpr} {r r' : Registry}
    {outcome : Except AliasError (Normalized Generator)}
    (h : (Normalized.type <$> a.call fuel arguments) r = some (outcome, r')) :
    Registry.access fuel a .type arguments r = some (outcome, r') := by
  obtain ⟨called, hcall, rfl⟩ := Action.map_cases h
  obtain ⟨answer, r₂, haccess, hinto⟩ | ⟨error, haccess, rfl⟩ := Action.bind_cases hcall
  · obtain ⟨t, rfl⟩ := Registry.type_of_access haccess
    obtain ⟨rfl, rfl⟩ := Prod.mk.inj (Option.some.inj hinto)
    exact haccess
  · exact haccess

/-- Whichever way an accessor is used, its alias is accessed once, with the same outcome. -/
theorem access_of_use {fuel : Nat} {kind : AccessKind} {arguments : List TypeExpr} {a : Accessor}
    {r r' : Registry} {outcome : Except AliasError (Normalized Generator)}
    (h : a.use fuel kind arguments r = some (outcome, r')) :
    Registry.access fuel a kind.demand (kind.given arguments) r = some (outcome, r') := by
  cases kind with
  | get => exact access_of_call h
  | call => exact access_of_call h
  | apply => exact access_of_call h
  | resolve => exact h

end Accessor

end NamedTypes
