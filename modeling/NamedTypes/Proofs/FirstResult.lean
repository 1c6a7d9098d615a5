import NamedTypes.Proofs.Remembering

/-! # First results
The first call of a type function with given instances that succeeds answers all later ones, where
its namespace remembers results (`first_result_remembered`). Calls may be made by users, by bodies
and by literals, and inside of each other, so the statement is about every visit in the log of a
run, the visits that had ended when it began and those inside of it. -/

namespace NamedTypes

/-! ## What becomes of a call -/

namespace Visit

/-- A result that is remembered answers the call, and nothing runs. -/
structure Served (v : Visit) (inner : List Visit) (x : Normalized Generator) : Prop where
  resolved_eq : v.resolved = .ok x
  inner_eq_nil : inner = []
  memoHits : v.after.counted v.accessor.space .memoHits =
    v.before.counted v.accessor.space .memoHits + 1
  functionInvocations : v.after.counted v.accessor.space .functionInvocations =
    v.before.counted v.accessor.space .functionInvocations

/-- The call fails before anything runs. -/
structure Refused (v : Visit) (inner : List Visit) : Prop where
  fails : ∃ error, v.resolved = .error error
  inner_eq_nil : inner = []
  counted_eq : ∀ counter, counter ≠ .errors →
    v.after.counted v.accessor.space counter = v.before.counted v.accessor.space counter

/-- The function runs on what its parameters come to, from one registry to another, and what it
comes to is what the call comes to. -/
structure RunsBetween (v : Visit) (inner : List Visit) (types : List Ty) (fuel : Nat)
    (function : Generator) (start finish : Registry) : Prop where
  definition?_eq : v.before.definition? v.accessor = some (.function function)
  parameters : ∃ call, Invocation.ofArguments v.arguments = .ok call ∧
    Expr.validators call.parameters = .ok (types.map Ty.validator)
  functionInvocations : start.counted v.accessor.space .functionInvocations =
    v.before.counted v.accessor.space .functionInvocations + 1
  memoHits : start.counted v.accessor.space .memoHits =
    v.before.counted v.accessor.space .memoHits
  applies : (Registry.world fuel).Applies function types start inner v.resolved finish
  counted_eq : ∀ counter, counter ≠ .errors →
    v.after.counted v.accessor.space counter = finish.counted v.accessor.space counter

/-- The function runs. -/
def Runs (v : Visit) (inner : List Visit) (types : List Ty) : Prop :=
  ∃ fuel function start finish, v.RunsBetween inner types fuel function start finish

/-- The function is run, if its parameters let it, unless `first` has a result for the instances
that it is called with. -/
structure Heeds (v : Visit) (inner : List Visit) (first : List Ty → Option (Normalized Generator)) :
    Prop where
  /-- The calls that are answered with a result of before. -/
  served_iff : ∀ x, v.Served inner x ↔ ∃ types, v.instances? = some types ∧ first types = some x
  /-- As long as no call has succeeded, the function is run again. -/
  runs : ∀ types, v.instances? = some types → first types = none → v.Runs inner types
  /-- Where a parameter is no existing type, results of before do not matter. -/
  composite : v.instances? = none → v.Refused inner ∨ ∃ types, v.Runs inner types

end Visit

namespace Registry

variable {r r' : Registry} {fuel : Nat}

/-! ## Counters rise -/

theorem counted_le_count (r : Registry) (space other : Nat) (counter read : Counter) :
    r.counted other read ≤ (r.count space counter).counted other read := by
  rw [counted_eq, counted_eq, tallies_count, List.getElem?_modify]
  cases (r.tallies read)[other]? with
  | none => exact Nat.le_refl _
  | some n =>
    rw [Option.map_eq_map, Option.map_some, Option.getD_some, Option.getD_some]
    split
    · exact Nat.le_add_right ..
    · exact Nat.le_refl _

/-- Accesses take nothing off a counter. -/
theorem keeps_counted (fuel space : Nat) {counter : Counter} (h : counter ≠ .errors) :
    (world fuel).Keeps fun r _ r' => r.counted space counter ≤ r'.counted space counter := by
  refine keeps_world (R := fun r _ r' => r.counted space counter ≤ r'.counted space counter)
    (fun _ => Nat.le_refl _) Nat.le_trans (fun _ _ => Nat.le_refl _)
    (fun {_ a demand arguments r log answer r'} hW haccess => ?_) fuel
  obtain @⟨_, _, _, r₁, resolves, -⟩ := haccess
  have hinner : r.enter.counted space counter ≤ r₁.counted space counter := resolves.keeps hW
    { count := fun _ => counted_le_count ..
      note := fun _ => (counted_note ..).ge
      keep := (counted_modifyAlias ..).ge
      remember := (counted_modifyAlias ..).ge }
  rw [counted_leave _ _ _ _ _ h]
  exact hinner

end Registry

namespace Visit

variable {v : Visit} {inner : List Visit} {types : List Ty}
  {first : List Ty → Option (Normalized Generator)}

/-- A body is counted when it is entered, and no access takes that off. -/
theorem Runs.counted_lt (h : v.Runs inner types) :
    v.before.counted v.accessor.space .functionInvocations <
      v.after.counted v.accessor.space .functionInvocations := by
  obtain ⟨fuel, function, start, finish, h⟩ := h
  have hrises := (Registry.keeps_counted fuel v.accessor.space
    (show Counter.functionInvocations ≠ .errors by decide)).applies h.applies
  have hstart := h.functionInvocations
  have hfinish := h.counted_eq .functionInvocations (by decide)
  omega

/-- A call whose function runs is not answered with a result of before. -/
theorem Runs.not_served (h : v.Runs inner types) (x : Normalized Generator) :
    ¬ v.Served inner x := fun hserved => h.counted_lt.ne hserved.functionInvocations.symm

namespace Heeds

theorem of_refused (h : v.Refused inner) (hgiven : v.instances? = none) : v.Heeds inner first where
  served_iff x := by
    obtain ⟨error, herror⟩ := h.fails
    refine ⟨fun hserved => ?_, fun ⟨types, htypes, _⟩ => ?_⟩
    · cases hserved.resolved_eq.symm.trans herror
    · cases hgiven.symm.trans htypes
  runs types htypes := by cases hgiven.symm.trans htypes
  composite _ := .inl h

theorem of_served {x : Normalized Generator} (h : v.Served inner x)
    (hgiven : v.instances? = some types) (hfirst : first types = some x) : v.Heeds inner first where
  served_iff y := by
    refine ⟨fun hserved => ⟨types, hgiven, ?_⟩, fun ⟨others, hothers, hy⟩ => ?_⟩
    · rw [hfirst, ← Except.ok.inj (hserved.resolved_eq.symm.trans h.resolved_eq)]
    · obtain rfl := Option.some.inj (hgiven.symm.trans hothers)
      exact Option.some.inj (hfirst.symm.trans hy) ▸ h
  runs others hothers hnone := by
    obtain rfl := Option.some.inj (hgiven.symm.trans hothers)
    cases hfirst.symm.trans hnone
  composite hnone := by cases hgiven.symm.trans hnone

theorem of_runs (h : v.Runs inner types)
    (hgiven : ∀ others, v.instances? = some others → others = types ∧ first others = none) :
    v.Heeds inner first where
  served_iff x := by
    refine ⟨fun hserved => (h.not_served x hserved).elim, fun ⟨others, hothers, hx⟩ => ?_⟩
    cases (hgiven others hothers).2.symm.trans hx
  runs others hothers _ := (hgiven others hothers).1 ▸ h
  composite _ := .inr ⟨types, h⟩

end Heeds

end Visit

namespace Registry

variable {r r₁ r₂ : Registry} {fuel : Nat} {v : Visit} {inner : List Visit} {f : Generator}
  {call : Invocation Generator} {types : List Ty}
  {first : List Ty → Option (Normalized Generator)}

/-! ## Rules and calls -/

/-- Existing types have no faults. -/
theorem isStable_of_faulty {error : AliasError}
    (h : (world fuel).CompilesAll call.parameters r (.error error) r₁) : call.isStable = false := by
  rw [← Bool.not_eq_true]
  intro stable
  have hleaves := List.all_eq_true.1 stable
  -- the parameters are compiled from left to right, and the first one to fail would be no leaf
  generalize call.parameters = es at h hleaves
  generalize houtcome : Except.error error = outcome at h
  induction h with
  | nil | cons => cases houtcome
  | @faultyFirst e _ _ _ _ compiles =>
    have hleaf := hleaves e List.mem_cons_self
    cases e with
    | leaf t => cases compiles.of_leaf.1
    | _ => cases hleaf
  | faultyRest _ _ ih => exact ih (fun e he => hleaves e (List.mem_cons_of_mem _ he)) houtcome

/-- Only for the instances that it is given can a call be without an earlier result. -/
theorem eq_of_notFound {s : Registry} (invocation : Invocation.ofArguments v.arguments = .ok call)
    (compiles : (world fuel).CompilesAll call.parameters s (.ok types) r₁)
    (notFound : call.isStable = true → first types = none) {others : List Ty}
    (hothers : v.instances? = some others) : others = types ∧ first others = none := by
  cases stable : call.isStable with
  | false => cases (Visit.instances?_of_unstable invocation stable).symm.trans hothers
  | true =>
    have hgiven := Visit.instances?_of_compilesAll invocation stable compiles
    obtain rfl := Option.some.inj (hgiven.symm.trans hothers)
    exact ⟨rfl, notFound stable⟩

/-- A call whose parameters are compiled counts once. -/
theorem counted_of_called {a : Accessor} {entry : Alias} {es : List TypeExpr}
    {outcome : Except AliasError (List Ty)} (hentry : r.alias? a = some entry)
    (compiles : (world fuel).CompilesAll es r outcome r₁) (event : Log.Event)
    (fields : Entries String) (counter read : Counter) :
    ((r₁.count a.space counter).note a.space event fields).counted a.space read =
      r.counted a.space read + if counter = read then 1 else 0 := by
  have hspace : (r₁.space? a.space).isSome :=
    isSome_of_compilesAll (isSome_space?_of_alias? hentry) compiles
  rw [counted_note, counted_count hspace, counted_of_spaces (spaces_of_compilesAll compiles)]

/-- What a call comes to that gets as far as running the function. -/
theorem runs_of_applies {memo : Option Memo}
    (entry : v.before.alias? v.accessor = some (.function f memo))
    (invocation : Invocation.ofArguments v.arguments = .ok call)
    (compiles : (world fuel).CompilesAll call.parameters v.before.enter (.ok types) r₁)
    (applies : (world fuel).Applies f types ((r₁.count v.accessor.space .functionInvocations).note
      v.accessor.space .functionInvoked
      [("alias", v.accessor.name), ("arity", toString types.length)]) inner v.resolved r₂)
    (hafter : ∀ counter, counter ≠ .errors →
      v.after.counted v.accessor.space counter = r₂.counted v.accessor.space counter) :
    v.Runs inner types := by
  have hentry : v.before.enter.alias? v.accessor = some (.function f memo) := entry
  exact ⟨fuel, f, _, r₂,
    { definition?_eq := by rw [definition?, entry]; rfl
      parameters := ⟨call, invocation, compiles.validators_eq (faithful_world fuel)⟩
      functionInvocations := counted_of_called hentry compiles ..
      memoHits := counted_of_called hentry compiles ..
      applies := applies
      counted_eq := hafter }⟩

/-- What is accessed inside of a visit, the body that it runs accesses. -/
theorem Resolves.runs_of_inner {v : Visit} {inner : List Visit}
    {answer : Except AliasError (Normalized Generator)}
    (h : Resolves (world fuel) v.accessor v.arguments v.before.enter inner v.resolved r₁)
    (hafter : v.after = v.before.leave v.accessor answer r₁) :
    inner = [] ∨ ∃ types, v.Runs inner types := by
  have hcounted (counter : Counter) (hcounter : counter ≠ .errors) :
      v.after.counted v.accessor.space counter = r₁.counted v.accessor.space counter := by
    rw [hafter, counted_leave _ _ _ _ _ hcounter]
  generalize hresolved : v.resolved = resolved at h
  cases h with
  | ran entry invocation compiles _ applies =>
    refine .inr ⟨_, runs_of_applies entry invocation compiles (hresolved ▸ applies) ?_⟩
    intro counter hcounter
    rw [hcounted counter hcounter]
    split
    · exact counted_modifyAlias ..
    · rfl
  | failed entry invocation compiles _ applies =>
    exact .inr ⟨_, runs_of_applies entry invocation compiles (hresolved ▸ applies) hcounted⟩
  | _ => exact .inl rfl

/-- **A function that remembers results is run for the calls without one.** -/
theorem Resolves.heeds {m : Memo} {answer : Except AliasError (Normalized Generator)}
    (h : Resolves (world fuel) v.accessor v.arguments v.before.enter inner v.resolved r₁)
    (hafter : v.after = v.before.leave v.accessor answer r₁)
    (entry : v.before.alias? v.accessor = some (.function f (some m)))
    (hfirst : ∀ types, m.get? types = first types) : v.Heeds inner first := by
  have hentry {other : Alias} (hother : v.before.enter.alias? v.accessor = some other) :
      other = .function f (some m) := Option.some.inj (hother.symm.trans entry)
  -- but for failures, leaving an access counts nothing
  have hcounted (counter : Counter) (hcounter : counter ≠ .errors) :
      v.after.counted v.accessor.space counter = r₁.counted v.accessor.space counter := by
    rw [hafter, counted_leave _ _ _ _ _ hcounter]
  have hnone {call : Invocation Generator} {types : List Ty}
      (notFound : call.isStable = true → ((some m).bind fun m => m.get? types) = none)
      (stable : call.isStable = true) : first types = none :=
    (hfirst types).symm.trans (notFound stable)
  generalize hresolved : v.resolved = resolved at h
  cases h with
  | undefined undefined => cases undefined _ entry
  | overApplied other | kept other | compiled other | faultySource other => cases hentry other
  | misapplied _ invocation =>
    exact .of_refused ⟨⟨_, hresolved⟩, rfl, hcounted⟩ (Visit.instances?_of_misapplied invocation)
  | faultyParameter _ invocation compiles =>
    refine .of_refused ⟨⟨_, hresolved⟩, rfl, fun counter hcounter => ?_⟩
      (Visit.instances?_of_unstable invocation (isStable_of_faulty compiles))
    exact (hcounted counter hcounter).trans (counted_of_spaces (spaces_of_compilesAll compiles) ..)
  | @remembered _ _ call types x r₂ other invocation stable compiles found =>
    have hgiven := Visit.instances?_of_compilesAll invocation stable compiles
    have hhit (counter : Counter) (hcounter : counter ≠ .errors) :
        v.after.counted v.accessor.space counter =
          v.before.counted v.accessor.space counter +
            if Counter.memoHits = counter then 1 else 0 :=
      (hcounted counter hcounter).trans (counted_of_called other compiles ..)
    cases hentry other
    exact .of_served ⟨hresolved, rfl, hhit _ nofun, hhit _ nofun⟩ hgiven
      ((hfirst _).symm.trans found)
  | @ran _ _ call types x _ _ r₂ other invocation compiles notFound applies =>
    cases hentry other
    have hfinish (counter : Counter) (hcounter : counter ≠ .errors) :
        v.after.counted v.accessor.space counter = r₂.counted v.accessor.space counter := by
      rw [hcounted counter hcounter]
      split
      · exact counted_modifyAlias ..
      · rfl
    exact .of_runs (runs_of_applies entry invocation compiles (hresolved ▸ applies) hfinish)
      fun _ => eq_of_notFound invocation compiles (hnone notFound)
  | failed other invocation compiles notFound applies =>
    cases hentry other
    exact .of_runs (runs_of_applies entry invocation compiles (hresolved ▸ applies) hcounted)
      fun _ => eq_of_notFound invocation compiles (hnone notFound)

/-! ## Runs -/

/-- What is remembered when a visit begins and ends, and what becomes of the visit, in a run that
ends with `final`. -/
structure VisitRemembers (earlier : List Visit) (v : Visit) (final : Registry) : Prop where
  /-- When the visit begins, the first results of what has ended are remembered; when it ends, so
  are those of the visits inside of it, and its own. -/
  remembered?_eq : ∀ a, v.before.Memoizes a → ∀ types,
    v.before.remembered? a types = firstResult? a types (v.past earlier) ∧
      v.after.remembered? a types = firstResult? a types (earlier ++ [v])
  /-- What is remembered stays. -/
  retains : Retains v.before v.after ∧ Retains v.after final
  /-- A function that remembers results is run for the calls that have none. -/
  heeds : v.before.Memoizes v.accessor → v.Heeds (v.inside earlier) fun types =>
    firstResult? v.accessor types (v.past earlier)

/-- What type functions remember in a run, and what they do with it. -/
structure RemembersFirst (log : List Visit) (steps : List (Except AliasError Outcome × Registry)) :
    Prop where
  /-- In the end, the first results of all calls are remembered. -/
  remembered?_eq : ∀ a, (after {} steps).Memoizes a → ∀ types,
    (after {} steps).remembered? a types = firstResult? a types log
  /-- What is remembered after an operation stays. -/
  retains : ∀ step ∈ steps, Retains step.2 (after {} steps)
  visits : ∀ earlier v later, log = earlier ++ v :: later →
    VisitRemembers earlier v (after {} steps)

theorem recalls_empty (a : Accessor) : Recalls a [] {} where
  memoizes _ _ entry := by cases entry
  remembered _ _ entry := by cases entry
  undefined _ _ := rfl

/-- An alias that remembers results remembers the first ones. -/
theorem Recalls.remembered?_eq {a : Accessor} {log : List Visit} (h : Recalls a log r)
    (hmemoizes : r.Memoizes a) (types : List Ty) :
    r.remembered? a types = firstResult? a types log := by
  obtain ⟨hconfig, f, memo, entry⟩ := hmemoizes
  obtain ⟨m, rfl⟩ := Option.isSome_iff_exists.1 ((h.memoizes f memo entry).trans hconfig)
  rw [remembered?_of_alias? entry]
  exact h.remembered f m entry types

/-- Accesses make no function remember results, and keep none from it. -/
theorem Memoizes.of_outlines {a : Accessor} {r' : Registry} (h : r.Memoizes a)
    (houtlines : r'.outlines = r.outlines) : r'.Memoizes a := by
  obtain ⟨hconfig, f, memo, entry⟩ := h
  refine ⟨?_, f, exists_function_of_outlines houtlines entry⟩
  rw [config_eq_getD_configs, configs_of_outlines houtlines, ← config_eq_getD_configs]
  exact hconfig

theorem History.remembersFirst {ops : List Operation} {log : List Visit}
    {steps : List (Except AliasError Outcome × Registry)} (h : History fuel ops {} log steps) :
    RemembersFirst log steps where
  remembered?_eq a hmemoizes types := by
    have hrecalls := (h.traces (invariant_recalls a)).carries [] (recalls_empty a)
    exact hrecalls.remembered?_eq hmemoizes types
  retains := h.retains.2
  visits earlier v later hlog := by
    have harises (a : Accessor) : Arises (Recalls a) {} earlier v :=
      (h.traces (invariant_recalls a)).visits earlier v later hlog
    have hbegan (a : Accessor) := (harises a).began [] (recalls_empty a)
    obtain ⟨fuel, r₁, resolves, hafter⟩ := (harises v.accessor).resolves
    have houtlines : v.after.outlines = v.before.outlines := by
      have haccesses : (world (fuel + 1)).accesses v.accessor v.demand v.arguments v.before _
          v.answer (v.before.leave v.accessor v.answer r₁) := .intro resolves rfl
      rw [hafter]
      exact (keeps_outlines (fuel + 1)).accesses haccesses
    refine ⟨fun a hmemoizes types => ⟨(hbegan a).remembered?_eq hmemoizes types, ?_⟩,
      h.retains.1.visits v (hlog ▸ List.mem_append_right _ List.mem_cons_self),
      fun ⟨hconfig, f, memo, entry⟩ => ?_⟩
    · have hended := (harises a).ended [] (recalls_empty a)
      exact hended.remembered?_eq (hmemoizes.of_outlines houtlines) types
    · have hrecalls := hbegan v.accessor
      obtain ⟨m, rfl⟩ := Option.isSome_iff_exists.1 ((hrecalls.memoizes f memo entry).trans hconfig)
      exact resolves.heeds hafter entry (hrecalls.remembered f m entry)

end Registry

/-- **The first result is remembered.** Let a run start with an empty registry. The accesses that it
leads to, those of bodies and literals included, can be logged; and whenever they are, the following
holds of every type function in a namespace that remembers results, for calls with the same
instances in the same order (`Visit.instances?`). At the end of the run, and at the beginning and
the end of each access, the function remembers the first result among the calls that have ended by
then, so a call that fails leaves nothing behind, and neither does one with a parameter that is no
existing type (`Visit.resultOf?`). What is remembered is never replaced or taken back. A call is
answered with what is remembered if and only if one had succeeded when it began, and otherwise its
function is run (`Visit.Heeds`). -/
theorem first_result_remembered {fuel : Nat} {ops : List Operation}
    {steps : List (Except AliasError Outcome × Registry)}
    (hrun : Registry.performAll fuel ops {} = some steps) :
    (∃ log, Registry.History fuel ops {} log steps) ∧
      ∀ log, Registry.History fuel ops {} log steps → Registry.RemembersFirst log steps :=
  ⟨Registry.exists_history hrun, fun _ h => h.remembersFirst⟩

/-- One function calls another one, which then answers users with the result of that call. Both are
called with two lists of arguments, and each keeps a result for each of them. -/
theorem nested_result_remembered :
    let int : Ty := ⟨0, .primitive .int⟩
    let listed : Accessor := ⟨0, "Listed", 0⟩
    let outer : Accessor := ⟨0, "Outer", 0⟩
    let ops : List Operation :=
      [.newType int.validator, .addSpace "main" .memoized,
        .bind 0 "Listed" (.generator (.mk [] fun types => .finish (.sequence (types.map .leaf)))),
        .bind 0 "Outer" (.generator (.mk [] fun types =>
          .access listed .any [.sequence (types.map .leaf)] fun
            | .ok (.type t) => .finish (.leaf t)
            | .ok (.function position) => .finish (.generator position)
            | .error error => .fail error)),
        .use .apply outer [.leaf int], .use .apply listed [.leaf int],
        .use .apply outer [.leaf int], .use .apply outer [.leaf int, .leaf int]]
    ∃ steps log, Registry.performAll 3 ops {} = some steps ∧
      Registry.History 3 ops {} log steps ∧ Registry.RemembersFirst log steps ∧
      (∀ a ∈ [listed, outer], ∀ call ∈ [([int], 1), ([int, int], 2)],
        ((firstResult? a call.1 log).bind Normalized.asType?).map Ty.id = some call.2) ∧
      ((Registry.after {} steps).space? 0).map (·.metrics.values) = some [0, 2, 0, 0, 4, 2, 0] := by
  intro int listed outer ops
  obtain ⟨steps, hrun, hend⟩ : ∃ steps, Registry.performAll 3 ops {} = some steps ∧
      (((Registry.after {} steps).space? 0).map (·.metrics.values),
        [listed, outer].all fun a => ((Registry.after {} steps).config a.space).memoize &&
          [([int], 1), ([int, int], 2)].all fun call =>
            (((Registry.after {} steps).remembered? a call.1).bind Normalized.asType?).map Ty.id ==
              some call.2) = (some [0, 2, 0, 0, 4, 2, 0], true) :=
    Option.map_eq_some_iff.1 (by decide +kernel)
  obtain ⟨hmetrics, hend⟩ := Prod.mk.inj hend
  obtain ⟨⟨log, hlog⟩, hall⟩ := first_result_remembered hrun
  have hfirst := hall log hlog
  refine ⟨steps, log, hrun, hlog, hfirst, fun a ha call hcall => ?_, hmetrics⟩
  obtain ⟨hmemoize, hids⟩ := (Bool.and_eq_true ..).mp (List.all_eq_true.1 hend a ha)
  have hid := List.all_eq_true.1 hids call hcall
  obtain ⟨t, ht, -⟩ := Option.map_eq_some_iff.1 (eq_of_beq hid)
  obtain ⟨x, hx, -⟩ := Option.bind_eq_some_iff.1 ht
  obtain ⟨f, m, entry, -⟩ := Registry.exists_memo_of_remembered hx
  rw [← hfirst.remembered?_eq a ⟨hmemoize, f, some m, entry⟩ call.1]
  exact eq_of_beq hid

end NamedTypes
