import NamedTypes.Proofs.Faults
import NamedTypes.Proofs.FirstResult
import NamedTypes.Proofs.Replay

/-! # The protocol of calls
What an alias does with a raw argument list is decided before anything runs (`call_protocol`). Either
the list is refused (`Registry.Refuses`), for reasons that are looked for in a fixed order: the alias
has no definition, the list has the wrong shape, a parameter describes no type. Then the access fails
at once, and all that is left of it is the report. Or the list is accepted (`Registry.Accepts`), and
then a type function, or its memory, gets exactly what the parameters come to
(`Registry.Answered`). -/

namespace NamedTypes

/-! ## Malformed calls -/

namespace Expr

variable {F : Type}

/-- An expression that is no list, by the name of its shape. -/
inductive NoList : Expr F → String → Prop
  | leaf (type : Ty) : NoList (.leaf type) "leaf"
  | record (fields : List (String × Expr F)) : NoList (.record fields) "record"
  | generator (function : F) : NoList (.generator function) "generator"
  /-- The shape of a raw value is its JSON type. -/
  | data {value : Json.Value} {type : String} (isA : value.IsA type) : NoList (.data value) type

/-- An expression is a list, or it has another shape. -/
theorem sequence_or_noList (e : Expr F) :
    (∃ items, e = .sequence items) ∨ ∃ shape, e.NoList shape := by
  cases e with
  | leaf type => exact .inr ⟨_, .leaf type⟩
  | sequence items => exact .inl ⟨items, rfl⟩
  | record fields => exact .inr ⟨_, .record fields⟩
  | generator function => exact .inr ⟨_, .generator function⟩
  | data value => exact .inr ⟨_, .data (Json.Value.isA_iff.2 rfl)⟩

end Expr

namespace Invocation

/-- A single argument has to be a list of parameters. -/
theorem ofArguments_of_noList {e : TypeExpr} {shape : String} (noList : e.NoList shape) :
    ofArguments [e] =
      .error (.usage s!"expected a parameter list, got a single {shape} argument") := by
  cases noList with
  | data isA => rw [← Json.Value.isA_iff.1 isA]; rfl
  | _ => rfl

/-- More than one argument is too many. -/
theorem ofArguments_of_several {arguments : List TypeExpr} (several : 2 ≤ arguments.length) :
    ofArguments arguments = .error (.usage
      s!"expected a single parameter list, got {arguments.length} bare arguments") := by
  unfold ofArguments
  split
  · exact absurd several (by decide)
  · exact absurd several (Nat.not_le_of_lt (Nat.lt_succ_self 1))
  · exact absurd several (Nat.not_le_of_lt (Nat.lt_succ_self 1))
  · rfl

end Invocation

namespace Registry

variable {r r' s : Registry} {a : Accessor} {arguments parameters : List TypeExpr} {fuel : Nat}

/-! ## Differing by reports only -/

/-- From one registry to another, nothing has happened that users could tell but reports of
failures. -/
structure SameButReports (r r' : Registry) : Prop where
  /-- All slots are there, with what they hold and whatever is kept and remembered for it. -/
  slots_eq : r'.perSpace Namespace.slots = r.perSpace Namespace.slots
  /-- Nothing but errors was counted. -/
  tallies_eq : ∀ counter, counter ≠ .errors → r'.tallies counter = r.tallies counter
  /-- Nothing but failures was noted. -/
  notices_eq : r'.notices.toList.filter (·.event != .resolutionFailed) =
    r.notices.toList.filter (·.event != .resolutionFailed)

theorem SameButReports.of_spaces (hspaces : r'.spaces = r.spaces)
    (hnotices : r'.notices = r.notices) : SameButReports r r' where
  slots_eq := by rw [perSpace, perSpace, hspaces]
  tallies_eq _ _ := by rw [tallies, tallies, perSpace, perSpace, hspaces]
  notices_eq := by rw [hnotices]

theorem SameButReports.trans {r₁ r₂ r₃ : Registry} (h : SameButReports r₁ r₂)
    (h' : SameButReports r₂ r₃) : SameButReports r₁ r₃ where
  slots_eq := h'.slots_eq.trans h.slots_eq
  tallies_eq counter hcounter :=
    (h'.tallies_eq counter hcounter).trans (h.tallies_eq counter hcounter)
  notices_eq := h'.notices_eq.trans h.notices_eq

/-- A report is a report. -/
theorem SameButReports.noteFailure (r : Registry) (a : Accessor) (error : AliasError) :
    SameButReports r (r.noteFailure a.space a.name .resolutionFailed error) where
  slots_eq := slots_noteFailure ..
  tallies_eq counter hcounter := (tallies_noteFailure ..).trans (if_neg hcounter)
  notices_eq := by
    rw [Registry.noteFailure, note]
    split
    · rw [Array.toList_push, List.filter_append]
      exact List.append_nil _
    · rfl

/-- All that leaving an access adds is the report of a failure. -/
theorem SameButReports.leave {α : Type} (r : Registry) (a : Accessor)
    (outcome : Except AliasError α) (after : Registry) :
    SameButReports after (r.leave a outcome after) := by
  have hdepth : SameButReports after { after with depth := r.depth } := .of_spaces rfl rfl
  cases outcome with
  | ok => exact hdepth
  | error error =>
    rw [Registry.leave]
    split
    · exact hdepth.trans (noteFailure ..)
    · exact hdepth

/-! ## What is refused and what is accepted -/

/-- Why an alias refuses a raw argument list. -/
inductive Refuses (r : Registry) (a : Accessor) : List TypeExpr → AliasError → Prop
  /-- There is no definition, so no argument list is looked at. -/
  | undefined {arguments : List TypeExpr}
    (undefined : ∀ entry, r.alias? a = some entry → entry = .pending) :
    Refuses r a arguments (.undefinedAlias a.name)
  /-- A plain alias takes no arguments, and no empty list of parameters either. -/
  | overApplied {source : TypeExpr} {type : Option Ty} {arguments : List TypeExpr}
    (entry : r.alias? a = some (.plain source type)) (arguments_ne_nil : arguments ≠ []) :
    Refuses r a arguments (.usage s!"'{a.name}' is not a type function and takes no parameters")
  /-- The only argument of a type function is no list of parameters. -/
  | notAParameterList {function : Generator} {memo : Option Memo} {e : TypeExpr} {shape : String}
    (entry : r.alias? a = some (.function function memo)) (noList : e.NoList shape) :
    Refuses r a [e] (.usage s!"expected a parameter list, got a single {shape} argument")
  /-- A type function has several arguments, whatever these are. -/
  | bareArguments {function : Generator} {memo : Option Memo} {arguments : List TypeExpr}
    (entry : r.alias? a = some (.function function memo)) (several : 2 ≤ arguments.length) :
    Refuses r a arguments (.usage
      s!"expected a single parameter list, got {arguments.length} bare arguments")
  /-- A parameter describes no type, and it is the first one that does not. -/
  | faultyParameter {function : Generator} {memo : Option Memo} {before after : List TypeExpr}
    {e : TypeExpr} {fault : Fault} {name : String}
    (entry : r.alias? a = some (.function function memo))
    (faultless : ∀ d ∈ before, d.DescribesType) (first : e.FirstFault fault)
    (called : fault.Called name) :
    Refuses r a [.sequence (before ++ e :: after)] (.unsupportedLiteral name)

/-- When an alias accepts a raw argument list. -/
inductive Accepts (r : Registry) (a : Accessor) : List TypeExpr → Prop
  | plain {source : TypeExpr} {type : Option Ty} (entry : r.alias? a = some (.plain source type)) :
    Accepts r a []
  | bare {function : Generator} {memo : Option Memo}
    (entry : r.alias? a = some (.function function memo)) : Accepts r a []
  | applied {function : Generator} {memo : Option Memo} {parameters : List TypeExpr}
    (entry : r.alias? a = some (.function function memo))
    (faultless : ∀ e ∈ parameters, e.DescribesType) : Accepts r a [.sequence parameters]

/-- No list is both accepted and refused. -/
theorem Accepts.not_refuses (h : r.Accepts a arguments) (error : AliasError) :
    ¬ r.Refuses a arguments error := by
  intro hrefuses
  -- the alias is of one kind only
  have hentry {entry other : Alias} (h : r.alias? a = some entry) (h' : r.alias? a = some other) :
      entry = other := Option.some.inj (h.symm.trans h')
  cases h with
  | plain entry =>
    cases hrefuses with
    | undefined undefined => cases undefined _ entry
    | overApplied _ arguments_ne_nil => exact arguments_ne_nil rfl
    | bareArguments _ several => exact absurd several (by decide)
  | bare entry =>
    cases hrefuses with
    | undefined undefined => cases undefined _ entry
    | overApplied _ arguments_ne_nil => exact arguments_ne_nil rfl
    | bareArguments _ several => exact absurd several (by decide)
  | applied entry faultless =>
    cases hrefuses with
    | undefined undefined => cases undefined _ entry
    | overApplied other => cases hentry entry other
    | notAParameterList _ noList => cases noList
    | bareArguments _ several => exact absurd several (by decide : ¬ 2 ≤ 1)
    | faultyParameter _ _ first _ =>
      exact first.not_describesType (faultless _ (List.mem_append_right _ List.mem_cons_self))

/-- Every list is accepted or refused. -/
theorem accepts_or_refuses (r : Registry) (a : Accessor) (arguments : List TypeExpr) :
    r.Accepts a arguments ∨ ∃ error, r.Refuses a arguments error := by
  cases hentry : r.alias? a with
  | none => exact .inr ⟨_, .undefined fun entry h => by cases hentry.symm.trans h⟩
  | some entry =>
    cases entry with
    | pending =>
      exact .inr ⟨_, .undefined fun entry h => Option.some.inj (h.symm.trans hentry)⟩
    | plain source type =>
      cases arguments with
      | nil => exact .inl (.plain hentry)
      | cons e es => exact .inr ⟨_, .overApplied hentry (List.cons_ne_nil e es)⟩
    | function f memo =>
      rcases arguments with _ | ⟨e, _ | ⟨e', es⟩⟩
      · exact .inl (.bare hentry)
      · obtain ⟨parameters, rfl⟩ | ⟨shape, noList⟩ := e.sequence_or_noList
        · by_cases hfaultless : ∀ e ∈ parameters, e.DescribesType
          · exact .inl (.applied hentry hfaultless)
          · -- the first fault of a list is that of a member with none before it
            obtain ⟨fault, hfirst⟩ :=
              Expr.exists_firstFault _ (mt Expr.describesType_sequence_iff.1 hfaultless)
            obtain ⟨name, called⟩ := fault.exists_called
            cases hfirst with
            | sequence faultless first =>
              exact .inr ⟨_, .faultyParameter hentry faultless first called⟩
        · exact .inr ⟨_, .notAParameterList hentry noList⟩
      · exact .inr ⟨_, .bareArguments hentry (by simp)⟩

theorem accepts_iff_not_refuses :
    r.Accepts a arguments ↔ ∀ error, ¬ r.Refuses a arguments error := by
  refine ⟨Accepts.not_refuses, fun h => ?_⟩
  obtain haccepts | ⟨error, hrefuses⟩ := r.accepts_or_refuses a arguments
  · exact haccepts
  · exact absurd hrefuses (h error)

/-! ## What parameters come to -/

/-- A parameter comes to a type with its validator, and an existing type is that very instance. -/
structure ComesTo (e : TypeExpr) (t : Ty) : Prop where
  validator_eq : e.validator = .ok t.validator
  eq_of_leaf : ∀ u, e = .leaf u → t = u

/-- Compiling an expression makes at most new types. -/
theorem exists_normalizeType_apply (e : TypeExpr) (r : Registry) :
    ∃ outcome made, Action.normalizeType e r =
      some (outcome, { r with instances := r.instances ++ made }) := by
  rw [Action.normalizeType_apply]
  cases e.compile with
  | error error => exact ⟨.error error, #[], by simp⟩
  | ok compiled =>
    cases compiled with
    | existing t => exact ⟨.ok t, #[], by simp [Compiled.instantiate]⟩
    | new v => exact ⟨_, #[v], rfl⟩

/-- Compiling parameters makes at most new types. -/
theorem exists_mapM_normalizeType_apply (es : List TypeExpr) (r : Registry) :
    ∃ outcome made, (es.mapM Action.normalizeType : Action (List Ty)) r =
      some (outcome, { r with instances := r.instances ++ made }) := by
  induction es generalizing r with
  | nil => exact ⟨.ok [], #[], by simp⟩
  | cons e es ih =>
    rw [List.mapM_cons]
    obtain ⟨first, made, hfirst⟩ := exists_normalizeType_apply e r
    cases first with
    | error error => exact ⟨_, made, bind_of_error hfirst⟩
    | ok t =>
      obtain ⟨rest, more, hrest⟩ := ih { r with instances := r.instances ++ made }
      rw [bind_of_ok hfirst]
      refine ⟨List.cons t <$> rest, made ++ more, ?_⟩
      cases rest with
      | error error => rw [bind_of_error hrest, Array.append_assoc]; rfl
      | ok ts => rw [bind_of_ok hrest, Array.append_assoc]; rfl

/-- Each of the parameters comes to the type at its position. -/
theorem comesTo_of_compilesAll {types : List Ty}
    (h : (world fuel).CompilesAll parameters r (.ok types) r') :
    List.Forall₂ ComesTo parameters types := by
  generalize houtcome : Except.ok types = outcome at h
  induction h generalizing types with
  | nil =>
    obtain rfl := Except.ok.inj houtcome
    exact .nil
  | @cons e _ t _ _ _ _ first _ ih =>
    obtain rfl := Except.ok.inj houtcome
    refine .cons ⟨first.validator_eq (faithful_world fuel), fun u hu => ?_⟩ (ih rfl)
    subst hu
    exact Except.ok.inj first.of_leaf.1
  | faultyFirst => cases houtcome
  | faultyRest => cases houtcome

/-- Parameters that describe types come to types. -/
theorem exists_types (faultless : ∀ e ∈ parameters, e.DescribesType) (r : Registry) :
    ∃ types made, (parameters.mapM Action.normalizeType : Action (List Ty)) r =
      some (.ok types, { r with instances := r.instances ++ made }) ∧
      List.Forall₂ ComesTo parameters types := by
  obtain ⟨outcome, made, hcompiled⟩ := exists_mapM_normalizeType_apply parameters r
  have hcompiles := (mints_world 0).compilesAll hcompiled
  obtain ⟨validators, hvalidators⟩ :=
    Expr.exists_validators fun e he => Expr.DescribesType.exists_validator e (faultless e he)
  have heq := hcompiles.validators_eq (faithful_world 0)
  cases outcome with
  | error error => cases hvalidators.symm.trans heq
  | ok types => exact ⟨types, made, hcompiled, comesTo_of_compilesAll hcompiles⟩

/-- The first parameter that describes no type ends the compilation. -/
theorem exists_faulty {before after : List TypeExpr} {e : TypeExpr} {fault : Fault}
    {name : String} (faultless : ∀ d ∈ before, d.DescribesType) (first : e.FirstFault fault)
    (called : fault.Called name) (r : Registry) :
    ∃ made, ((before ++ e :: after).mapM Action.normalizeType : Action (List Ty)) r =
      some (.error (.unsupportedLiteral name),
        { r with instances := r.instances ++ made }) := by
  obtain ⟨outcome, made, hcompiled⟩ := exists_mapM_normalizeType_apply (before ++ e :: after) r
  have heq := ((mints_world 0).compilesAll hcompiled).validators_eq (faithful_world 0)
  rw [Expr.validators_append_cons
    (fun d hd => Expr.DescribesType.exists_validator d (faultless d hd))
    (first.validator_eq called)] at heq
  cases outcome with
  | ok types => cases heq
  | error error =>
    obtain rfl := Except.error.inj heq
    exact ⟨made, hcompiled⟩

/-! ## Accesses of the program -/

/-- An access resolves the alias while one more access is running, makes its demand and leaves. -/
theorem access_succ_apply (fuel : Nat) (a : Accessor) (demand : Demand)
    (arguments : List TypeExpr) (r : Registry) :
    access (fuel + 1) a demand arguments r =
      (resolveAlias (handler fuel) a arguments r.enter).map fun p =>
        (p.1 >>= demand.require, r.leave a (p.1 >>= demand.require) p.2) := by
  change tracked a (resolveAlias (handler fuel) a arguments >>= fun answer =>
    Action.ofExcept (demand.require answer)) r = _
  rw [tracked_apply]
  cases hresolve : resolveAlias (handler fuel) a arguments r.enter with
  | none => rw [Action.bind_apply, hresolve]; rfl
  | some p =>
    obtain ⟨resolved, s⟩ := p
    cases resolved with
    | ok x => rw [bind_of_ok hresolve]; rfl
    | error error => rw [bind_of_error hresolve]; rfl

/-- An access after which no body has been entered has led to no other one. -/
theorem alone_of_counted {demand : Demand} {log : List Visit}
    {answer : Except AliasError (Normalized Generator)}
    (h : (world fuel).accesses a demand arguments r log answer r')
    (hcounted : r'.counted a.space .functionInvocations =
      r.counted a.space .functionInvocations) :
    ∃ v, log = [v] ∧ ∀ inner types, ¬ v.Runs inner types := by
  cases fuel with
  | zero => exact h.elim
  | succ fuel =>
    obtain @⟨inner, resolved, _, r₁, resolves, -⟩ := h
    have hruns (inner : List Visit) (types : List Ty) :
        ¬ Visit.Runs ⟨a, demand, arguments, r, resolved, r.leave a answer r₁⟩ inner types :=
      fun hruns => hruns.counted_lt.ne hcounted.symm
    obtain rfl | ⟨types, hinner⟩ := resolves.runs_of_inner
      (v := ⟨a, demand, arguments, r, resolved, r.leave a answer r₁⟩) rfl
    · exact ⟨_, rfl, hruns⟩
    · exact absurd hinner (hruns inner types)

/-! ## Refused calls -/

/-- An access fails at once: types may have been made of parameters, and the failure is reported if
no access was running. -/
structure FailsAtOnce (r : Registry) (a : Accessor) (error : AliasError) (r' : Registry) : Prop
    extends SameButReports r r' where
  registry_eq : ∃ made, r' = r.leave a (.error error : Except AliasError Ty)
    { r.enter with instances := r.instances ++ made }
  errors_eq : r'.tallies .errors =
    if r.depth = 0 then (r.tallies .errors).modify a.space (· + 1) else r.tallies .errors

theorem failsAtOnce_leave (r : Registry) (a : Accessor) (error : AliasError)
    (made : Array Validator) :
    FailsAtOnce r a error (r.leave a (.error error : Except AliasError (Normalized Generator))
      { r.enter with instances := r.instances ++ made }) where
  toSameButReports := by
    have hmade : SameButReports r { r.enter with instances := r.instances ++ made } :=
      .of_spaces rfl rfl
    exact hmade.trans (.leave ..)
  registry_eq := ⟨made, rfl⟩
  errors_eq := by
    rw [leave]
    split
    · exact errorCounts_noteFailure ..
    · rfl

/-- What is refused fails by the rules, and nothing else is accessed. -/
theorem Refuses.resolves {error : AliasError} (h : r.Refuses a arguments error) :
    ∃ made, ∀ fuel, Resolves (world fuel) a arguments r.enter [] (.error error)
      { r.enter with instances := r.instances ++ made } := by
  have hnothing : { r.enter with instances := r.instances ++ #[] } = r.enter := by simp [enter]
  cases h with
  | undefined undefined => exact ⟨#[], fun _ => hnothing ▸ .undefined undefined⟩
  | overApplied entry arguments_ne_nil =>
    exact ⟨#[], fun _ => hnothing ▸ .overApplied entry arguments_ne_nil⟩
  | notAParameterList entry noList =>
    exact ⟨#[], fun _ => hnothing ▸ .misapplied entry (Invocation.ofArguments_of_noList noList)⟩
  | bareArguments entry several =>
    exact ⟨#[], fun _ => hnothing ▸ .misapplied entry (Invocation.ofArguments_of_several several)⟩
  | @faultyParameter _ _ before after e _ _ entry faultless first called =>
    obtain ⟨made, hcompiled⟩ := exists_faulty faultless first called r.enter
    have hinvocation : Invocation.ofArguments [.sequence (before ++ e :: after)] =
        .ok (.applied (before ++ e :: after)) := rfl
    exact ⟨made, fun fuel => .faultyParameter entry hinvocation
      ((mints_world fuel).compilesAll hcompiled)⟩

/-! ## Accepted calls -/

/-- How a type function that is called with `types` answers, where `memo` is what it remembers of such
calls: with a result that is there, or by running its body, which is given the types as they are. -/
inductive Answered (fuel : Nat) (a : Accessor) (function : Generator) (memo : Option Memo)
    (types : List Ty) (s : Registry) : Except AliasError (Normalized Generator) → Registry → Prop
  | remembered {m : Memo} {x : Normalized Generator} (memo_eq : memo = some m)
    (found : m.get? types = some x) : Answered fuel a function memo types s (.ok x)
      ((s.count a.space .memoHits).note a.space .memoHit
        [("alias", a.name), ("arity", toString types.length)])
  | ran {x : Normalized Generator} {log : List Visit} {s' : Registry}
    (notFound : ∀ m, memo = some m → m.get? types = none)
    (applies : (world fuel).Applies function types
      ((s.count a.space .functionInvocations).note a.space .functionInvoked
        [("alias", a.name), ("arity", toString types.length)]) log (.ok x) s') :
    Answered fuel a function memo types s (.ok x)
      (if memo.isSome then s'.modifyAlias a (Alias.remember types x) else s')
  | failed {error : AliasError} {log : List Visit} {s' : Registry}
    (notFound : ∀ m, memo = some m → m.get? types = none)
    (applies : (world fuel).Applies function types
      ((s.count a.space .functionInvocations).note a.space .functionInvoked
        [("alias", a.name), ("arity", toString types.length)]) log (.error error) s') :
    Answered fuel a function memo types s (.error error) s'

/-- What a call comes to once its parameters are compiled. -/
theorem invoke_eq_some_iff {f : Generator} {memo : Option Memo} {call : Invocation Generator}
    {types : List Ty} {resolved : Except AliasError (Normalized Generator)}
    (hcompiled : (call.parameters.mapM Action.normalizeType : Action (List Ty)) r =
      some (.ok types, s)) :
    invoke (handler fuel) a f memo call r = some (resolved, r') ↔
      Answered fuel a f (if call.isStable then memo else none) types s resolved r' := by
  rw [invoke, bind_of_ok hcompiled]
  -- a call that is not stable is answered as if nothing were remembered
  generalize (if call.isStable then memo else none) = kept
  cases hfound : kept.bind fun m => m.get? types with
  | some x =>
    obtain ⟨m, rfl, hget⟩ := Option.bind_eq_some_iff.1 hfound
    constructor
    · intro h
      obtain ⟨rfl, rfl⟩ := Prod.mk.inj (Option.some.inj h)
      exact .remembered rfl hget
    · intro h
      cases h with
      | remembered memo_eq found =>
        obtain rfl := Option.some.inj memo_eq
        obtain rfl := Option.some.inj (hget.symm.trans found)
        rfl
      | ran notFound | failed notFound => cases hget.symm.trans (notFound _ rfl)
  | none =>
    have hnotFound : ∀ m, kept = some m → m.get? types = none := by
      rintro m rfl
      exact hfound
    simp only [Action.modify_bind_apply]
    constructor
    · intro h
      obtain ⟨x, s', happlies, h⟩ | ⟨error, happlies, rfl⟩ := Action.bind_cases h
      · obtain ⟨log, happlies⟩ := (follows_world fuel).applies (mints_world fuel) happlies
        have hran := Answered.ran hnotFound happlies
        cases kept <;> obtain ⟨rfl, rfl⟩ := Prod.mk.inj (Option.some.inj h) <;> exact hran
      · obtain ⟨log, happlies⟩ := (follows_world fuel).applies (mints_world fuel) happlies
        exact .failed hnotFound happlies
    · intro h
      cases h with
      | remembered memo_eq found => cases (hnotFound _ memo_eq).symm.trans found
      | ran _ applies =>
        have hran := (realizes_world fuel).applies applies
        cases kept <;> exact bind_of_ok hran
      | failed _ applies => exact bind_of_error ((realizes_world fuel).applies applies)

/-- What a type function comes to depends on the call that its arguments describe. -/
theorem resolveAlias_of_function {f : Generator} {memo : Option Memo} {call : Invocation Generator}
    (H : Handler (StateT Registry Option)) (entry : r.alias? a = some (.function f memo))
    (invocation : Invocation.ofArguments arguments = .ok call) :
    resolveAlias H a arguments r = invoke H a f memo call r := by
  rw [resolveAlias, Action.get_bind_apply]
  simp only [entry, invocation]
  rfl

/-- Without arguments and with an empty list of parameters, a type function is called alike. -/
theorem access_bare {f : Generator} {memo : Option Memo} (demand : Demand)
    (entry : r.alias? a = some (.function f memo)) (fuel : Nat) :
    access fuel a demand [] r = access fuel a demand [.sequence []] r := by
  cases fuel with
  | zero => rfl
  | succ fuel =>
    have hentry : r.enter.alias? a = some (.function f memo) := entry
    rw [access_succ_apply, access_succ_apply, resolveAlias_of_function _ hentry rfl,
      resolveAlias_of_function _ hentry rfl]
    rfl

end Registry

namespace Accessor

/-- To use an accessor is to access its alias. -/
theorem use_apply (fuel : Nat) (kind : AccessKind) (arguments : List TypeExpr) (a : Accessor)
    (r : Registry) :
    a.use fuel kind arguments r = Registry.access fuel a kind.demand (kind.given arguments) r :=
  Option.ext fun _ => ⟨access_of_use, use_of_access⟩

/-- Accesses that agree make calls that agree. -/
theorem call_congr {fuel : Nat} {a : Accessor} {arguments others : List TypeExpr} {r : Registry}
    (h : Registry.access fuel a .type arguments r = Registry.access fuel a .type others r) :
    a.call fuel arguments r = a.call fuel others r := by
  rw [call, call, Action.bind_apply, Action.bind_apply, h]

end Accessor

/-- **Whether a call is possible is decided before anything runs.** Whichever way an accessor is used
(`kind`), its alias either accepts the raw argument list that it is given or refuses it, but not both.

If the list is refused, the use fails with the first reason for that. It needs no more than one access
for it, enters no body, and leaves all aliases with everything that is kept and remembered for them,
all counters but `errors`, and all events but the report.

If a type function accepts the list, its parameters come to as many types in the same order, and
existing types to the same instances. The memory of the function or else its body is given these
types, and nothing is looked up or remembered unless all parameters are existing types.

A type function makes no difference between no arguments and an empty list of parameters. -/
theorem call_protocol (kind : AccessKind) (a : Accessor) (arguments : List TypeExpr)
    (r : Registry) :
    (r.Accepts a (kind.given arguments) ↔ ∀ error, ¬ r.Refuses a (kind.given arguments) error) ∧
    (∀ error, r.Refuses a (kind.given arguments) error → ∃ r', r.FailsAtOnce a error r' ∧
      ∀ fuel, a.use (fuel + 1) kind arguments r = some (.error error, r') ∧
        ∀ log, (Registry.world (fuel + 1)).accesses a kind.demand (kind.given arguments) r log
          (.error error) r' → ∃ v, log = [v] ∧ ∀ inner types, ¬ v.Runs inner types) ∧
    (∀ f memo parameters, r.alias? a = some (.function f memo) →
      (kind.given arguments = [.sequence parameters] ∨
        kind.given arguments = [] ∧ parameters = []) →
      (∀ e ∈ parameters, e.DescribesType) →
      ∃ types made, List.Forall₂ Registry.ComesTo parameters types ∧
        ∀ fuel answer r', a.use (fuel + 1) kind arguments r = some (answer, r') ↔
          ∃ resolved s, Registry.Answered fuel a f (if parameters.all Expr.isLeaf then memo else none)
              types { r.enter with instances := r.instances ++ made } resolved s ∧
            answer = resolved >>= kind.demand.require ∧ r' = r.leave a answer s) ∧
    (∀ f memo, r.alias? a = some (.function f memo) → ∀ fuel,
      a.get fuel r = a.apply fuel [] r ∧
      a.call fuel [] r = a.call fuel [.sequence []] r ∧
      a.resolve fuel [] r = a.resolve fuel [.sequence []] r) := by
  refine ⟨Registry.accepts_iff_not_refuses, fun error hrefuses => ?_,
    fun f memo parameters entry hgiven faultless => ?_, fun f memo entry fuel => ?_⟩
  · -- what is refused makes types at most, so its access is the only one and fails
    obtain ⟨made, hresolves⟩ := hrefuses.resolves
    have hfails := Registry.failsAtOnce_leave r a error made
    refine ⟨_, hfails, fun fuel => ⟨?_, fun log hlog => Registry.alone_of_counted hlog ?_⟩⟩
    · rw [Accessor.use_apply]
      exact Registry.access_of_accesses (.intro (hresolves fuel) rfl)
    · rw [Registry.counted_eq, Registry.counted_eq, hfails.tallies_eq _ (by decide)]
  · obtain ⟨types, made, hcompiled, hcomes⟩ := Registry.exists_types faultless r.enter
    -- an accepted list describes a call, with these parameters
    obtain ⟨call, invocation, rfl⟩ : ∃ call : Invocation Generator,
        Invocation.ofArguments (kind.given arguments) = .ok call ∧ call.parameters = parameters := by
      obtain hgiven | ⟨hgiven, rfl⟩ := hgiven
      · exact ⟨.applied parameters, by rw [hgiven]; rfl, rfl⟩
      · exact ⟨.bare, by rw [hgiven]; rfl, rfl⟩
    have hentry : r.enter.alias? a = some (.function f memo) := entry
    refine ⟨types, made, hcomes, fun fuel answer r' => ?_⟩
    rw [Accessor.use_apply, Registry.access_succ_apply,
      Registry.resolveAlias_of_function _ hentry invocation, Option.map_eq_some_iff]
    constructor
    · rintro ⟨⟨resolved, s⟩, hinvoke, h⟩
      obtain ⟨rfl, rfl⟩ := Prod.mk.inj h
      exact ⟨resolved, s, (Registry.invoke_eq_some_iff hcompiled).1 hinvoke, rfl, rfl⟩
    · rintro ⟨resolved, s, hanswered, rfl, rfl⟩
      exact ⟨(resolved, s), (Registry.invoke_eq_some_iff hcompiled).2 hanswered, rfl⟩
  · -- for a type function, no arguments and one empty list come to the same call
    have haccess (demand : Demand) := Registry.access_bare demand entry fuel
    have hcall := Accessor.call_congr (haccess .type)
    exact ⟨hcall, hcall, haccess .any⟩

/-- A function is called with a raw value among its parameters, with a raw array in place of the list
of parameters, with two arguments in place of one list, and with parameters that describe types. -/
theorem listed_refuses_and_answers :
    let int : Ty := ⟨0, .primitive .int⟩
    let listed : Generator := .mk [] fun types => .finish (.sequence (types.map .leaf))
    let a : Accessor := ⟨0, "Listed", 0⟩
    let r := ((Registry.bind 0 "Listed" (.generator listed)).run.run
      (Registry.addSpace {} "main" .memoized).2).2
    let parameters : List TypeExpr := [.leaf int, .sequence [.leaf int]]
    (∃ r', r.FailsAtOnce a (.unsupportedLiteral "raw null value") r' ∧
      a.use 1 .apply [.leaf int, .data .null, .data (.bool true)] r =
        some (.error (.unsupportedLiteral "raw null value"), r')) ∧
    (∃ r', r.FailsAtOnce a (.usage "expected a parameter list, got a single array argument") r' ∧
      a.use 1 .resolve [.data (.array [.null])] r =
        some (.error (.usage "expected a parameter list, got a single array argument"), r')) ∧
    (∃ r', r.FailsAtOnce a (.usage "expected a single parameter list, got 2 bare arguments") r' ∧
      a.use 1 .call [.leaf int, .data .null] r =
        some (.error (.usage "expected a single parameter list, got 2 bare arguments"), r')) ∧
    ∃ types s resolved s' answer r', List.Forall₂ Registry.ComesTo parameters types ∧
      Registry.Answered 1 a listed none types s resolved s' ∧
      a.use 2 .apply parameters r = some (answer, r') ∧
      answer = resolved >>= Demand.require .type := by
  intro int listed a r parameters
  have hbound : (Registry.bind 0 "Listed" (.generator listed)).toAction
      (Registry.addSpace {} "main" .memoized).2 = some (.ok a, r) := rfl
  have hentry : r.alias? a = some (.function listed (some {})) :=
    ((Registry.binds_of hbound).of_ok rfl).2
  refine ⟨?_, ?_, ?_, ?_⟩
  · have hraw : Expr.FirstFault (F := Generator) (.data .null) (.rawValue .null) := .data .null
    have hrefuses : r.Refuses a [.sequence [.leaf int, .data .null, .data (.bool true)]]
        (.unsupportedLiteral "raw null value") :=
      @Registry.Refuses.faultyParameter _ _ _ _ [.leaf int] _ _ _ _ hentry
        (List.forall_mem_singleton.2 (Expr.describesType_leaf int)) hraw
        (.rawValue .null)
    obtain ⟨-, hrefused, -⟩ :=
      call_protocol .apply a [.leaf int, .data .null, .data (.bool true)] r
    obtain ⟨r', hfails, huse⟩ := hrefused _ hrefuses
    exact ⟨r', hfails, (huse 0).1⟩
  · have hrefuses : r.Refuses a [.data (.array [.null])]
        (.usage "expected a parameter list, got a single array argument") :=
      .notAParameterList hentry (.data (.array _))
    obtain ⟨-, hrefused, -⟩ := call_protocol .resolve a [.data (.array [.null])] r
    obtain ⟨r', hfails, huse⟩ := hrefused _ hrefuses
    exact ⟨r', hfails, (huse 0).1⟩
  · have htext : s!"expected a single parameter list, got {2} bare arguments" =
        "expected a single parameter list, got 2 bare arguments" := by decide +kernel
    have hrefuses : r.Refuses a [.leaf int, .data .null]
        (.usage s!"expected a single parameter list, got {2} bare arguments") :=
      .bareArguments hentry (Nat.le_refl 2)
    rw [htext] at hrefuses
    obtain ⟨-, hrefused, -⟩ := call_protocol .call a [.leaf int, .data .null] r
    obtain ⟨r', hfails, huse⟩ := hrefused _ hrefuses
    exact ⟨r', hfails, (huse 0).1⟩
  · have hint : (Expr.leaf int : TypeExpr).DescribesType := Expr.describesType_leaf int
    have hparameters : ∀ e ∈ parameters, e.DescribesType := List.forall_mem_cons.2
      ⟨hint, List.forall_mem_singleton.2
        (Expr.describesType_sequence_iff.2 (List.forall_mem_singleton.2 hint))⟩
    obtain ⟨-, -, haccepted, -⟩ := call_protocol .apply a parameters r
    obtain ⟨types, made, hcomes, huse⟩ :=
      haccepted listed (some {}) parameters hentry (.inl rfl) hparameters
    obtain ⟨answer, r', hused⟩ : ∃ answer r', a.use 2 .apply parameters r = some (answer, r') :=
      Prod.exists.1 (Option.isSome_iff_exists.1 (by decide +kernel))
    obtain ⟨resolved, s', hanswered, hanswer, -⟩ := (huse 1 answer r').1 hused
    exact ⟨types, _, resolved, s', answer, r', hcomes, hanswered, hused, hanswer⟩

end NamedTypes
