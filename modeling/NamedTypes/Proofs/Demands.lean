import NamedTypes.Proofs.AliasChanges
import NamedTypes.Proofs.CallProtocol
import NamedTypes.Proofs.Reentry
import NamedTypes.Proofs.Transparency

/-! # Demanding a type
To call an alias is to resolve it and to demand a type of what it comes to (`call_resolves`). The
demand is made when everything else has happened, so a call that ends with a type function fails but
leaves all that resolving the alias leaves, the function remembered for the next time.

What is remembered is the first result of a call with the same instances. A body that makes the same
call comes to that result earlier than the call that it belongs to
(`reentrant_call_keeps_inner_function`); a body that is determined by structure does not
(`Registry.hitsMemo_of_determined`). -/

namespace NamedTypes

/-- How a demand for a type fails. -/
def Demand.failure : AliasError := .unsupportedLiteral "type function where a type was expected"

namespace Visit

/-- The visit with another demand and what comes of that. -/
def demanding (v : Visit) (demand : Demand) (after : Registry) : Visit :=
  { v with demand := demand, after := after }

/-- What a function runs on does not depend on the demand. -/
theorem Runs.demanding {v : Visit} {inner : List Visit} {types : List Ty} {demand : Demand}
    {after : Registry} (h : v.Runs inner types)
    (hcounted : ∀ counter, counter ≠ .errors →
      after.counted v.accessor.space counter = v.after.counted v.accessor.space counter) :
    (v.demanding demand after).Runs inner types := by
  obtain ⟨fuel, function, start, finish, h⟩ := h
  exact ⟨fuel, function, start, finish,
    { definition?_eq := h.definition?_eq
      parameters := h.parameters
      functionInvocations := h.functionInvocations
      memoHits := h.memoHits
      applies := h.applies
      counted_eq := fun counter hcounter =>
        (hcounted counter hcounter).trans (h.counted_eq counter hcounter) }⟩

end Visit

namespace Registry

variable {r r' r₁ s : Registry} {a : Accessor} {arguments : List TypeExpr} {types : List Ty}
  {fuel : Nat}

/-! ## What the demand adds -/

/-- What comes of resolving an alias when a type is demanded. A type function is a failure, which is
reported if no access was running. -/
def demandType (r : Registry) (a : Accessor) :
    Except AliasError (Normalized Generator) × Registry → Except AliasError Ty × Registry
  | (.ok (.type t), after) => (.ok t, after)
  | (.ok (.function _), after) =>
    (.error Demand.failure,
      if r.depth = 0 then after.noteFailure a.space a.name .resolutionFailed Demand.failure
      else after)
  | (.error error, after) => (.error error, after)

theorem instances_noteFailure (r : Registry) (space : Nat) (name : String) (event : Log.Event)
    (error : AliasError) : (r.noteFailure space name event error).instances = r.instances := by
  rw [noteFailure, note]
  split <;> rfl

/-- The demand reports and does nothing else. -/
theorem demandType_sameButReports (r : Registry) (a : Accessor)
    (p : Except AliasError (Normalized Generator) × Registry) :
    SameButReports p.2 (r.demandType a p).2 ∧ (r.demandType a p).2.depth = p.2.depth ∧
      (r.demandType a p).2.instances = p.2.instances := by
  have hsame : SameButReports p.2 p.2 := .of_spaces rfl rfl
  obtain ⟨_ | t | f, after⟩ := p
  · exact ⟨hsame, rfl, rfl⟩
  · exact ⟨hsame, rfl, rfl⟩
  · rw [demandType]
    split
    · exact ⟨.noteFailure .., depth_note .., instances_noteFailure ..⟩
    · exact ⟨hsame, rfl, rfl⟩

/-- Leaving an access with a type demanded is leaving it without, and then the demand. -/
theorem leave_demandType (r : Registry) (a : Accessor)
    (resolved : Except AliasError (Normalized Generator)) (s : Registry) :
    (resolved >>= Demand.require .type, r.leave a (resolved >>= Demand.require .type) s) =
      (Normalized.type <$> (r.demandType a (resolved, r.leave a resolved s)).1,
        (r.demandType a (resolved, r.leave a resolved s)).2) := by
  obtain _ | t | f := resolved <;> rfl

/-! ## Logs -/

/-- What a call for a type and the resolution of an alias have done, if they began alike. -/
structure CallsAs (fuel : Nat) (a : Accessor) (arguments : List TypeExpr) (r : Registry)
    (resolved : Except AliasError (Normalized Generator)) (r₁ : Registry)
    (outcome : Except AliasError Ty) (r₂ : Registry) : Prop where
  /-- All that is kept and remembered, all counters but `errors` and all events but failures are the
  same. -/
  sameButReports : SameButReports r₁ r₂
  instances_eq : r₂.instances = r₁.instances
  exists_log : ∃ inner v, (world fuel).accesses a .any arguments r (inner ++ [v]) resolved r₁
  /-- The accesses inside of a resolution are those inside of the call, and the same bodies have run
  on the same types. -/
  resolution : ∀ inner v, (world fuel).accesses a .any arguments r (inner ++ [v]) resolved r₁ →
    (world fuel).accesses a .type arguments r (inner ++ [v.demanding .type r₂])
        (.type <$> outcome) r₂ ∧
      ∀ types, (v.demanding .type r₂).Runs inner types ↔ v.Runs inner types
  /-- The accesses inside of a call are those inside of the resolution. -/
  call : ∀ inner v, (world fuel).accesses a .type arguments r (inner ++ [v]) (.type <$> outcome) r₂ →
    (world fuel).accesses a .any arguments r (inner ++ [v.demanding .any r₁]) resolved r₁

/-- The last entry of a log is the access itself. -/
theorem accesses_concat_iff {demand : Demand} {inner : List Visit} {v : Visit}
    {answer : Except AliasError (Normalized Generator)} :
    (world (fuel + 1)).accesses a demand arguments r (inner ++ [v]) answer r' ↔
      ∃ resolved s, Resolves (world fuel) a arguments r.enter inner resolved s ∧
        answer = resolved >>= demand.require ∧ r' = r.leave a answer s ∧
        v = ⟨a, demand, arguments, r, resolved, r'⟩ := by
  constructor
  · intro h
    generalize hlog : inner ++ [v] = log at h
    obtain @⟨inner', resolved, _, s, resolves, hanswer⟩ := h
    obtain ⟨rfl, hv⟩ := List.append_inj' hlog rfl
    exact ⟨resolved, s, resolves, hanswer, rfl, List.singleton_inj.1 hv⟩
  · rintro ⟨resolved, s, resolves, hanswer, rfl, rfl⟩
    exact .intro resolves hanswer

/-- Whatever an alias comes to is an answer where any will do. -/
@[simp] theorem bind_require_any (resolved : Except AliasError (Normalized Generator)) :
    (resolved >>= Demand.require .any) = resolved := by
  cases resolved <;> rfl

/-- **A call does what the resolution has done**, and then makes its demand. -/
theorem callsAs_of_resolve {resolved : Except AliasError (Normalized Generator)}
    (h : a.resolve fuel arguments r = some (resolved, r₁)) :
    CallsAs fuel a arguments r resolved r₁ (r.demandType a (resolved, r₁)).1
      (r.demandType a (resolved, r₁)).2 := by
  obtain ⟨hsame, -, hinstances⟩ := r.demandType_sameButReports a (resolved, r₁)
  cases fuel with
  | zero => cases h
  | succ fuel =>
    rw [Accessor.resolve, access_succ_apply, Option.map_eq_some_iff] at h
    obtain ⟨⟨resolved', s⟩, hresolve, h⟩ := h
    rw [bind_require_any] at h
    obtain ⟨rfl, rfl⟩ := Prod.mk.inj h
    have hcounted (counter : Counter) (hcounter : counter ≠ .errors) :
        (r.demandType a (resolved', r.leave a resolved' s)).2.counted a.space counter =
          (r.leave a resolved' s).counted a.space counter := by
      rw [counted_eq, counted_eq, hsame.tallies_eq counter hcounter]
    -- what is accessed inside belongs to resolving the alias, which the demand does not touch
    obtain ⟨houtcome, hafter⟩ := Prod.mk.inj (r.leave_demandType a resolved' s)
    refine ⟨hsame, hinstances, ?_, fun inner v hlog => ?_, fun inner v hlog => ?_⟩
    · obtain ⟨inner, hresolves⟩ := (follows_world fuel).resolves (mints_world fuel) hresolve
      exact ⟨inner, _, accesses_concat_iff.2
        ⟨_, _, hresolves, (bind_require_any _).symm, rfl, rfl⟩⟩
    · obtain ⟨resolved'', s', resolves, hanswer, hleave, rfl⟩ := accesses_concat_iff.1 hlog
      rw [bind_require_any] at hanswer
      subst hanswer
      obtain ⟨-, rfl⟩ :=
        Prod.mk.inj (Option.some.inj (hresolve.symm.trans ((realizes_world fuel).resolves resolves)))
      refine ⟨accesses_concat_iff.2 ⟨_, _, resolves, houtcome.symm, ?_, rfl⟩, fun types =>
        ⟨fun hruns => ?_, fun hruns => hruns.demanding hcounted⟩⟩
      · rw [← houtcome, hafter]
      · exact hruns.demanding fun counter hcounter => (hcounted counter hcounter).symm
    · obtain ⟨resolved'', s', resolves, -, -, rfl⟩ := accesses_concat_iff.1 hlog
      obtain ⟨rfl, rfl⟩ :=
        Prod.mk.inj (Option.some.inj (hresolve.symm.trans ((realizes_world fuel).resolves resolves)))
      exact accesses_concat_iff.2 ⟨_, _, resolves, (bind_require_any _).symm, rfl, rfl⟩

end Registry

/-- Calling an alias is resolving it and demanding a type. -/
theorem Accessor.call_apply (fuel : Nat) (a : Accessor) (arguments : List TypeExpr)
    (r : Registry) :
    a.call fuel arguments r = (a.resolve fuel arguments r).map (r.demandType a) := by
  cases fuel with
  | zero => rfl
  | succ fuel =>
    rw [call, resolve, Action.bind_apply, Registry.access_succ_apply, Registry.access_succ_apply]
    obtain _ | ⟨_ | t | f, s⟩ := Registry.resolveAlias (Registry.handler fuel) a arguments r.enter <;>
      rfl

namespace Registry

variable {r r' r₁ s : Registry} {a : Accessor} {arguments : List TypeExpr} {types : List Ty}
  {fuel : Nat}

/-! ## What is remembered of a call -/

theorem mapM_normalizeType_leaves (types : List Ty) (r : Registry) :
    ((types.map .leaf).mapM Action.normalizeType : Action (List Ty)) r = some (.ok types, r) := by
  induction types with
  | nil => rfl
  | cons t types ih =>
    have hfirst : Action.normalizeType (.leaf t) r = some (.ok t, r) := rfl
    rw [List.map_cons, List.mapM_cons, bind_of_ok hfirst, bind_of_ok ih]
    rfl

/-- Counting and noting inside of an access that ends is the same without the access. -/
theorem leave_note_count (r : Registry) (a : Accessor) (x : Normalized Generator) (space : Nat)
    (counter : Counter) (event : Log.Event) (fields : Entries String) :
    r.leave a (.ok x : Except AliasError (Normalized Generator))
      ((r.enter.count space counter).note space event fields) =
      (r.count space counter).note space event fields := by
  have hspace : (r.enter.count space counter).space? space = (r.count space counter).space? space :=
    rfl
  rw [note, note, hspace]
  cases (r.count space counter).space? space <;> rfl

/-- What a function remembers of a call answers the next one, and the body does not run. -/
theorem resolve_of_remembered {f : Generator} {m : Memo} {x : Normalized Generator}
    (entry : r.alias? a = some (.function f (some m))) (found : m.get? types = some x)
    (h : Passes arguments types) (fuel : Nat) :
    a.resolve (fuel + 1) arguments r = some (.ok x,
      (r.count a.space .memoHits).note a.space .memoHit
        [("alias", a.name), ("arity", toString types.length)]) := by
  obtain ⟨call, invocation, hparameters, stable⟩ := h.invocation
  have hentry : r.enter.alias? a = some (.function f (some m)) := entry
  have hcompiled : (call.parameters.mapM Action.normalizeType : Action (List Ty)) r.enter =
      some (.ok types, r.enter) := hparameters ▸ mapM_normalizeType_leaves types r.enter
  rw [Accessor.resolve, access_succ_apply, resolveAlias_of_function _ hentry invocation,
    (invoke_eq_some_iff hcompiled).2 (.remembered (if_pos stable) found), Option.map_some,
    bind_require_any, leave_note_count]

/-- **What is remembered of a resolution** is its result, or else the first one that the same call has
come to inside of it. -/
theorem remembered_of_accesses {f : Generator} {m : Memo} {inner : List Visit} {v : Visit}
    {x : Normalized Generator} (entry : r.alias? a = some (.function f (some m)))
    (hpasses : Passes arguments types)
    (h : (world fuel).accesses a .any arguments r (inner ++ [v]) (.ok x) r₁) :
    ∃ m', r₁.alias? a = some (.function f (some m')) ∧
      m'.get? types = some ((firstResult? a types inner).getD x) := by
  cases fuel with
  | zero => exact h.elim
  | succ fuel =>
    obtain ⟨memo', hentry', hgrows⟩ := (keeps_enlarges (fuel + 1) a).accesses h f (some m) entry
    obtain ⟨resolved, s, -, hanswer, -, rfl⟩ := accesses_concat_iff.1 h
    rw [bind_require_any] at hanswer
    subst hanswer
    cases hgrows with
    | @adds _ new _ get?_eq =>
      refine ⟨_, hentry', ?_⟩
      rw [get?_eq]
      cases hfound : m.get? types with
      | none =>
        -- the result is the last one in the log of the access
        have hgiven : Visit.instances? ⟨a, .any, arguments, r, .ok x, r₁⟩ = some types :=
          Visit.instances?_eq_some_iff.2 hpasses
        rw [Option.none_or, firstResult?_concat, Visit.resultOf?_of_ok rfl hgiven rfl, if_pos rfl]
        cases firstResult? a types inner <;> rfl
      | some y =>
        -- the access itself was answered with what had been remembered, and nothing has run
        have hserved := resolve_of_remembered entry hfound hpasses fuel
        obtain ⟨hx, rfl⟩ :=
          Prod.mk.inj (Option.some.inj (hserved.symm.trans (access_of_accesses h)))
        have hcounted : ((r.count a.space .memoHits).note a.space .memoHit
            [("alias", a.name), ("arity", toString types.length)]).counted a.space
              .functionInvocations = r.counted a.space .functionInvocations := by
          rw [counted_note, counted_count_of_ne (.inr (by decide))]
        obtain ⟨w, hlog, -⟩ := alone_of_counted h hcounted
        obtain rfl : inner = [] := by simpa using congrArg List.length hlog
        rw [Option.some_or, Except.ok.inj hx]
        rfl

/-- Whatever passes these types on to the alias is answered with `x` from memory, and nothing runs. -/
def HitsMemo (r : Registry) (a : Accessor) (types : List Ty) (x : Normalized Generator) : Prop :=
  ∀ arguments, Passes arguments types → ∀ fuel, a.resolve (fuel + 1) arguments r = some (.ok x,
    (r.count a.space .memoHits).note a.space .memoHit
      [("alias", a.name), ("arity", toString types.length)])

theorem hitsMemo_of_remembered {f : Generator} {m : Memo} {x : Normalized Generator}
    (entry : r.alias? a = some (.function f (some m))) (found : m.get? types = some x) :
    r.HitsMemo a types x :=
  fun _ hpasses fuel => resolve_of_remembered entry found hpasses fuel

/-- In a session whose functions are determined by structure, no call comes to a result inside of the
same call, so the next one is answered with the result of this one. -/
theorem hitsMemo_of_determined {K : Ty → Prop} {f : Generator} {m : Memo} {inner : List Visit}
    {v : Visit} {x : Normalized Generator} (entry : r.alias? a = some (.function f (some m)))
    (hpasses : Passes arguments types)
    (h : (world fuel).accesses a .any arguments r (inner ++ [v]) (.ok x) r₁)
    (hK : ToldApart K) (hmatches : Matches K K r r) (hlog : Regular K (inner ++ [v])) :
    r₁.HitsMemo a types x := by
  obtain ⟨m', hentry, hget⟩ := remembered_of_accesses entry hpasses h
  rw [firstResult?_of_determined (hmatches.determined hK hlog) hpasses h, Option.getD_none] at hget
  exact hitsMemo_of_remembered hentry hget

end Registry

open Registry in
/-- **To call an alias is to resolve it and to demand a type of the result.** The call does whatever
the resolution does. It ends with the same type or with the same error, unless the resolution ends
with a type function: that fails, and is reported if no access was running.

The type function has been remembered by then, if the alias remembers results and all parameters are
existing types. The next resolution with the same instances is answered from memory, and with the
first result that the same call has come to: that of this resolution, unless the same call has come
to a result before that, inside of the body. -/
theorem call_resolves (fuel : Nat) (a : Accessor) (arguments : List TypeExpr) (r : Registry) :
    a.call fuel arguments r = (a.resolve fuel arguments r).map (r.demandType a) ∧
    (∀ resolved r₁, a.resolve fuel arguments r = some (resolved, r₁) →
      ∃ outcome r₂, a.call fuel arguments r = some (outcome, r₂) ∧
        CallsAs fuel a arguments r resolved r₁ outcome r₂ ∧
        (∀ t, outcome = .ok t ↔ resolved = .ok (.type t)) ∧
        (∀ error, resolved = .error error → outcome = .error error) ∧
        (∀ g, resolved = .ok (.function g) → outcome = .error Demand.failure ∧
          r₂ = if r.depth = 0 then
              r₁.noteFailure a.space a.name .resolutionFailed Demand.failure
            else r₁) ∧
        ((∀ g, resolved ≠ .ok (.function g)) → r₂ = r₁) ∧
        ∀ f m types x, r.alias? a = some (.function f (some m)) → Passes arguments types →
          resolved = .ok x →
          ∀ inner v, (world fuel).accesses a .any arguments r (inner ++ [v]) resolved r₁ →
            r₂.HitsMemo a types ((firstResult? a types inner).getD x)) ∧
    a.apply fuel arguments r = a.call fuel [.sequence arguments] r ∧
    a.get fuel r = a.call fuel [] r := by
  refine ⟨a.call_apply fuel arguments r, fun resolved r₁ hresolve => ?_, rfl, rfl⟩
  have hcall : a.call fuel arguments r = some (r.demandType a (resolved, r₁)) := by
    rw [a.call_apply, hresolve, Option.map_some]
  obtain ⟨hsame, -⟩ := r.demandType_sameButReports a (resolved, r₁)
  refine ⟨_, _, hcall, callsAs_of_resolve hresolve, fun t => ?_, ?_, ?_, fun hfunction => ?_,
    fun f m types x entry hpasses hx inner v hlog => ?_⟩
  · obtain _ | u | g := resolved
    · exact ⟨nofun, nofun⟩
    · exact ⟨fun h => by rw [Except.ok.inj h], fun h => by rw [Normalized.type.inj (Except.ok.inj h)]⟩
    · exact ⟨nofun, nofun⟩
  · rintro error rfl
    rfl
  · rintro g rfl
    exact ⟨rfl, rfl⟩
  · obtain _ | u | g := resolved
    · rfl
    · rfl
    · exact absurd rfl (hfunction g)
  · subst hx
    obtain ⟨m', hentry, hget⟩ := remembered_of_accesses entry hpasses hlog
    -- the demand keeps what is remembered
    have hentry' : (r.demandType a (.ok x, r₁)).2.alias? a = some (.function f (some m')) := by
      rw [alias?_of_slots_eq hsame.slots_eq, hentry]
    exact hitsMemo_of_remembered hentry' hget

/-- A function that pairs its parameters with those of a function that it comes to is called where a
type is needed. The call fails and is reported, but from then on the function is answered from
memory. -/
theorem keyed_fails_and_is_remembered :
    let string : Ty := ⟨0, .primitive .str⟩
    let paired (types : List Ty) : List Ty → Body :=
      fun others => .finish (.sequence ((types ++ others).map .leaf))
    let keyed : Generator :=
      .mk [] fun types => .build [] (paired types) fun position => .finish (.generator position)
    let a : Accessor := ⟨0, "Keyed", 0⟩
    let r := ((Registry.bind 0 "Keyed" (.generator keyed)).run.run
      (Registry.addSpace {} "main" .memoized).2).2
    ∃ r₂, a.call 1 [.sequence [.leaf string]] r = some (.error Demand.failure, r₂) ∧
      (r₂.counted 0 .functionInvocations, r₂.counted 0 .errors) = (1, 1) ∧
      r₂.HitsMemo a [string] (.function (.mk [] (paired [string]))) := by
  intro string paired keyed a r
  have hbound : (Registry.bind 0 "Keyed" (.generator keyed)).toAction
      (Registry.addSpace {} "main" .memoized).2 = some (.ok a, r) := rfl
  have hentry : r.alias? a = some (.function keyed (some {})) :=
    ((Registry.binds_of hbound).of_ok rfl).2
  have hpasses : Passes [.sequence [.leaf string]] [string] := .inl rfl
  -- the body accesses nothing
  let function : Normalized Generator := .function (.mk [] (paired [string]))
  obtain ⟨v, r₁, hlog⟩ : ∃ v r₁, (Registry.world 1).accesses a .any [.sequence [.leaf string]] r
      ([] ++ [v]) (.ok function) r₁ := by
    have hentry : r.enter.alias? a = some (.function keyed (some {})) := hentry
    have hcompiles : (Registry.world 0).CompilesAll [.leaf string] r.enter (.ok [string]) r.enter :=
      .cons (.existing rfl) .nil
    have happlies (s : Registry) :
        (Registry.world 0).Applies keyed [string] s [] (.ok function) s :=
      .produced (.build .finish) .function
    exact ⟨_, _, .intro (.ran hentry rfl hcompiles (fun _ => rfl) (happlies _)) rfl⟩
  obtain ⟨-, hresolves, -⟩ := call_resolves 1 a [.sequence [.leaf string]] r
  obtain ⟨outcome, r₂, hcall, -, -, -, hfunction, -, hmemo⟩ :=
    hresolves _ _ (Registry.access_of_accesses hlog)
  obtain ⟨rfl, -⟩ := hfunction _ rfl
  have hcounted : (a.call 1 [.sequence [.leaf string]] r).map
      (fun p => (p.2.counted 0 .functionInvocations, p.2.counted 0 .errors)) = some (1, 1) := by
    decide +kernel
  rw [hcall, Option.map_some] at hcounted
  exact ⟨r₂, hcall, Option.some.inj hcounted, hmemo keyed {} [string] _ hentry hpasses rfl _ _ hlog⟩

/-! ## The same call inside of a call -/

/-- A function that comes to a function. If the type that it makes first has the identity `id`, it
calls `a` with its own types before that, and what it comes to captures the result. -/
def Generator.reentrant (a : Accessor) (id : Nat) : Generator :=
  .mk [] fun types => .create (.primitive .str) fun t =>
    if t.id = id then .access a .any [.sequence (types.map .leaf)] fun
      | .ok (.type t) => .finish (.leaf t)
      | .ok (.function inner) => .build [inner] row fun position => .finish (.generator position)
      | .error error => .fail error
    else .build [] row fun position => .finish (.generator position)
where
  /-- A function that lists its parameters. -/
  row (types : List Ty) : Body := .finish (.sequence (types.map .leaf))

/-- How many functions an answer has captured, if it is a function. -/
def capturedBy : Except AliasError (Normalized Generator) → Option Nat
  | .ok (.function f) => some f.captured.length
  | _ => none

theorem exists_of_capturedBy {answer : Except AliasError (Normalized Generator)} {n : Nat}
    (h : capturedBy answer = some n) :
    ∃ f : Generator, answer = .ok (.function f) ∧ f.captured.length = n := by
  obtain _ | _ | f := answer
  · cases h
  · cases h
  · exact ⟨f, rfl, Option.some.inj h⟩

/-- The first time that a function runs, it calls itself with the types that it was called with. The
call of a user ends with the outer function `f`, but what is remembered and answered from then on is
the inner one, `g`. For another instance of the same type nothing is remembered at all. -/
theorem reentrant_call_keeps_inner_function :
    let int : Ty := ⟨0, .primitive .int⟩
    let other : Ty := ⟨1, .primitive .int⟩
    let a : Accessor := ⟨0, "Keyed", 0⟩
    let declarations : Registry.Declaration Accessor := do
      let a ← Registry.declareForward 0 "Keyed"
      Registry.bind 0 "Keyed" (.generator (.reentrant a 2))
    let r := (declarations.run.run (((Registry.newType {} int.validator).2.newType
      other.validator).2.addSpace "main" .memoized).2).2
    ∃ f g r₁ r₂ r₃, a.resolve 2 [.sequence [.leaf int]] r = some (.ok (.function f), r₁) ∧
      a.call 2 [.sequence [.leaf int]] r = some (.error Demand.failure, r₂) ∧
      a.resolve 2 [.sequence [.leaf int]] r₂ = some (.ok (.function g), r₃) ∧
      r₃.counted 0 .memoHits = 1 ∧ g ≠ f ∧
      ∃ answer r₄, a.resolve 2 [.sequence [.leaf other]] r₂ = some (answer, r₄) ∧
        r₄.counted 0 .memoHits = 0 ∧ r₄.counted 0 .functionInvocations = 3 := by
  intro int other a declarations r
  obtain ⟨⟨answer, r₁⟩, hresolve, houter⟩ :
      ∃ step, a.resolve 2 [.sequence [.leaf int]] r = some step ∧ capturedBy step.1 = some 1 :=
    Option.map_eq_some_iff.1 (by decide +kernel)
  obtain ⟨⟨outcome, r₂⟩, hcall, hends⟩ : ∃ step, a.call 2 [.sequence [.leaf int]] r = some step ∧
      (step.1.map (fun _ => ()),
        (a.resolve 2 [.sequence [.leaf int]] step.2).map fun next =>
          (capturedBy next.1, next.2.counted 0 .memoHits),
        (a.resolve 2 [.sequence [.leaf other]] step.2).map fun next =>
          (next.2.counted 0 .memoHits, next.2.counted 0 .functionInvocations)) =
      (.error Demand.failure, some (some 0, 1), some (0, 3)) :=
    Option.map_eq_some_iff.1 (by decide +kernel)
  simp only [Prod.mk.injEq] at hends
  obtain ⟨hfails, hagain, hother⟩ := hends
  obtain ⟨⟨answer', r₃⟩, hagain, hfound⟩ := Option.map_eq_some_iff.1 hagain
  obtain ⟨⟨answer'', r₄⟩, hother, hcounted⟩ := Option.map_eq_some_iff.1 hother
  obtain ⟨hinner, hhits⟩ := Prod.mk.inj hfound
  obtain ⟨f, rfl, hf⟩ := exists_of_capturedBy houter
  obtain ⟨g, rfl, hg⟩ := exists_of_capturedBy hinner
  cases outcome with
  | ok => cases hfails
  | error =>
    obtain rfl := Except.error.inj hfails
    refine ⟨f, g, r₁, r₂, r₃, hresolve, hcall, hagain, hhits, ?_, answer'', r₄, hother,
      Prod.mk.inj hcounted⟩
    rintro rfl
    exact absurd (hg.symm.trans hf) (by decide)

end NamedTypes
