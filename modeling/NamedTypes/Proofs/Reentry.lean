import NamedTypes.Proofs.Acceptance
import NamedTypes.Proofs.Matching
import NamedTypes.Proofs.Remembering

/-! # Calls inside of the same call
A body may call the very function that it belongs to, with the types that it was called with. Where
functions are determined by structure (`Registry.Determined`), such a call never ends: it would lead
to another one inside of itself, and so on. So nothing has come of the same call when a call comes to
its result (`Registry.firstResult?_of_determined`).

The argument is by a run of least fuel. Of all meanings that a function has for types like the given
ones, one with the least fuel contains no such call (`exists_avoiding`); and every other run goes in
lockstep with it (`Registry.lockstep_avoiding`). -/

namespace NamedTypes

/-! ## Calls with types like given ones -/

/-- Arguments that call a function with types that hold validators like the given ones. -/
def CallsWith (arguments : List TypeExpr) (vs : List Validator) : Prop :=
  ∃ call ws, Invocation.ofArguments arguments = .ok call ∧
    Expr.validators call.parameters = .ok ws ∧ List.Forall₂ Validator.Alike ws vs

theorem Passes.validators_eq {arguments : List TypeExpr} {types : List Ty}
    (h : Passes arguments types) {call : Invocation Generator}
    (invocation : Invocation.ofArguments arguments = .ok call) :
    Expr.validators call.parameters = .ok (types.map Ty.validator) := by
  obtain ⟨call', invocation', hparameters, -⟩ := h.invocation
  obtain rfl := Except.ok.inj (invocation.symm.trans invocation')
  rw [hparameters, Expr.validators_eq_ok_iff, List.map_map, List.map_map]
  exact List.map_congr_left fun t _ => rfl

/-- Passing types on is calling with them. -/
theorem Passes.callsWith {arguments : List TypeExpr} {types : List Ty}
    (h : Passes arguments types) : CallsWith arguments (types.map Ty.validator) := by
  obtain ⟨call, invocation, -⟩ := h.invocation
  exact ⟨call, _, invocation, h.validators_eq invocation, List.forall₂_same.2 fun v _ => .refl v⟩

theorem Validator.Alike.trans_all {us vs ws : List Validator} (h : List.Forall₂ Alike us vs)
    (h' : List.Forall₂ Alike vs ws) : List.Forall₂ Alike us ws := by
  induction h generalizing ws with
  | nil => exact h'
  | cons first _ ih =>
    cases h' with
    | cons first' rest' => exact .cons (first.trans first') (ih rest')

theorem Validator.Alike.symm_all {us vs : List Validator} (h : List.Forall₂ Alike us vs) :
    List.Forall₂ Alike vs us :=
  h.flip.imp fun _ _ => symm

/-- Whether arguments call a function with given types is the same for alike arguments. -/
theorem CallsWith.of_alike {arguments arguments' : List TypeExpr} {vs : List Validator}
    (h : CallsWith arguments vs) (halike : List.Forall₂ TypeExpr.Alike arguments arguments') :
    CallsWith arguments' vs := by
  obtain ⟨call, ws, hcall, hws, hvs⟩ := h
  have hinvocation := Invocation.likewise_ofArguments halike
  rw [hcall] at hinvocation
  generalize hcall' : Invocation.ofArguments arguments' = outcome at hinvocation
  obtain @⟨_, call', related⟩ := hinvocation
  have hvalidators : Likewise (List.Forall₂ Validator.Alike) (Expr.validators call.parameters)
      (Expr.validators call'.parameters) := by
    cases related with
    | bare => exact .ok .nil
    | applied parameters => exact Expr.likewise_validators parameters fun e _ e' he => he.validator
  rw [hws] at hvalidators
  generalize hws' : Expr.validators call'.parameters = validators at hvalidators
  obtain @⟨_, ws', hws''⟩ := hvalidators
  exact ⟨call', ws', hcall', hws',
    Validator.Alike.trans_all (Validator.Alike.symm_all hws'') hvs⟩

section Means

variable {D : Definitions} {W : World Unit Mark} {a : Accessor} {arguments : List TypeExpr}
  {vs : List Validator} {f : Generator} {log : List Mark}

/-- A function that is called with types has the meaning of a run of its body. -/
theorem Means.applies {resolved : Except AliasError (Normalized Generator)}
    (h : Means D W a arguments log resolved) (definition : D a = some (.function f))
    (hcalls : CallsWith arguments vs) :
    ∃ types, List.Forall₂ Validator.Alike (types.map Ty.validator) vs ∧
      W.Applies f types () log resolved () := by
  obtain ⟨call, ws, hcall, hws, hvs⟩ := hcalls
  cases h with
  | undefined undefined => cases undefined _ definition
  | plain other => cases definition.symm.trans other
  | function other means =>
    obtain rfl := Definition.function.inj (Option.some.inj (definition.symm.trans other))
    cases means with
    | misapplied invocation => cases hcall.symm.trans invocation
    | faultyParameter invocation faulty =>
      obtain rfl := Except.ok.inj (hcall.symm.trans invocation)
      cases hws.symm.trans faulty
    | ran invocation compiled applies =>
      obtain rfl := Except.ok.inj (hcall.symm.trans invocation)
      obtain rfl := Except.ok.inj (hws.symm.trans compiled)
      exact ⟨_, hvs, applies⟩

/-- What is answered is what is meant, with the demand made of it. -/
theorem Answers.exists_means {demand : Demand} {answer : Except AliasError (Normalized Generator)}
    (h : Answers D W a demand arguments log answer) :
    ∃ marks resolved, Means D W a arguments marks resolved := by
  cases h with
  | answered means | failed means => exact ⟨_, _, means⟩

end Means

/-! ## Meanings without a call -/

/-- What definitions make of requests, where nothing is answered to calls of `a` with types like given
ones. -/
def avoiding (D : Definitions) (a : Accessor) (vs : List Validator) : Nat → World Unit Mark
  | 0 => meaning D 0
  | fuel + 1 =>
    { makes := fun validator _ t _ => t.validator = validator
      accesses := fun b demand arguments _ log answer _ => ¬ (b = a ∧ CallsWith arguments vs) ∧
        Answers D (avoiding D a vs fuel) b demand arguments log answer
      calls := (avoiding D a vs fuel).Calls }

section Avoiding

variable {D : Definitions} {a : Accessor} {vs : List Validator} {f : Generator} {fuel : Nat}

@[simp] theorem makes_avoiding (D : Definitions) (a : Accessor) (vs : List Validator) (fuel : Nat)
    (v : Validator) (s s' : Unit) (t : Ty) :
    (avoiding D a vs fuel).makes v s t s' ↔ t.validator = v := by
  cases fuel <;> rfl

/-- What has a meaning without the call has it anyway. -/
theorem avoiding_within_meaning (D : Definitions) (a : Accessor) (vs : List Validator)
    (fuel : Nat) : (avoiding D a vs fuel).Within (fun _ => True) (meaning D fuel) := by
  induction fuel with
  | zero => exact .refl _ _
  | succ fuel ih =>
    exact ⟨id, fun _ h => Answers.within ih h.2, fun hlog h => ih.callsFunction h hlog⟩

/-- The function comes to an end on types like given ones. -/
def ComesToAnEnd (W : World Unit Mark) (f : Generator) (vs : List Validator) : Prop :=
  ∃ types log outcome, List.Forall₂ Validator.Alike (types.map Ty.validator) vs ∧
    W.Applies f types () log outcome ()

/-- As long as the function comes to no end with less fuel, no meaning contains a call of it. -/
theorem meaning_within_avoiding (definition : D a = some (.function f))
    (hless : ∀ less < fuel, ¬ ComesToAnEnd (meaning D less) f vs) :
    (meaning D fuel).Within (fun _ => True) (avoiding D a vs fuel) := by
  induction fuel with
  | zero => exact .refl _ _
  | succ fuel ih =>
    have hW := ih fun less hlt => hless less (Nat.lt_succ_of_lt hlt)
    refine ⟨id, fun {b demand arguments s log answer s'} _ h => ⟨?_, Answers.within hW h⟩,
      fun hlog h => hW.callsFunction h hlog⟩
    rintro ⟨rfl, hcalls⟩
    -- the call would be one with less fuel
    obtain ⟨_, _, hmeans⟩ := Answers.exists_means h
    obtain ⟨_, happlies⟩ := hmeans.applies definition hcalls
    exact hless fuel (Nat.lt_succ_self fuel) ⟨_, _, _, happlies⟩

/-- **A run of least fuel does not contain itself.** -/
theorem exists_avoiding (definition : D a = some (.function f))
    (h : ComesToAnEnd (meaning D fuel) f vs) :
    ∃ least, ComesToAnEnd (avoiding D a vs least) f vs := by
  classical
  have hsome : ∃ fuel, ComesToAnEnd (meaning D fuel) f vs := ⟨fuel, h⟩
  obtain ⟨types, log, outcome, hvs, happlies⟩ := Nat.find_spec hsome
  have hW := meaning_within_avoiding definition fun less hlt => Nat.find_min hsome hlt
  exact ⟨_, types, log, outcome, hvs, hW.applies happlies fun _ _ => trivial⟩

end Avoiding

namespace Registry

variable {K : Ty → Prop} {D : Definitions} {r r' : Registry} {a : Accessor} {vs : List Validator}
  {types : List Ty}

/-! ## Runs in lockstep with a run without the call -/

/-- Before a body runs, nothing is accessed, and it runs on the types that its function is called
with. -/
theorem Resolves.calls_of_inner {fuel : Nat} {arguments : List TypeExpr} {inner : List Visit}
    {resolved : Except AliasError (Normalized Generator)}
    (h : Resolves (world fuel) a arguments r inner resolved r') :
    inner = [] ∨ ∃ f memo types start finish, r.alias? a = some (.function f memo) ∧
      CallsWith arguments (types.map Ty.validator) ∧ (∀ b, start.alias? b = r.alias? b) ∧
      (world fuel).Applies f types start inner resolved finish := by
  have hbody {f : Generator} {memo : Option Memo} {call : Invocation Generator} {types : List Ty}
      {s finish : Registry} {fields : Entries String}
      {resolved : Except AliasError (Normalized Generator)}
      (entry : r.alias? a = some (.function f memo))
      (invocation : Invocation.ofArguments arguments = .ok call)
      (compiles : (world fuel).CompilesAll call.parameters r (.ok types) s)
      (applies : (world fuel).Applies f types
        ((s.count a.space .functionInvocations).note a.space .functionInvoked fields) inner
        resolved finish) :
      ∃ f memo types start finish, r.alias? a = some (.function f memo) ∧
        CallsWith arguments (types.map Ty.validator) ∧ (∀ b, start.alias? b = r.alias? b) ∧
        (world fuel).Applies f types start inner resolved finish := by
    have hcalls : CallsWith arguments (types.map Ty.validator) :=
      ⟨call, _, invocation, compiles.validators_eq (faithful_world fuel),
        List.forall₂_same.2 fun v _ => .refl v⟩
    refine ⟨f, memo, types, _, finish, entry, hcalls, fun b => ?_, applies⟩
    rw [alias?_note, alias?_count, alias?_of_spaces (spaces_of_compilesAll compiles)]
  cases h with
  | ran entry invocation compiles _ applies | failed entry invocation compiles _ applies =>
    exact .inr (hbody entry invocation compiles applies)
  | _ => exact .inl rfl

/-- **Runs that are alike to one without a call are without it, too**, in whatever registry and with
whatever fuel. -/
theorem lockstep_avoiding (hK : ToldApart K) (hself : ∀ b, Option.Rel Definition.Alike (D b) (D b))
    (a : Accessor) (vs : List Validator) (fuel fuel' : Nat) :
    (world fuel).Lockstep (avoiding D a vs fuel') (fun r _ => Sound K D r)
      (fun log _ => Regular K log)
      (fun log _ => ∀ v ∈ log, ¬ (v.accessor = a ∧ CallsWith v.arguments vs)) := by
  have hmakes {fuel fuel' v w r r' t u} {s s' : Unit} (hr : Sound K D r)
      (h : (world fuel).makes v r t r') (h' : (avoiding D a vs fuel').makes w s u s') :
      t.validator = v ∧ u.validator = w ∧ Sound K D r' := by
    obtain ⟨ht, hspaces⟩ := (adequate_world hK D fuel).makes h
    exact ⟨ht, (makes_avoiding ..).1 h', hr.of_alias?_eq (alias?_of_spaces hspaces)⟩
  induction fuel generalizing fuel' with
  | zero => exact ⟨Regular.of_append, nofun, fun h h' => List.forall_mem_append.2 ⟨h, h'⟩, hmakes,
      nofun, nofun⟩
  | succ fuel ih =>
    refine ⟨Regular.of_append, nofun, fun h h' => List.forall_mem_append.2 ⟨h, h'⟩, hmakes,
      fun {b demand es es' r s log marks answer answer' r' s'} hr hes h h' hlog => ?_,
      fun hr hfg hes h h' hlog => ?_⟩
    · cases fuel' with
      | zero => exact h'.elim
      | succ fuel' =>
        obtain ⟨hnot, hanswers⟩ := h'
        -- the answer is what is meant, and alike to what is meant without the call
        obtain ⟨_, _, hmeant, hmirrors⟩ := (adequate_world hK D (fuel + 1)).accesses hr hlog h
        have hmeant' : (meaning D (fuel' + 1)).accesses b demand es' () marks answer' () :=
          Answers.within (avoiding_within_meaning D a vs fuel') hanswers
        have halike := ((lockstep_meaning hself _ _).accesses trivial hes hmeant hmeant' trivial).1
        refine ⟨halike, hmirrors.sound, ?_⟩
        obtain @⟨inner, resolved, _, r₁, resolves, -⟩ := h
        obtain ⟨hinner, -⟩ := hlog.of_append
        refine List.forall_mem_append.2 ⟨?_, List.forall_mem_singleton.2 fun ⟨hb, hcalls⟩ =>
          hnot ⟨hb, hcalls.of_alike hes⟩⟩
        -- inside are the accesses of a body that runs in lockstep with what is meant
        obtain rfl | ⟨f, memo, types, start, finish, entry, hcalls, hstart, applies⟩ :=
          resolves.calls_of_inner
        · exact nofun
        · have definition : D b = some (.function f) := hr.definition? entry
          obtain ⟨_, _, hmeans⟩ := Answers.exists_means hanswers
          obtain ⟨types', htypes, happlies⟩ := hmeans.applies definition (hcalls.of_alike hes)
          have hf := hself b
          rw [definition] at hf
          obtain ⟨_ | _ | ⟨hf⟩⟩ := hf
          exact ((ih fuel').applies (hr.of_alias?_eq hstart) hf
            (alike_types (Validator.Alike.symm_all htypes)) applies happlies hinner).2.2
    · cases fuel' with
      | zero => exact h'.elim
      | succ fuel' => exact (ih fuel').callsFunction hr hfg hes h h' hlog

/-! ## Results of the same call -/

/-- In a registry that keeps and remembers what its definitions mean, and whose functions are
determined by structure, an access has the given log, in which failures are passed on and parameters
are told apart. -/
structure Determined (K : Ty → Prop) (r : Registry) (log : List Visit) : Prop where
  toldApart : ToldApart K
  sound : Sound K r.definition? r
  alike_self : ∀ b, Option.Rel Definition.Alike (r.definition? b) (r.definition? b)
  regular : Regular K log

variable {f : Generator} {log : List Visit}

/-- Sessions whose functions are determined by structure leave such registries. -/
theorem Matches.determined (hK : ToldApart K) (h : Matches K K r r) (hlog : Regular K log) :
    Determined K r log :=
  ⟨hK, h.sound_left, h.definitions, hlog⟩

/-- A function that is determined by structure does not call itself with types like those that it
runs on. -/
theorem Determined.no_calls_of_applies {fuel : Nat} {s s' : Registry} {memo : Option Memo}
    {outcome : Except AliasError (Normalized Generator)} (h : Determined K r log)
    (entry : r.alias? a = some (.function f memo)) (hs : Sound K r.definition? s)
    (htypes : List.Forall₂ Validator.Alike (types.map Ty.validator) vs)
    (applies : (world fuel).Applies f types s log outcome s') :
    ∀ u ∈ log, ¬ (u.accessor = a ∧ CallsWith u.arguments vs) := by
  have definition := h.sound.definition? entry
  have hf := h.alike_self a
  rw [definition] at hf
  obtain ⟨_ | _ | ⟨hf⟩⟩ := hf
  -- the body comes to an end, so it does with the least fuel, and then without calling itself
  obtain ⟨_, _, hmeant, -⟩ := (adequate_world h.toldApart _ fuel).applies hs h.regular applies
  obtain ⟨least, types', _, _, htypes', havoiding⟩ := exists_avoiding definition
    ⟨types, _, _, htypes, hmeant⟩
  have halike := Validator.Alike.trans_all htypes (Validator.Alike.symm_all htypes')
  exact ((lockstep_avoiding h.toldApart h.alike_self a vs fuel least).applies hs hf
    (alike_types halike) applies havoiding h.regular).2.2

theorem Determined.no_calls {fuel : Nat} {arguments : List TypeExpr}
    {resolved : Except AliasError (Normalized Generator)} (h : Determined K r log)
    (hpasses : Passes arguments types)
    (resolves : Resolves (world fuel) a arguments r.enter log resolved r') :
    ∀ u ∈ log, ¬ (u.accessor = a ∧ CallsWith u.arguments (types.map Ty.validator)) := by
  obtain rfl | ⟨f, memo, others, start, finish, entry, ⟨call, ws, invocation, hws, hothers⟩, hstart,
    applies⟩ := resolves.calls_of_inner
  · exact nofun
  · obtain rfl := Except.ok.inj (hws.symm.trans (hpasses.validators_eq invocation))
    exact h.no_calls_of_applies entry (h.sound.of_alias?_eq hstart)
      (Validator.Alike.symm_all hothers) applies

/-- **No call comes to a result inside of the same call**, if functions are determined by
structure. -/
theorem firstResult?_of_determined {fuel : Nat} {demand : Demand} {arguments : List TypeExpr}
    {inner : List Visit} {v : Visit} {answer : Except AliasError (Normalized Generator)}
    (h : Determined K r (inner ++ [v])) (hpasses : Passes arguments types)
    (haccesses : (world fuel).accesses a demand arguments r (inner ++ [v]) answer r') :
    firstResult? a types inner = none := by
  cases fuel with
  | zero => exact haccesses.elim
  | succ fuel =>
    obtain ⟨hinner, hlast⟩ := h.regular.of_append
    generalize hlog : inner ++ [v] = log at haccesses
    obtain @⟨inner', resolved, _, r₁, resolves, -⟩ := haccesses
    obtain ⟨rfl, hv⟩ := List.append_inj' hlog rfl
    obtain rfl := List.singleton_inj.1 hv
    have hnocalls := Determined.no_calls ⟨h.toldApart, h.sound, h.alike_self, hinner⟩ hpasses resolves
    refine List.findSome?_eq_none_iff.2 fun u hu => if_neg fun ⟨haccessor, hkeys⟩ => ?_
    -- a call with the same key would be one with the same types, since these are told apart
    obtain ⟨others, hothers, hkey⟩ := Option.map_eq_some_iff.1 hkeys
    have hpasses' := Visit.instances?_eq_some_iff.1 hothers
    have hgiven : ∀ t ∈ types, K t := fun t ht =>
      hlast.given _ (List.mem_singleton_self _) t (Visit.given_of_passes hpasses ht)
    obtain rfl : others = types := Memo.eq_of_key_eq (fun t ht t' ht' =>
      h.toldApart t t' (hinner.given u hu t (Visit.given_of_passes hpasses' ht)) (hgiven t' ht')) hkey
    exact hnocalls u hu ⟨haccessor, hpasses'.callsWith⟩

end Registry

end NamedTypes
