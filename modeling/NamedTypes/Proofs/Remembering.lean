import NamedTypes.Proofs.Bookkeeping
import NamedTypes.Proofs.Nesting

/-! # Remembering
What a type function remembers is read off the log of a run: for given instances it is the first
result among the calls that have ended (`firstResult?`, `Recalls`), and whatever is remembered is
never replaced or taken back (`Retains`). A body may call the function that it belongs to, and
others, so what the caller finds when a body ends is not what it left; `Registry.Invariant` carries
the first statement across bodies. -/

namespace NamedTypes

/-! ## Passing types on -/

/-- The raw argument lists that pass existing types on and nothing else. -/
def Passes (arguments : List TypeExpr) (types : List Ty) : Prop :=
  arguments = [.sequence (types.map .leaf)] ∨ arguments = [] ∧ types = []

theorem Passes.invocation {arguments : List TypeExpr} {types : List Ty}
    (h : Passes arguments types) :
    ∃ call, Invocation.ofArguments arguments = .ok call ∧ call.parameters = types.map .leaf ∧
      call.isStable = true := by
  have hstable : (types.map Expr.leaf : List TypeExpr).all Expr.isLeaf = true := by
    simp [Expr.isLeaf]
  obtain rfl | ⟨rfl, rfl⟩ := h
  · exact ⟨.applied (types.map .leaf), rfl, rfl, hstable⟩
  · exact ⟨.bare, rfl, rfl, rfl⟩

namespace Invocation

variable {call : Invocation Generator}

/-- A well-formed call has no arguments, or one that is a list of parameters. -/
theorem cases_of_ofArguments {arguments : List TypeExpr} (h : ofArguments arguments = .ok call) :
    arguments = [] ∧ call = .bare ∨
      ∃ parameters, arguments = [.sequence parameters] ∧ call = .applied parameters := by
  unfold ofArguments at h
  split at h
  · exact .inl ⟨rfl, (Except.ok.inj h).symm⟩
  · exact .inr ⟨_, rfl, (Except.ok.inj h).symm⟩
  · cases h
  · cases h

/-- Parameters that are existing types are these types. -/
theorem map_leaves (stable : call.isStable = true) : call.leaves.map .leaf = call.parameters := by
  rw [isStable] at stable
  rw [leaves]
  generalize call.parameters = es at stable ⊢
  induction es with
  | nil => rfl
  | cons e es ih =>
    rw [List.all_cons, Bool.and_eq_true] at stable
    cases e with
    | leaf t => rw [List.filterMap_cons, List.map_cons, ih stable.2]
    | sequence | record | generator | data => cases stable.1

end Invocation

/-! ## Results in logs -/

namespace Visit

/-- The instances that a type function was called with, if all parameters were existing types. A
call without parameters is given none, with or without a list of them. -/
def instances? (v : Visit) : Option (List Ty) :=
  match Invocation.ofArguments v.arguments with
  | .ok call => if call.isStable then some call.leaves else none
  | .error _ => none

/-- The result of a visit, if it was a call of `a` with the instances of `types`, one by one, and
succeeded. An access that demanded a type of a function was such a call, whatever came of the
demand. -/
def resultOf? (a : Accessor) (types : List Ty) (v : Visit) : Option (Normalized Generator) :=
  if v.accessor = a ∧ v.instances?.map (List.map Ty.id) = some (types.map Ty.id) then
    v.resolved.toOption
  else none

variable {v : Visit} {a : Accessor} {types : List Ty}

theorem resultOf?_of_ne (h : v.accessor ≠ a) : v.resultOf? a types = none :=
  if_neg fun hv => h hv.1

theorem resultOf?_of_error {error : AliasError} (h : v.resolved = .error error) :
    v.resultOf? a types = none := by
  rw [resultOf?, h]
  exact ite_self _

theorem resultOf?_of_unstable (h : v.instances? = none) : v.resultOf? a types = none :=
  if_neg fun hv => by simp [h] at hv

theorem resultOf?_of_ok {given : List Ty} {x : Normalized Generator} (haccessor : v.accessor = a)
    (hgiven : v.instances? = some given) (hresolved : v.resolved = .ok x) :
    v.resultOf? a types = if given.map Ty.id = types.map Ty.id then some x else none := by
  rw [resultOf?, hgiven, hresolved]
  simp [haccessor, Except.toOption]

/-- A call that is stable is given the instances that its parameters come to. -/
theorem instances?_of_compilesAll {call : Invocation Generator} {fuel : Nat} {r r' : Registry}
    (invocation : Invocation.ofArguments v.arguments = .ok call) (stable : call.isStable = true)
    (compiles : (Registry.world fuel).CompilesAll call.parameters r (.ok types) r') :
    v.instances? = some types := by
  rw [instances?, invocation, ← Registry.leaves_of_compilesAll stable compiles]
  exact if_pos stable

theorem instances?_of_unstable {call : Invocation Generator}
    (invocation : Invocation.ofArguments v.arguments = .ok call)
    (unstable : call.isStable = false) : v.instances? = none := by
  rw [instances?, invocation]
  exact if_neg (by simp [unstable])

theorem instances?_of_misapplied {error : AliasError}
    (invocation : Invocation.ofArguments v.arguments = .error error) : v.instances? = none := by
  rw [instances?, invocation]

/-- The instances of a call are the types that it passes on. -/
theorem instances?_eq_some_iff : v.instances? = some types ↔ Passes v.arguments types := by
  constructor
  · intro h
    rw [instances?] at h
    split at h
    · next call invocation =>
      split at h
      · next stable =>
        have hparameters := Invocation.map_leaves stable
        rw [Option.some.inj h] at hparameters
        obtain ⟨harguments, rfl⟩ | ⟨parameters, harguments, rfl⟩ :=
          Invocation.cases_of_ofArguments invocation
        · exact .inr ⟨harguments, List.map_eq_nil_iff.1 hparameters⟩
        · exact .inl (harguments.trans (by rw [hparameters]; rfl))
      · cases h
    · cases h
  · intro h
    obtain ⟨call, invocation, hparameters, stable⟩ := h.invocation
    have hleaves : call.leaves = types := by
      rw [Invocation.leaves, hparameters, List.filterMap_map]
      exact List.filterMap_some
    rw [instances?, invocation, ← hleaves]
    exact if_pos stable

/-- A visit that passes types on is given them. -/
theorem given_of_passes (h : Passes v.arguments types) {t : Ty} (ht : t ∈ types) : v.Given t := by
  obtain ⟨call, invocation, hparameters, -⟩ := h.invocation
  exact ⟨call, invocation, hparameters ▸ List.mem_map_of_mem ht⟩

end Visit

/-- The first result among the calls of `a` with the instances of `types`, in the order in which
they ended. -/
def firstResult? (a : Accessor) (types : List Ty) (log : List Visit) :
    Option (Normalized Generator) :=
  log.findSome? (Visit.resultOf? a types)

theorem firstResult?_concat (a : Accessor) (types : List Ty) (log : List Visit) (v : Visit) :
    firstResult? a types (log ++ [v]) = (firstResult? a types log).or (v.resultOf? a types) := by
  rw [firstResult?, List.findSome?_append, List.findSome?_singleton]
  rfl

namespace Registry

/-! ## What is remembered -/

/-- Whether an alias is a type function in a namespace that remembers results. -/
def Memoizes (r : Registry) (a : Accessor) : Prop :=
  (r.config a.space).memoize = true ∧ ∃ f memo, r.alias? a = some (.function f memo)

/-- The result that an alias remembers for arguments. -/
def remembered? (r : Registry) (a : Accessor) (types : List Ty) : Option (Normalized Generator) :=
  match r.alias? a with
  | some (.function _ (some memo)) => memo.get? types
  | _ => none

theorem remembered?_of_alias? {r : Registry} {a : Accessor} {f : Generator} {memo : Option Memo}
    (h : r.alias? a = some (.function f memo)) (types : List Ty) :
    r.remembered? a types = memo.bind fun m => m.get? types := by
  rw [remembered?, h]
  cases memo <;> rfl

/-- A function remembers results if its namespace is to, and these are the first ones of its calls
in the log. Nothing has come of calls to an alias without a definition. -/
structure Recalls (a : Accessor) (log : List Visit) (r : Registry) : Prop where
  memoizes : ∀ f memo, r.alias? a = some (.function f memo) →
    memo.isSome = (r.config a.space).memoize
  remembered : ∀ f memo, r.alias? a = some (.function f (some memo)) → ∀ types,
    memo.get? types = firstResult? a types log
  undefined : (∀ entry, r.alias? a = some entry → entry = .pending) → ∀ types,
    firstResult? a types log = none

section Recalls

variable {r r' : Registry} {a b : Accessor} {space : Nat} {name : String} {log : List Visit}
  {v : Visit} {f : Generator} {memo : Option Memo}

namespace Recalls

theorem congr (h : Recalls a log r) (halias : r'.alias? a = r.alias? a)
    (hconfigs : r.configs <+: r'.configs) : Recalls a log r' where
  memoizes f memo entry := by
    rw [halias] at entry
    rw [h.memoizes f memo entry, config_of_configs hconfigs (isSome_space?_of_alias? entry)]
  remembered f memo entry := h.remembered f memo (halias ▸ entry)
  undefined hundefined := h.undefined (halias ▸ hundefined)

theorem same (h : Recalls a log r) (hsame : SameAliases r r') : Recalls a log r' :=
  h.congr (hsame.alias?_eq a) hsame.configs_prefix

theorem of_plain {source : TypeExpr} {type : Option Ty}
    (entry : r.alias? a = some (.plain source type)) : Recalls a log r where
  memoizes f memo hentry := by rw [entry] at hentry; cases hentry
  remembered f memo hentry := by rw [entry] at hentry; cases hentry
  undefined hundefined := by cases hundefined _ entry

theorem of_function (entry : r.alias? a = some (.function f memo))
    (hmemo : memo.isSome = (r.config a.space).memoize)
    (h : ∀ m, memo = some m → ∀ types, m.get? types = firstResult? a types log) :
    Recalls a log r where
  memoizes f' memo' hentry := by
    rw [entry] at hentry
    obtain ⟨-, rfl⟩ := Alias.function.inj (Option.some.inj hentry)
    exact hmemo
  remembered f' memo' hentry := by
    rw [entry] at hentry
    obtain ⟨-, hm⟩ := Alias.function.inj (Option.some.inj hentry)
    exact h memo' hm
  undefined hundefined := by cases hundefined _ entry

/-- What is no call with a result changes nothing. -/
theorem concat (h : Recalls a log r) (hv : ∀ types, v.resultOf? a types = none) :
    Recalls a (log ++ [v]) r := by
  have hfirst (types : List Ty) : firstResult? a types (log ++ [v]) = firstResult? a types log := by
    rw [firstResult?_concat, hv, Option.or_none]
  exact
    { memoizes := h.memoizes
      remembered := fun f memo entry types =>
        (h.remembered f memo entry types).trans (hfirst types).symm
      undefined := fun hundefined types => (hfirst types).trans (h.undefined hundefined types) }

/-- What is defined remembers nothing at first. -/
theorem gives {entry : Alias} (h : Recalls a log r)
    (undefined : ∀ old, r.alias? (r.accessor space name) = some old → old = .pending)
    (hentry : entry = .pending ∨ ∃ source, entry = Alias.ofSource (r.config space) source) :
    Recalls a log (r.put space name entry) := by
  have hconfigs : r.configs <+: (r.put space name entry).configs := by rw [configs_put]
  by_cases ha : a = r.accessor space name ∧ (r.space? space).isSome
  · have halias : (r.put space name entry).alias? a = some entry := by rw [alias?_put, if_pos ha]
    obtain ⟨rfl, hspace⟩ := ha
    obtain rfl | ⟨source, rfl⟩ := hentry
    · exact
        { memoizes := fun f memo hf => by rw [halias] at hf; cases hf
          remembered := fun f memo hf => by rw [halias] at hf; cases hf
          undefined := fun _ => h.undefined undefined }
    · cases source with
      | generator f =>
        refine .of_function halias ?_ fun m hm types => ?_
        · rw [space_accessor, config_of_configs hconfigs hspace]
          cases (r.config space).memoize <;> rfl
        · rw [h.undefined undefined types]
          split at hm
          · exact Option.some.inj hm ▸ rfl
          · cases hm
      | leaf | sequence | record | data => exact .of_plain halias
  · exact h.congr (by rw [alias?_put, if_neg ha]) hconfigs

end Recalls

/-! ## Accesses recall -/

/-- Accesses leave configurations. -/
theorem configs_of_outlines (h : r'.outlines = r.outlines) : r'.configs = r.configs :=
  perSpace_of_outlines h Outline.config

/-- A type function stays a type function while it runs. -/
theorem exists_function_of_outlines (h : r'.outlines = r.outlines)
    (entry : r.alias? a = some (.function f memo)) :
    ∃ memo', r'.alias? a = some (.function f memo') := by
  have hdefinition := definition?_of_outlines h a
  rw [definition?, definition?, entry] at hdefinition
  obtain ⟨entry', hentry', hfunction⟩ := Option.map_eq_some_iff.1 hdefinition
  cases entry' with
  | function f' memo' =>
    obtain rfl := Definition.function.inj hfunction
    exact ⟨memo', hentry'⟩
  | pending | plain => cases hfunction

theorem admits_recalls (hne : a ≠ b) : Admits (Carries (Recalls a)) b where
  count _ := carries_of_imp fun _ h => h.same (.count ..)
  note _ := carries_of_imp fun _ h => h.same (.note ..)
  keep := carries_of_imp fun _ h =>
    h.congr (alias?_modifyAlias_of_ne hne _) (by rw [configs_modifyAlias])
  remember := carries_of_imp fun _ h =>
    h.congr (alias?_modifyAlias_of_ne hne _) (by rw [configs_modifyAlias])

/-- What comes of the body of a type function: all that was accessed is recalled, and the function
remembers results if it did before. -/
theorem recalls_of_applies {fuel : Nat} {types : List Ty} {es : List TypeExpr}
    {event : Log.Event} {fields : Entries String} {done inner : List Visit} {r₁ r₂ : Registry}
    {resolved : Except AliasError (Normalized Generator)} (hr : Recalls a done r)
    (hW : (world fuel).Keeps (Carries (Recalls a))) (entry : r.alias? a = some (.function f memo))
    (compiles : (world fuel).CompilesAll es r (.ok types) r₁)
    (applies : (world fuel).Applies f types
      ((r₁.count a.space .functionInvocations).note a.space event fields) inner resolved r₂) :
    Recalls a (done ++ inner) r₂ ∧
      ∃ memo', r₂.alias? a = some (.function f memo') ∧ memo'.isSome = memo.isSome := by
  have hsame : SameAliases r ((r₁.count a.space .functionInvocations).note a.space event fields) :=
    .of_compilesAll compiles ..
  have hstart := hr.same hsame
  have hentry := (hsame.alias?_eq a).trans entry
  have hrecalls := hW.applies applies done hstart
  have houtlines := (keeps_outlines fuel).applies applies
  obtain ⟨memo', hentry'⟩ := exists_function_of_outlines houtlines hentry
  refine ⟨hrecalls, memo', hentry', ?_⟩
  rw [hrecalls.memoizes f memo' hentry', hstart.memoizes f memo hentry, config_eq_getD_configs,
    configs_of_outlines houtlines, ← config_eq_getD_configs]

/-- The result of a call is remembered behind those that have come meanwhile. -/
theorem Recalls.remember {m : Memo} {types : List Ty} {x : Normalized Generator}
    (h : Recalls a log r) (entry : r.alias? a = some (.function f (some m)))
    (haccessor : v.accessor = a) (hgiven : v.instances? = some types)
    (hresolved : v.resolved = .ok x) :
    Recalls a (log ++ [v]) (r.modifyAlias a (Alias.remember types x)) := by
  refine .of_function (alias?_modifyAlias_self entry _) ?_ fun m' hm' others => ?_
  · rw [config_eq_getD_configs, configs_modifyAlias, ← config_eq_getD_configs]
    exact h.memoizes f (some m) entry
  · obtain rfl := Option.some.inj hm'
    rw [Memo.get?_insert, firstResult?_concat, Visit.resultOf?_of_ok haccessor hgiven hresolved,
      h.remembered f m entry]

/-- The result that answers a call is not the first one. -/
theorem Recalls.found {m : Memo} {types : List Ty} {x : Normalized Generator}
    (h : Recalls a log r) (entry : r.alias? a = some (.function f (some m)))
    (found : m.get? types = some x) (haccessor : v.accessor = a)
    (hgiven : v.instances? = some types) (hresolved : v.resolved = .ok x) :
    Recalls a (log ++ [v]) r := by
  refine .of_function entry (h.memoizes f (some m) entry) fun m' hm' others => ?_
  obtain rfl := Option.some.inj hm'
  rw [firstResult?_concat, Visit.resultOf?_of_ok haccessor hgiven hresolved,
    ← h.remembered f m entry others]
  split
  · next hids => rw [← Memo.get?_congr hids m, found, Option.some_or]
  · rw [Option.or_none]

/-- What an access to the alias itself comes to is recalled if it is the first result of its
calls. -/
theorem recalls_of_resolves {fuel : Nat} {arguments : List TypeExpr} {done inner : List Visit}
    {resolved : Except AliasError (Normalized Generator)} (hr : Recalls a done r)
    (hW : (world fuel).Keeps (Carries (Recalls a)))
    (h : Resolves (world fuel) a arguments r inner resolved r') (haccessor : v.accessor = a)
    (harguments : v.arguments = arguments) (hresolved : v.resolved = resolved) :
    Recalls a (done ++ inner ++ [v]) r' := by
  have hfails {error : AliasError} (herror : resolved = .error error) (types : List Ty) :
      v.resultOf? a types = none := Visit.resultOf?_of_error (hresolved.trans herror)
  subst harguments
  cases h with
  -- calls that fail before a body runs leave what is remembered as it is
  | undefined | overApplied | misapplied =>
    rw [List.append_nil]
    exact hr.concat (hfails rfl)
  | faultySource _ _ compiles =>
    rw [List.append_nil]
    have hcompiled := (hr.same (.count ..)).same (.of_spaces (spaces_of_compiles compiles))
    exact hcompiled.concat (hfails rfl)
  | faultyParameter _ _ compiles =>
    rw [List.append_nil]
    exact (hr.same (.of_spaces (spaces_of_compilesAll compiles))).concat (hfails rfl)
  -- plain aliases remember nothing
  | kept entry => exact .of_plain (((SameAliases.count ..).trans (.note ..)).alias?_eq a ▸ entry)
  | @compiled source type r₁ entry _ compiles =>
    have hsame : SameAliases r r₁ :=
      (SameAliases.count ..).trans (.of_spaces (spaces_of_compiles compiles))
    have hentry := (hsame.alias?_eq a).trans entry
    exact .of_plain ((alias?_note ..).trans (alias?_modifyAlias_self hentry _))
  | @remembered f m call types x r₁ entry invocation stable compiles found =>
    have hgiven := Visit.instances?_of_compilesAll invocation stable compiles
    rw [List.append_nil]
    exact (hr.found entry found haccessor hgiven hresolved).same (.of_compilesAll compiles ..)
  | @ran f memo call types x _ r₁ r₂ entry invocation compiles notFound applies =>
    -- the memo is the one after the body, which may have called the function itself
    obtain ⟨hbody, memo', hentry', hmemo'⟩ := recalls_of_applies hr hW entry compiles applies
    cases stable : call.isStable with
    | false =>
      have hgiven := Visit.instances?_of_unstable invocation stable
      exact hbody.concat fun _ => Visit.resultOf?_of_unstable hgiven
    | true =>
      have hgiven := Visit.instances?_of_compilesAll invocation stable compiles
      cases memo with
      | none =>
        -- where nothing is remembered, there is nothing to recall
        obtain rfl : memo' = none := by simpa using hmemo'
        exact .of_function hentry' (hbody.memoizes f none hentry') nofun
      | some m =>
        obtain ⟨m', rfl⟩ := Option.isSome_iff_exists.1 hmemo'
        exact hbody.remember hentry' haccessor hgiven hresolved
  | failed entry _ compiles _ applies =>
    exact (recalls_of_applies hr hW entry compiles applies).1.concat (hfails rfl)

/-- **What an alias remembers are the first results of its calls.** -/
theorem invariant_recalls (a : Accessor) : Invariant (Recalls a) where
  same hsame h := h.same hsame
  gives undefined hentry h := h.gives undefined hentry
  access := by
    intro fuel b demand arguments r log answer r' hW h done hr
    obtain @⟨inner, resolved, answer, r₁, resolves, -⟩ := h
    have henter : Recalls a done r.enter := hr.same (.of_spaces rfl)
    rw [← List.append_assoc]
    refine Recalls.same ?_ (.leave ..)
    by_cases hb : b = a
    · subst hb
      exact recalls_of_resolves henter hW resolves rfl rfl rfl
    · exact (resolves.keeps hW (admits_recalls (Ne.symm hb)) done henter).concat
        fun _ => Visit.resultOf?_of_ne hb

end Recalls

/-! ## Results stay -/

/-- Whatever is remembered before is remembered after. -/
def Retains (r r' : Registry) : Prop :=
  ∀ a types x, r.remembered? a types = some x → r'.remembered? a types = some x

section Retains

variable {r r' r₁ r₂ r₃ : Registry} {a : Accessor} {log log' : List Visit} {fuel : Nat}

theorem exists_memo_of_remembered {types : List Ty} {x : Normalized Generator}
    (h : r.remembered? a types = some x) :
    ∃ f m, r.alias? a = some (.function f (some m)) ∧ m.get? types = some x := by
  unfold remembered? at h
  split at h
  · next f m entry => exact ⟨f, m, entry, h⟩
  · cases h

theorem Retains.trans (h : Retains r₁ r₂) (h' : Retains r₂ r₃) : Retains r₁ r₃ :=
  fun a types x hx => h' a types x (h a types x hx)

theorem retains_of_alias?_eq (h : ∀ a, r'.alias? a = r.alias? a) : Retains r r' :=
  fun a types x hx => by rwa [remembered?, h]

theorem SameAliases.retains (h : SameAliases r r') : Retains r r' :=
  retains_of_alias?_eq h.alias?_eq

/-- Definitions with all that is kept for them stay where aliases do. -/
theorem retains_of_defined (h : ∀ a entry, r.alias? a = some entry → entry.IsDefined →
    r'.alias? a = some entry) : Retains r r' := by
  intro a types x hx
  obtain ⟨f, m, entry, -⟩ := exists_memo_of_remembered hx
  rwa [remembered?_of_alias? (h a _ entry nofun), ← remembered?_of_alias? entry]

/-- A change of an alias that takes no result away. -/
theorem retains_modifyAlias {g : Alias → Alias} (hg : ∀ f m, ∃ m', g (.function f (some m)) =
    .function f (some m') ∧ ∀ types x, m.get? types = some x → m'.get? types = some x) :
    Retains r (r.modifyAlias a g) := by
  intro b types x hx
  obtain ⟨f, m, entry, hfound⟩ := exists_memo_of_remembered hx
  by_cases hb : b = a
  · subst hb
    obtain ⟨m', hm', hkeeps⟩ := hg f m
    rw [remembered?_of_alias? ((alias?_modifyAlias_self entry g).trans (congrArg some hm'))]
    exact hkeeps types x hfound
  · rwa [remembered?, alias?_modifyAlias_of_ne hb, ← remembered?]

/-- What is remembered at any point of a stretch of a run is remembered from then on. -/
structure RetainsAlong (r : Registry) (log : List Visit) (r' : Registry) : Prop where
  retains : Retains r r'
  visits : ∀ v ∈ log, Retains v.before v.after ∧ Retains v.after r'

theorem Retains.along (h : Retains r r') : RetainsAlong r [] r' := ⟨h, nofun⟩

theorem RetainsAlong.trans (h : RetainsAlong r₁ log r₂) (h' : RetainsAlong r₂ log' r₃) :
    RetainsAlong r₁ (log ++ log') r₃ where
  retains := h.retains.trans h'.retains
  visits := List.forall_mem_append.2
    ⟨fun v hv => ⟨(h.visits v hv).1, (h.visits v hv).2.trans h'.retains⟩, h'.visits⟩

theorem admits_retains (a : Accessor) : Admits RetainsAlong a where
  count _ := (SameAliases.count ..).retains.along
  note _ := (SameAliases.note ..).retains.along
  keep := (retains_modifyAlias fun _ m => ⟨m, rfl, fun _ _ hx => hx⟩).along
  remember := (retains_modifyAlias fun _ m =>
    ⟨m.insert _ _, rfl, fun _ _ hx => Memo.get?_insert_of_some hx _ _⟩).along

theorem keeps_retains (fuel : Nat) : (world fuel).Keeps RetainsAlong := by
  refine keeps_world (fun r => (SameAliases.refl r).retains.along) RetainsAlong.trans
    (fun r validator => (retains_of_alias?_eq (alias?_newType r validator)).along)
    (fun {fuel a demand arguments r log answer r'} hW h => ?_) fuel
  obtain @⟨inner, resolved, answer, r₁, resolves, -⟩ := h
  have hinner := resolves.keeps hW (admits_retains a)
  have hleave : Retains r₁ (r.leave a answer r₁) := (SameAliases.leave ..).retains
  have hwhole : Retains r (r.leave a answer r₁) := hinner.retains.trans hleave
  refine ⟨hwhole, List.forall_mem_append.2 ⟨fun v hv => ?_, ?_⟩⟩
  · exact ⟨(hinner.visits v hv).1, (hinner.visits v hv).2.trans hleave⟩
  · rw [List.forall_mem_singleton]
    exact ⟨hwhole, fun _ _ _ hx => hx⟩

theorem Performs.retains {op : Operation} {outcome : Except AliasError Outcome}
    (h : Performs fuel r op log outcome r') : RetainsAlong r log r' := by
  have hW := keeps_retains fuel
  cases h with
  | direct isDirect performed =>
    exact (retains_of_defined fun a entry ha hdefined =>
      alias?_of_direct isDirect performed ha hdefined).along
  | readLiteral reads => exact reads.keeps hW
  | bindLiteral reads binds =>
    rw [← List.append_nil log]
    exact (reads.keeps hW).trans
      (retains_of_defined fun a entry ha hdefined => binds.alias?_of_defined ha hdefined).along
  | bindLiteralRejected reads =>
    rw [← List.append_nil log]
    exact (reads.keeps hW).trans (SameAliases.noteFailure ..).retains.along
  | bindLiteralFailed reads => exact reads.keeps hW
  | use accesses => exact hW.accesses accesses
  | call calls => exact hW.callsFunction calls

/-- **Results are never replaced or taken back**: what is remembered after an operation of a run, or
at the beginning or the end of an access, is remembered from then on. -/
theorem History.retains {ops : List Operation} {steps : List (Except AliasError Outcome × Registry)}
    (h : History fuel ops r log steps) :
    RetainsAlong r log (r.after steps) ∧ ∀ step ∈ steps, Retains step.2 (r.after steps) := by
  induction h with
  | nil => exact ⟨(SameAliases.refl _).retains.along, nofun⟩
  | cons first _ ih =>
    obtain ⟨hrest, hsteps⟩ := ih
    exact ⟨first.retains.trans hrest, List.forall_mem_cons.2 ⟨hrest.retains, hsteps⟩⟩

end Retains

end Registry

end NamedTypes
