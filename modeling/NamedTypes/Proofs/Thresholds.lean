import NamedTypes.Proofs.Evaluation
import NamedTypes.Proofs.History

/-! # Computations that do not see thresholds
`Registry.atLevel` gives all namespaces one log level and leaves everything else as it is. A
computation is **blind** if it does the same before and after such a change (`Registry.Blind`): it
has an outcome on both registries or on neither, the outcomes are equal, and what is left behind
differs by the log levels only. Blindness passes from the parts of a computation to the whole, so
all operations are blind because the few primitive ones are (`Registry.perform_atLevel`). -/

namespace NamedTypes

/-- The configuration with another log level. -/
def Config.atLevel (level : Log.Severity) (c : Config) : Config := { c with logLevel := level }

/-- The namespace with another log level. -/
def Namespace.atLevel (level : Log.Severity) (n : Namespace) : Namespace :=
  { n with config := n.config.atLevel level }

/-- The operation with another log level, where it chooses one. -/
def Operation.atLevel (level : Log.Severity) : Operation → Operation
  | .addSpace name config => .addSpace name (config.atLevel level)
  | op => op

namespace Registry

/-- The registry with one log level in all namespaces. -/
def atLevel (level : Log.Severity) (r : Registry) : Registry :=
  { r with spaces := r.spaces.map (Namespace.atLevel level) }

variable {level : Log.Severity}

/-! ## What is read -/

@[simp] theorem space?_atLevel (r : Registry) (space : Nat) :
    (r.atLevel level).space? space = (r.space? space).map (Namespace.atLevel level) :=
  Array.getElem?_map

@[simp] theorem slots?_atLevel (r : Registry) (space : Nat) (name : String) :
    (r.atLevel level).slots? space name = r.slots? space name := by
  rw [slots?, slots?, space?_atLevel]
  cases r.space? space <;> rfl

@[simp] theorem accessor?_atLevel (r : Registry) (space : Nat) (name : String) :
    (r.atLevel level).accessor? space name = r.accessor? space name := by
  rw [accessor?, slots?_atLevel, accessor?]

@[simp] theorem accessor_atLevel (r : Registry) (space : Nat) (name : String) :
    (r.atLevel level).accessor space name = r.accessor space name :=
  accessor_congr (slots?_atLevel r space name)

@[simp] theorem alias?_atLevel (r : Registry) (a : Accessor) :
    (r.atLevel level).alias? a = r.alias? a :=
  alias?_congr (slots?_atLevel r a.space a.name)

/-- Whether type functions remember results does not depend on the log level. -/
theorem ofSource_atLevel (r : Registry) (space : Nat) (source : TypeExpr) :
    Alias.ofSource ((r.atLevel level).config space) source =
      Alias.ofSource (r.config space) source := by
  have hmemoize : ((r.atLevel level).config space).memoize = (r.config space).memoize := by
    rw [config, config, space?_atLevel]
    cases r.space? space <;> rfl
  cases source with
  | generator f => rw [Alias.ofSource, Alias.ofSource, hmemoize]
  | leaf | sequence | record | data => rfl

/-! ## What is changed -/

theorem modifySpace_atLevel {f : Namespace → Namespace}
    (hf : ∀ n, f (n.atLevel level) = (f n).atLevel level) (r : Registry) (space : Nat) :
    (r.atLevel level).modifySpace space f = (r.modifySpace space f).atLevel level := by
  have hspaces : (r.spaces.map (Namespace.atLevel level)).modify space f =
      (r.spaces.modify space f).map (Namespace.atLevel level) := by
    refine Array.ext_getElem? fun i => ?_
    simp only [Array.getElem?_modify, Array.getElem?_map]
    split
    · cases r.spaces[i]? with
      | none => rfl
      | some n => exact congrArg some (hf n)
    · rfl
  rw [modifySpace, modifySpace, atLevel, atLevel]
  exact congrArg (fun spaces => { r with spaces }) hspaces

@[simp] theorem count_atLevel (r : Registry) (space : Nat) (counter : Counter) :
    (r.atLevel level).count space counter = (r.count space counter).atLevel level :=
  modifySpace_atLevel (fun _ => by rfl) r space

@[simp] theorem setSlots_atLevel (r : Registry) (space : Nat) (name : String) (s : Slots) :
    (r.atLevel level).setSlots space name s = (r.setSlots space name s).atLevel level :=
  modifySpace_atLevel (fun _ => by rfl) r space

@[simp] theorem put_atLevel (r : Registry) (space : Nat) (name : String) (entry : Alias) :
    (r.atLevel level).put space name entry = (r.put space name entry).atLevel level := by
  rw [put, slots?_atLevel, setSlots_atLevel, put]

@[simp] theorem setAlias_atLevel (r : Registry) (a : Accessor) (entry : Alias) :
    (r.atLevel level).setAlias a entry = (r.setAlias a entry).atLevel level := by
  rw [setAlias, setAlias, slots?_atLevel]
  cases r.slots? a.space a.name with
  | none => rfl
  | some s => exact setSlots_atLevel ..

@[simp] theorem modifyAlias_atLevel (r : Registry) (a : Accessor) (f : Alias → Alias) :
    (r.atLevel level).modifyAlias a f = (r.modifyAlias a f).atLevel level := by
  rw [modifyAlias, modifyAlias, alias?_atLevel]
  cases r.alias? a with
  | none => rfl
  | some entry => exact setAlias_atLevel r a (f entry)

@[simp] theorem note_atLevel (r : Registry) (space : Nat) (event : Log.Event)
    (fields : Entries String) :
    (r.atLevel level).note space event fields = (r.note space event fields).atLevel level := by
  rw [note, note, space?_atLevel]
  cases r.space? space <;> rfl

@[simp] theorem noteFailure_atLevel (r : Registry) (space : Nat) (name : String)
    (event : Log.Event) (error : AliasError) :
    (r.atLevel level).noteFailure space name event error =
      (r.noteFailure space name event error).atLevel level := by
  rw [noteFailure, noteFailure, count_atLevel, note_atLevel]

/-- A namespace is added with its own log level, and is noticed in the same way. -/
theorem addSpace_atLevel (r : Registry) (name : String) (config : Config) :
    (r.atLevel level).addSpace name (config.atLevel level) =
      ((r.addSpace name config).1, (r.addSpace name config).2.atLevel level) := by
  have hpush : (r.spaces.map (Namespace.atLevel level)).push
      { name, config := config.atLevel level } =
        (r.spaces.push { name, config }).map (Namespace.atLevel level) := by
    rw [Array.map_push]
    rfl
  have hsize : (r.spaces.map (Namespace.atLevel level)).size = r.spaces.size := Array.size_map
  simp only [addSpace, atLevel, hpush, hsize]
  let added : Registry := { r with spaces := r.spaces.push { name, config } }
  exact congrArg (r.spaces.size, ·) (note_atLevel added ..)

theorem leave_atLevel {α : Type} (r : Registry) (a : Accessor) (outcome : Except AliasError α)
    (after : Registry) :
    (r.atLevel level).leave a outcome (after.atLevel level) =
      (r.leave a outcome after).atLevel level := by
  cases outcome with
  | ok result => rfl
  | error error =>
    rw [leave, leave]
    change (if r.depth = 0 then
      (({ after with depth := r.depth } : Registry).atLevel level).noteFailure a.space a.name
        .resolutionFailed error else ({ after with depth := r.depth } : Registry).atLevel level) = _
    rw [noteFailure_atLevel]
    split <;> rfl

/-! ## Blind computations -/

/-- A computation that does the same at every log level. -/
def Blind (level : Log.Severity) {α : Type} (x : StateT Registry Option α) : Prop :=
  ∀ r : Registry, x (r.atLevel level) = (x r).map fun p => (p.1, p.2.atLevel level)

namespace Blind

variable {α β : Type}

/-- One computation after another is blind if both are. -/
theorem bind {x : StateT Registry Option α} {f : α → StateT Registry Option β}
    (hx : Blind level x) (hf : ∀ a, Blind level (f a)) : Blind level (x >>= f) := by
  intro r
  change (x (r.atLevel level)).bind (fun p => f p.1 p.2) =
    ((x r).bind fun p => f p.1 p.2).map fun p => (p.1, p.2.atLevel level)
  rw [hx r, Option.bind_map, Option.map_bind]
  exact congrArg (Option.bind (x r)) (funext fun p => hf p.1 p.2)

theorem ofExcept (outcome : Except AliasError α) : Blind level (Action.ofExcept outcome) :=
  fun _ => rfl

/-- An action after another one is blind if both are. -/
theorem andThen {x : Action α} {f : α → Action β} (hx : Blind level x)
    (hf : ∀ a, Blind level (f a)) : Blind level (x >>= f : Action β) := by
  intro r
  have hxr := hx r
  rw [Action.bind_apply, Action.bind_apply, hxr, Option.bind_map, Option.map_bind]
  refine congrArg (Option.bind (x r)) (funext fun p => ?_)
  obtain ⟨outcome, after⟩ := p
  cases outcome with
  | ok a => exact hf a after
  | error error => rfl

theorem map {x : Action α} (hx : Blind level x) (f : α → β) : Blind level (f <$> x : Action β) := by
  intro r
  have hxr := hx r
  rw [Action.map_apply, Action.map_apply, hxr, Option.map_map, Option.map_map]
  rfl

/-- A change of the registry that leaves log levels alone. -/
theorem modify {f : Registry → Registry}
    (hf : ∀ r : Registry, f (r.atLevel level) = (f r).atLevel level) :
    Blind level (modify f : Action Unit) :=
  fun r => congrArg (fun r' => some (Except.ok (), r')) (hf r)

theorem tryCatch {x : Action α} {handle : AliasError → Action α} (hx : Blind level x)
    (hhandle : ∀ error, Blind level (handle error)) :
    Blind level (tryCatch x handle : Action α) := by
  intro r
  have hxr := hx r
  change Option.bind (x (r.atLevel level)) _ = Option.map _ (Option.bind (x r) _)
  rw [hxr, Option.bind_map, Option.map_bind]
  refine congrArg (Option.bind (x r)) (funext fun p => ?_)
  obtain ⟨outcome, after⟩ := p
  cases outcome with
  | ok a => rfl
  | error error => exact hhandle error after

theorem newType (validator : Validator) : Blind level (Action.newType validator) := fun _ => rfl

theorem normalizeType (e : TypeExpr) : Blind level (Action.normalizeType e) := by
  refine (ofExcept e.compile).andThen fun c => ?_
  cases c with
  | existing type => exact fun _ => rfl
  | new validator => exact newType validator

theorem normalizeAll (es : List TypeExpr) :
    Blind level (es.mapM Action.normalizeType : Action (List Ty)) := by
  induction es with
  | nil => exact fun _ => rfl
  | cons e es ih =>
    rw [List.mapM_cons]
    exact (normalizeType e).andThen fun t => ih.andThen fun ts _ => rfl

theorem normalize (e : TypeExpr) : Blind level (Action.normalize e) := by
  cases e with
  | generator function => exact fun _ => rfl
  | leaf | sequence | record | data => exact (normalizeType _).andThen fun t _ => rfl

end Blind

/-! ## Accesses -/

/-- A handler all of whose answers are blind. -/
structure BlindHandler (level : Log.Severity) (H : Handler (StateT Registry Option)) : Prop where
  create : ∀ validator, Blind level (H.create validator)
  access : ∀ a demand arguments, Blind level (H.access a demand arguments)
  call : ∀ function arguments, Blind level (H.call function arguments)

namespace BlindHandler

variable {H : Handler (StateT Registry Option)} (hH : BlindHandler level H)

include hH

/-- Bodies see of the registry only what the handler answers. -/
theorem run (b : Body) : ∀ frame, Blind level (b.run H frame) := by
  induction b with
  | finish | fail => exact fun _ _ => rfl
  | create validator next ih => exact fun frame => (hH.create validator).bind fun t => ih t frame
  | access a demand arguments next ih =>
    exact fun frame => (hH.access a demand _).bind fun answer => ih _ _
  | call function arguments next ih =>
    exact fun frame => (hH.call _ _).bind fun answer => ih _ _
  | build captured function next _ ih => exact fun frame => ih _ _

theorem apply (function : Generator) (types : List Ty) :
    Blind level (Registry.apply H function types) :=
  Blind.andThen (hH.run _ _) fun produced => .normalize produced

theorem callFunction (function : Generator) (arguments : List TypeExpr) :
    Blind level (Registry.call H function arguments) :=
  (Blind.normalizeAll arguments).andThen fun types => hH.apply function types

theorem invoke (a : Accessor) (function : Generator) (memo : Option Memo)
    (invocation : Invocation Generator) :
    Blind level (Registry.invoke H a function memo invocation) := by
  refine (Blind.normalizeAll _).andThen fun types => ?_
  -- which memo is asked has been decided before the registry is looked at
  dsimp only
  generalize (if invocation.isStable = true then memo else none) = memo
  split
  · exact (Blind.modify fun r => by rw [count_atLevel, note_atLevel]).andThen fun _ _ => rfl
  · refine (Blind.modify fun r => by rw [count_atLevel, note_atLevel]).andThen fun _ => ?_
    refine (hH.apply function types).andThen fun result => ?_
    split
    · exact (Blind.modify fun r => modifyAlias_atLevel r a _).andThen fun _ _ => rfl
    · exact fun _ => rfl

end BlindHandler

theorem blind_readCell (a : Accessor) : Blind level (aliasCell a).read := by
  intro r
  change some (Except.ok (((r.atLevel level).alias? a).bind Alias.type?), r.atLevel level) =
    some (Except.ok ((r.alias? a).bind Alias.type?), r.atLevel level)
  rw [alias?_atLevel]

theorem blind_force {a : Accessor} {produce : Action Ty} (h : Blind level produce) :
    Blind level ((aliasCell a).force produce) := by
  refine (blind_readCell a).andThen fun held => ?_
  cases held with
  | some t => exact fun _ => rfl
  | none =>
    -- the cell is read again, since what was made may have filled it
    refine h.andThen fun made => (blind_readCell a).andThen fun again => ?_
    cases again with
    | some t => exact fun _ => rfl
    | none => exact (Blind.modify fun r => modifyAlias_atLevel r a _).andThen fun _ _ => rfl

theorem blind_forcePlain (a : Accessor) (source : TypeExpr) :
    Blind level (forcePlain a source) := by
  refine (blind_readCell a).andThen fun held => ?_
  cases held with
  | some t =>
    exact (Blind.modify fun r => by rw [count_atLevel, note_atLevel]).andThen fun _ _ => rfl
  | none =>
    have hproduce : Blind level (do
        modify fun r => r.count a.space .normalizations
        Action.normalizeType source : Action Ty) :=
      (Blind.modify fun r => count_atLevel r _ _).andThen fun _ => .normalizeType source
    exact (blind_force hproduce).andThen fun t =>
      (Blind.modify fun r => note_atLevel r _ _ _).andThen fun _ _ => rfl

theorem BlindHandler.resolveAlias {H : Handler (StateT Registry Option)}
    (hH : BlindHandler level H) (a : Accessor) (arguments : List TypeExpr) :
    Blind level (Registry.resolveAlias H a arguments) := by
  intro r
  rw [Registry.resolveAlias, Action.get_bind_apply, Action.get_bind_apply, alias?_atLevel]
  rcases r.alias? a with _ | _ | ⟨source, type⟩ | ⟨function, memo⟩
  · rfl
  · rfl
  · dsimp only
    split
    · exact (blind_forcePlain a source).andThen (fun t _ => rfl) r
    · rfl
  · exact (Blind.ofExcept _).andThen (fun invocation => hH.invoke a function memo invocation) r

/-- Running inside of other accesses does not depend on log levels. -/
theorem blind_tracked {α : Type} {a : Accessor} {x : Action α} (h : Blind level x) :
    Blind level (tracked a x) := by
  intro r
  have hx := h r.enter
  rw [tracked_apply, tracked_apply, show (r.atLevel level).enter = r.enter.atLevel level from rfl,
    hx, Option.map_map, Option.map_map]
  exact congrArg (Option.map · (x r.enter)) (funext fun p => Prod.ext rfl (leave_atLevel ..))

/-- **Accesses are blind**, however deeply they run inside each other. -/
theorem blind_handler (fuel : Nat) : BlindHandler level (handler fuel) := by
  induction fuel with
  | zero => exact ⟨fun _ _ => rfl, fun _ _ _ _ => rfl, fun _ _ _ => rfl⟩
  | succ fuel ih =>
    refine ⟨fun _ _ => rfl, fun a demand arguments => blind_tracked ?_,
      fun function arguments => ?_⟩
    · exact (ih.resolveAlias a arguments).andThen fun answer => .ofExcept _
    · exact ih.callFunction function arguments

theorem blind_use (fuel : Nat) (kind : AccessKind) (arguments : List TypeExpr) (a : Accessor) :
    Blind level (a.use fuel kind arguments) := by
  have hcall (arguments : List TypeExpr) : Blind level (a.call fuel arguments) :=
    Blind.andThen ((blind_handler fuel).access a .type arguments) fun answer => .ofExcept _
  cases kind with
  | get => exact (hcall _).map _
  | call => exact (hcall _).map _
  | apply => exact (hcall _).map _
  | resolve => exact (blind_handler fuel).access a .any arguments

/-! ## Declarations and literals -/

theorem blind_reject {α : Type} (space : Nat) (name : String) (error : AliasError) :
    Blind level (reject space name error : Declaration α).toAction :=
  fun r => congrArg (fun r' => some (Except.error error, r'))
    (noteFailure_atLevel r space name _ error)

theorem blind_declareForward (space : Nat) (name : String) :
    Blind level (declareForward space name).toAction := by
  intro r
  rw [declareForward_toAction, declareForward_toAction, accessor_atLevel, alias?_atLevel]
  rcases r.alias? (r.accessor space name) with _ | _ | _ | _ <;> simp

theorem blind_bind (space : Nat) (name : String) (source : TypeExpr) :
    Blind level (Registry.bind space name source).toAction := by
  intro r
  rw [bind_toAction, bind_toAction, accessor_atLevel, alias?_atLevel, ofSource_atLevel]
  rcases r.alias? (r.accessor space name) with _ | _ | _ | _ <;> simp

theorem blind_lookup (space : Nat) (name : String) :
    Blind level (Registry.lookup space name).toAction := by
  intro r
  rw [lookup_toAction, lookup_toAction, accessor_atLevel, alias?_atLevel]
  cases r.alias? (r.accessor space name) <;> rfl

theorem blind_declared? (fuel space : Nat) (name : String) :
    Blind level (declared? fuel space name) := by
  intro r
  rw [declared?, Action.get_bind_apply, Action.get_bind_apply, accessor?_atLevel]
  cases r.accessor? space name with
  | none => rfl
  | some a =>
    have hget : Blind level (Accessor.get fuel a) :=
      Blind.andThen ((blind_handler fuel).access _ .type []) fun answer => .ofExcept _
    exact hget.andThen (fun t _ => rfl) r

/-- Literals are read in the same way, item by item. -/
theorem blind_readLiteral (fuel space : Nat) (literal : Json.Value) (prelude : Prelude) :
    Blind level (readLiteral fuel space literal prelude) := by
  have hitems {items : List Json.Value} (ih : ∀ v ∈ items, Blind level
      (Literal.read (m := Action) (declared? fuel space) prelude v)) : Blind level
        (Literal.readItems (m := Action) (declared? fuel space) prelude items) := by
    induction items with
    | nil => exact fun _ => rfl
    | cons v vs ihrest =>
      rw [Literal.readItems]
      refine (ih v List.mem_cons_self).andThen fun first => ?_
      exact (ihrest fun w hw => ih w (List.mem_cons_of_mem _ hw)).andThen fun rest _ => rfl
  have hmembers {members : List (String × Json.Value)} (ih : ∀ m ∈ members, Blind level
      (Literal.read (m := Action) (declared? fuel space) prelude m.2)) : Blind level
        (Literal.readMembers (m := Action) (declared? fuel space) prelude members) := by
    induction members with
    | nil => exact fun _ => rfl
    | cons member members ihrest =>
      rw [Literal.readMembers]
      refine (ih member List.mem_cons_self).andThen fun first => ?_
      exact (ihrest fun m hm => ih m (List.mem_cons_of_mem _ hm)).andThen fun rest _ => rfl
  rw [readLiteral]
  induction literal using Json.Value.memberInduction with
  | null => exact fun _ => rfl
  | bool value => exact fun _ => rfl
  | number value => exact fun _ => rfl
  | string name =>
    rw [Literal.read]
    refine (blind_declared? fuel space name).andThen fun known => ?_
    cases known with
    | some type => exact fun _ => rfl
    | none => cases prelude.get? name <;> exact fun _ => rfl
  | array items ih =>
    rw [Literal.read]
    exact (hitems ih).andThen fun es _ => rfl
  | object members ih =>
    rw [Literal.read]
    exact (hmembers ih).andThen fun fields _ => rfl

theorem blind_bindLiteral (fuel space : Nat) (name : String) (literal : Json.Value)
    (prelude : Prelude) : Blind level (bindLiteral fuel space name literal prelude) := by
  have hread : Blind level (readLiteral fuel space literal prelude) :=
    blind_readLiteral fuel space literal prelude
  refine Blind.andThen (.tryCatch hread fun error => ?_) fun source => blind_bind space name source
  split
  · exact blind_reject space name error
  · exact fun _ => rfl

/-! ## Operations -/

/-- **Operations are blind**: what an operation does, and whether it ends, does not depend on log
levels. -/
theorem perform_atLevel (fuel : Nat) (op : Operation) (r : Registry) :
    perform fuel (op.atLevel level) (r.atLevel level) =
      (perform fuel op r).map fun p => (p.1, p.2.atLevel level) := by
  cases op with
  | addSpace name config =>
    let result (p : Nat × Registry) : Option (Except AliasError Outcome × Registry) :=
      some (.ok (.space p.1), p.2)
    exact congrArg result (addSpace_atLevel r name config)
  | newType validator => exact (Blind.newType validator).map _ r
  | normalize e => exact (Blind.normalize e).map _ r
  | declareForward space name => exact (blind_declareForward space name).map _ r
  | bind space name source => exact (blind_bind space name source).map _ r
  | bindLiteral space name literal prelude =>
    exact (blind_bindLiteral fuel space name literal prelude).map _ r
  | readLiteral space literal prelude =>
    exact (blind_readLiteral fuel space literal prelude).map _ r
  | lookup space name => exact (blind_lookup space name).map _ r
  | use kind a arguments => exact (blind_use fuel kind arguments a).map _ r
  | call function arguments => exact ((blind_handler fuel).callFunction function arguments).map _ r

/-- Sessions are blind. -/
theorem performAll_atLevel (level : Log.Severity) (fuel : Nat) (ops : List Operation)
    (r : Registry) :
    performAll fuel (ops.map (Operation.atLevel level)) (r.atLevel level) =
      (performAll fuel ops r).map fun steps =>
        steps.map fun step => (step.1, step.2.atLevel level) := by
  induction ops generalizing r with
  | nil => rfl
  | cons op ops ih =>
    rw [List.map_cons, performAll, performAll, perform_atLevel]
    cases perform fuel op r with
    | none => rfl
    | some p =>
      change (performAll fuel (ops.map (Operation.atLevel level)) (p.2.atLevel level)).bind _ =
        Option.map _ ((performAll fuel ops p.2).bind _)
      rw [ih]
      cases performAll fuel ops p.2 <;> rfl

end Registry

end NamedTypes
