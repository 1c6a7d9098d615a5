import NamedTypes.Proofs.Adequacy

/-! # Where types come from
The identity of a type is the place where it was made, so nobody can make a type up. A body is
**over** a class of types if it uses only types of the class, as long as it is given and answered
such types and makes such types (`Body.Over`); expressions, type functions, aliases and registries
are over a class if all types and bodies in them are. Evaluations of what is over a class stay over
it, if the types that they make belong to it (`Registry.closed_world`). -/

namespace NamedTypes

/-! ## Expressions and bodies -/

/-- Expressions that are built of types of `K` and type functions of `P`. -/
inductive Expr.Over {F : Type} (K : Ty → Prop) (P : F → Prop) : Expr F → Prop
  | leaf {t : Ty} (known : K t) : Over K P (.leaf t)
  | sequence {items : List (Expr F)} (known : ∀ e ∈ items, Over K P e) : Over K P (.sequence items)
  | record {fields : List (String × Expr F)} (known : ∀ f ∈ fields, Over K P f.2) :
    Over K P (.record fields)
  | generator {f : F} (known : P f) : Over K P (.generator f)
  | data {value : Json.Value} : Over K P (.data value)

/-- Results that are types of `K` or type functions of `P`. -/
inductive Normalized.Over {F : Type} (K : Ty → Prop) (P : F → Prop) : Normalized F → Prop
  | type {t : Ty} (known : K t) : Over K P (.type t)
  | function {f : F} (known : P f) : Over K P (.function f)

/-- Bodies that use only types of `K` as long as they are given, answered and make such types. -/
inductive Body.Over (K : Ty → Prop) : Body → Prop
  | finish {e : Expr Nat} (result : e.Over K fun _ => True) : Over K (.finish e)
  | fail {error : AliasError} : Over K (.fail error)
  | create {v : Validator} {next : Ty → Body}
    (rest : ∀ t, K t → t.validator = v → Over K (next t)) : Over K (.create v next)
  | access {a : Accessor} {demand : Demand} {es : List (Expr Nat)}
    {next : Except AliasError (Normalized Nat) → Body}
    (arguments : ∀ e ∈ es, e.Over K fun _ => True)
    (rest : ∀ answer : Except AliasError (Normalized Nat),
      (∀ result, answer = .ok result → result.Over K fun _ => True) → Over K (next answer)) :
    Over K (.access a demand es next)
  | call {position : Nat} {es : List (Expr Nat)}
    {next : Except AliasError (Normalized Nat) → Body}
    (arguments : ∀ e ∈ es, e.Over K fun _ => True)
    (rest : ∀ answer : Except AliasError (Normalized Nat),
      (∀ result, answer = .ok result → result.Over K fun _ => True) → Over K (next answer)) :
    Over K (.call position es next)
  | build {captured : List Nat} {function : List Ty → Body} {next : Nat → Body}
    (built : ∀ ts : List Ty, (∀ t ∈ ts, K t) → Over K (function ts))
    (rest : ∀ position, Over K (next position)) : Over K (.build captured function next)

/-- Type functions that captured functions over `K` and run bodies over `K` on types of `K`. -/
inductive Generator.Over (K : Ty → Prop) : Generator → Prop
  | mk {captured : List Generator} {function : List Ty → Body}
    (captures : ∀ f ∈ captured, Over K f)
    (bodies : ∀ ts : List Ty, (∀ t ∈ ts, K t) → (function ts).Over K) :
    Over K (.mk captured function)

/-- Expressions over types of `K` and type functions over `K`. -/
abbrev TypeExpr.Over (K : Ty → Prop) : TypeExpr → Prop := Expr.Over K (Generator.Over K)

/-- Answers that are types of `K`, type functions over `K`, or errors. -/
def Answer.Over (K : Ty → Prop) (answer : Except AliasError (Normalized Generator)) : Prop :=
  ∀ result, answer = .ok result → result.Over K (Generator.Over K)

variable {K : Ty → Prop}

namespace Expr

variable {F G : Type} {P : F → Prop} {Q : G → Prop}

/-- Types of `K` are expressions over `K`. -/
theorem over_leaves {ts : List Ty} (h : ∀ t ∈ ts, K t) :
    ∀ e ∈ ts.map Expr.leaf, e.Over K P :=
  List.forall_mem_map.2 fun t ht => .leaf (h t ht)

theorem Over.map {g : F → G} (hg : ∀ f, P f → Q (g f)) {e : Expr F} (h : e.Over K P) :
    (e.map g).Over K Q := by
  induction h with
  | leaf known => exact .leaf known
  | sequence _ ih =>
    rw [Expr.map, mapItems_eq_map]
    refine .sequence fun e he => ?_
    obtain ⟨item, hitem, rfl⟩ := List.mem_map.1 he
    exact ih item hitem
  | record _ ih =>
    rw [Expr.map, mapFields_eq_map]
    refine .record fun f hf => ?_
    obtain ⟨field, hfield, rfl⟩ := List.mem_map.1 hf
    exact ih field hfield
  | generator known => exact .generator (hg _ known)
  | data => exact .data

/-- Only a type that exists already is compiled into itself. -/
theorem eq_leaf_of_compile {e : Expr F} {t : Ty} (h : e.compile = .ok (.existing t)) :
    e = .leaf t := by
  have hnew (x : Except AliasError Validator) : Compiled.new <$> x ≠ .ok (.existing t) := by
    intro hx
    cases x <;> cases hx
  cases e with
  | leaf type =>
    obtain rfl := Compiled.existing.inj (Except.ok.inj h)
    rfl
  | sequence | record | generator | data => exact absurd h (hnew _)

end Expr

/-- The parameters of a call are of what its arguments are of. -/
theorem Invocation.over_parameters {F : Type} {P : F → Prop} {es : List (Expr F)}
    {call : Invocation F} (hes : ∀ e ∈ es, e.Over K P) (h : ofArguments es = .ok call) :
    ∀ e ∈ call.parameters, e.Over K P := by
  rcases es with _ | ⟨e, _ | ⟨e', es⟩⟩
  · obtain rfl := Except.ok.inj h
    exact fun e he => absurd he List.not_mem_nil
  · obtain ⟨known⟩ | ⟨known⟩ | ⟨known⟩ | ⟨known⟩ | _ := hes e List.mem_cons_self
    · cases h
    · obtain rfl := Except.ok.inj h
      exact known
    · cases h
    · cases h
    · cases h
  · simp [ofArguments] at h

namespace Frame

variable {frame : Frame}

theorem over_get (h : ∀ f ∈ frame, f.Over K) (position : Nat) : (frame.get position).Over K := by
  rw [get, List.getD_eq_getElem?_getD]
  cases hf : frame[position]? with
  | none =>
    -- calls of the function that stands for a missing one just fail
    exact .mk (fun f hf => absurd hf List.not_mem_nil) fun _ _ => .fail
  | some f => exact h f (List.mem_of_getElem? hf)

theorem over_close (h : ∀ f ∈ frame, f.Over K) {e : Expr Nat} (he : e.Over K fun _ => True) :
    TypeExpr.Over K (frame.close e) :=
  he.map fun position _ => over_get h position

theorem over_arguments (h : ∀ f ∈ frame, f.Over K) {es : List (Expr Nat)}
    (hes : ∀ e ∈ es, e.Over K fun _ => True) :
    ∀ e ∈ es.map frame.close, TypeExpr.Over K e := by
  intro e he
  obtain ⟨argument, hargument, rfl⟩ := List.mem_map.1 he
  exact over_close h (hes argument hargument)

/-- What a body receives is over what its answer is over, and so is the frame from then on. -/
theorem over_receive (h : ∀ f ∈ frame, f.Over K)
    {answer : Except AliasError (Normalized Generator)} (hanswer : Answer.Over K answer) :
    (∀ result, (frame.receive answer).1 = .ok result → result.Over K fun _ => True) ∧
      ∀ f ∈ (frame.receive answer).2, f.Over K := by
  rcases answer with error | t | function
  · exact ⟨fun result hresult => (by cases hresult), h⟩
  · refine ⟨fun result hresult => ?_, h⟩
    obtain rfl := Except.ok.inj hresult
    cases hanswer _ rfl with
    | type known => exact .type known
  · refine ⟨fun result hresult => ?_, fun f hf => ?_⟩
    · obtain rfl := Except.ok.inj hresult
      exact .function trivial
    · rcases List.mem_append.1 hf with hf | hf
      · exact h f hf
      · obtain rfl := List.mem_singleton.1 hf
        cases hanswer _ rfl with
        | function known => exact known

theorem over_build (h : ∀ f ∈ frame, f.Over K) (captured : List Nat) {function : List Ty → Body}
    (hbuilt : ∀ ts : List Ty, (∀ t ∈ ts, K t) → (function ts).Over K) :
    ∀ f ∈ frame.build captured function, f.Over K := by
  intro f hf
  rcases List.mem_append.1 hf with hf | hf
  · exact h f hf
  · obtain rfl := List.mem_singleton.1 hf
    refine .mk (fun g hg => ?_) hbuilt
    obtain ⟨position, -, rfl⟩ := List.mem_map.1 hg
    exact over_get h position

end Frame

/-! ## Aliases and registries -/

/-- Aliases that stand for something over `K`, keep a type of `K`, and remember results over `K` for
types of `K`. -/
inductive Alias.Over (K : Ty → Prop) : Alias → Prop
  | pending : Over K .pending
  | plain {source : TypeExpr} {type : Option Ty} (source_over : source.Over K)
    (kept : ∀ t, type = some t → K t) : Over K (.plain source type)
  | function {f : Generator} {memo : Option Memo} (function_over : f.Over K)
    (remembered : ∀ m types result, memo = some m → m.get? types = some result →
      result.Over K (Generator.Over K))
    (keys : ∀ m types result, memo = some m → m.get? types = some result →
      ∃ known, Memo.key known = Memo.key types ∧ ∀ t ∈ known, K t) : Over K (.function f memo)

namespace Alias

theorem Over.keep {entry : Alias} {t : Ty} (h : entry.Over K) (ht : K t) :
    (entry.keep t).Over K := by
  cases h with
  | pending => exact .pending
  | plain source_over => exact .plain source_over fun u hu => Option.some.inj hu ▸ ht
  | function function_over remembered keys => exact .function function_over remembered keys

theorem Over.remember {entry : Alias} {types : List Ty} {result : Normalized Generator}
    (h : entry.Over K) (htypes : ∀ t ∈ types, K t)
    (hresult : result.Over K (Generator.Over K)) : (entry.remember types result).Over K := by
  cases h with
  | pending => exact .pending
  | plain source_over kept => exact .plain source_over kept
  | @function f memo function_over remembered keys =>
    cases memo with
    | none => exact .function function_over remembered keys
    | some memo =>
      refine .function function_over (fun m others found hm hfound => ?_)
        fun m others found hm hfound => ?_
      · obtain rfl := Option.some.inj hm
        rcases Memo.get?_insert_cases hfound with hfound | ⟨-, rfl⟩
        · exact remembered memo others found rfl hfound
        · exact hresult
      · obtain rfl := Option.some.inj hm
        rcases Memo.get?_insert_cases hfound with hfound | ⟨hkey, -⟩
        · exact keys memo others found rfl hfound
        · exact ⟨types, hkey.symm, htypes⟩

theorem over_ofSource {source : TypeExpr} (h : source.Over K) (config : Config) :
    (Alias.ofSource config source).Over K := by
  cases h with
  | generator known =>
    -- nothing is remembered yet
    have hempty {m types result} (hm : (if config.memoize = true then some ({} : Memo) else none) =
        some m) : m.get? types ≠ some result := by
      split at hm
      · obtain rfl := Option.some.inj hm
        exact nofun
      · cases hm
    exact .function known (fun m types result hm hresult => absurd hresult (hempty hm))
      fun m types result hm hresult => absurd hresult (hempty hm)
  | leaf known => exact .plain (.leaf known) (by rintro _ ⟨⟩)
  | sequence known => exact .plain (.sequence known) (by rintro _ ⟨⟩)
  | record known => exact .plain (.record known) (by rintro _ ⟨⟩)
  | data => exact .plain .data (by rintro _ ⟨⟩)

end Alias

namespace Registry

variable {r r' r₁ r₂ : Registry} {a : Accessor}

/-- Registries all of whose aliases are over `K`. -/
def Over (K : Ty → Prop) (r : Registry) : Prop :=
  ∀ a entry, r.alias? a = some entry → entry.Over K

theorem Over.of_alias? (h : r.Over K) (ha : ∀ a, r'.alias? a = r.alias? a) : r'.Over K :=
  fun a entry hentry => h a entry (ha a ▸ hentry)

theorem Over.modifyAlias (h : r.Over K) {f : Alias → Alias}
    (hf : ∀ entry, entry.Over K → (f entry).Over K) : (r.modifyAlias a f).Over K := by
  intro b found hfound
  obtain ⟨entry, hentry, rfl⟩ | hfound := alias?_modifyAlias_cases hfound
  · exact hf entry (h b entry hentry)
  · exact h b found hfound

/-! ## Types that have been made -/

/-- A type that has been made. -/
def Made (r : Registry) (t : Ty) : Prop := r.instances[t.id]? = some t.validator

/-- Types that have been made are told apart by their identities. -/
theorem toldApart_made (r : Registry) : ToldApart r.Made := by
  intro t u ht hu hid
  obtain ⟨id, v⟩ := t
  obtain ⟨id', w⟩ := u
  obtain rfl : id = id' := hid
  obtain rfl : v = w := Option.some.inj (Eq.trans (Eq.symm ht) hu)
  rfl

theorem made_le_of_instances (h : r'.instances = r.instances) : r.Made ≤ r'.Made := by
  intro t ht
  rw [Made, h]
  exact ht

theorem made_le_newType (r : Registry) (v : Validator) : r.Made ≤ (r.newType v).2.Made := by
  intro t ht
  have hlt : t.id < r.instances.size := (Array.getElem?_eq_some_iff.1 ht).1
  change (r.instances.push v)[t.id]? = some t.validator
  rw [Array.getElem?_push_lt hlt]
  exact (Array.getElem?_eq_getElem hlt).symm.trans ht

theorem made_newType (r : Registry) (v : Validator) : (r.newType v).2.Made (r.newType v).1 :=
  Array.getElem?_push_size

theorem instances_note (r : Registry) (space : Nat) (event : Log.Event) (fields : Entries String) :
    (r.note space event fields).instances = r.instances := by
  unfold note
  split <;> rfl

theorem instances_modifyAlias (r : Registry) (a : Accessor) (f : Alias → Alias) :
    (r.modifyAlias a f).instances = r.instances := by
  unfold modifyAlias setAlias
  split
  · split <;> rfl
  · rfl

theorem instances_leave {α : Type} (r : Registry) (a : Accessor) (outcome : Except AliasError α)
    (after : Registry) : (r.leave a outcome after).instances = after.instances := by
  cases outcome with
  | ok result => rfl
  | error error =>
    rw [leave]
    split
    · exact instances_note ..
    · rfl

theorem made_le_note {space : Nat} {event : Log.Event} {fields : Entries String} :
    r.Made ≤ (r.note space event fields).Made :=
  made_le_of_instances (instances_note ..)

theorem made_le_noteFailure {space : Nat} {name : String} {event : Log.Event} {error : AliasError} :
    r.Made ≤ (r.noteFailure space name event error).Made :=
  made_le_of_instances (instances_note ..)

theorem made_le_modifyAlias {f : Alias → Alias} : r.Made ≤ (r.modifyAlias a f).Made :=
  made_le_of_instances (instances_modifyAlias ..)

/-- Types that have been made stay so. -/
theorem keeps_made (fuel : Nat) : (world fuel).Keeps fun r _ r' => r.Made ≤ r'.Made := by
  refine keeps_world (fun r => le_refl r.Made) (fun h h' => h.trans h') made_le_newType
    (fun {_ a demand arguments r log answer r'} hW h => ?_) fuel
  have hadmits : Admits (fun r _ r' => r.Made ≤ r'.Made) a :=
    { count := fun _ => le_rfl
      note := fun _ => made_le_note
      keep := made_le_modifyAlias
      remember := made_le_modifyAlias }
  obtain ⟨resolves, -⟩ := h
  have hinner : r.enter.Made ≤ _ := resolves.keeps hW hadmits
  exact hinner.trans (made_le_of_instances (instances_leave ..))

/-- A new type is one that has been made, and changes no alias. -/
theorem of_makes {fuel : Nat} {v : Validator} {t : Ty} (h : (world fuel).makes v r t r') :
    r'.Made t ∧ t.validator = v ∧ r'.spaces = r.spaces := by
  rw [makes_world] at h
  obtain ⟨rfl, rfl⟩ := Prod.mk.inj h
  exact ⟨made_newType r v, rfl, rfl⟩

/-! ## Stretches of runs -/

/-- What comes of something that is over `K`: a registry over `K`, accesses with arguments over `K`,
and in case of success a result in `Q`. -/
structure Yields {α : Type} (K : Ty → Prop) (Q : α → Prop) (log : List Visit)
    (outcome : Except AliasError α) (r : Registry) : Prop where
  registry : r.Over K
  arguments : ∀ v ∈ log, ∀ e ∈ v.arguments, TypeExpr.Over K e
  result : ∀ x, outcome = .ok x → Q x

namespace Yields

variable {α β : Type} {Q : α → Prop} {S : β → Prop} {log log' : List Visit}
  {outcome : Except AliasError α} {earlier : Except AliasError β}

/-- Nothing was accessed. -/
theorem silent (h : r.Over K) (hresult : ∀ x, outcome = .ok x → Q x) : Yields K Q [] outcome r :=
  ⟨h, fun _ hv => absurd hv List.not_mem_nil, hresult⟩

/-- One stretch after another. -/
theorem trans (h : Yields K S log earlier r₁) (h' : Yields K Q log' outcome r₂) :
    Yields K Q (log ++ log') outcome r₂ := by
  refine ⟨h'.registry, fun v hv => ?_, h'.result⟩
  rcases List.mem_append.1 hv with hv | hv
  · exact h.arguments v hv
  · exact h'.arguments v hv

/-- The same stretch with another outcome and the steps after it that access nothing. -/
theorem ending (h : Yields K S log earlier r) (hover : r'.Over K)
    (hresult : ∀ x, outcome = .ok x → Q x) : Yields K Q log outcome r' :=
  ⟨hover, h.arguments, hresult⟩

end Yields

/-- Accesses with arguments over `K` are given types of `K` only. -/
theorem regular_of_over {log : List Visit} (hpasses : PassesOn log)
    (h : ∀ v ∈ log, ∀ e ∈ v.arguments, TypeExpr.Over K e) : Regular K log := by
  refine ⟨hpasses, fun v hv t ht => ?_⟩
  obtain ⟨call, hcall, ht⟩ := ht
  cases Invocation.over_parameters (h v hv) hcall _ ht with
  | leaf known => exact known

/-! ## Evaluations -/

/-- Worlds that answer requests over `K` with what is over `K`, as long as all types that are made
meanwhile belong to `K`. -/
structure Closed (K : Ty → Prop) (W : World Registry Visit) : Prop where
  grows : W.Keeps fun r _ r' => r.Made ≤ r'.Made
  makes : ∀ {v r t r'}, W.makes v r t r' → r'.Made t ∧ t.validator = v ∧ r'.spaces = r.spaces
  accesses : ∀ {a demand arguments r log answer r'}, r.Over K →
    (∀ e ∈ arguments, TypeExpr.Over K e) → r'.Made ≤ K →
    W.accesses a demand arguments r log answer r' →
    Yields K (fun x => x.Over K (Generator.Over K)) log answer r'
  calls : ∀ {f arguments r log answer r'}, r.Over K → f.Over K →
    (∀ e ∈ arguments, TypeExpr.Over K e) → r'.Made ≤ K → W.calls f arguments r log answer r' →
    Yields K (fun x => x.Over K (Generator.Over K)) log answer r'

namespace Closed

variable {W : World Registry Visit} {log : List Visit}

/-- The type that an expression over `K` comes to is one of `K`. -/
theorem compiles (hW : Closed K W) {e : TypeExpr} {outcome : Except AliasError Ty}
    (hr : r.Over K) (he : e.Over K) (hK : r'.Made ≤ K) (h : W.Compiles e r outcome r') :
    Yields K K [] outcome r' := by
  cases h with
  | existing compiled =>
    obtain rfl := Expr.eq_leaf_of_compile compiled
    cases he with
    | leaf known => exact .silent hr fun t ht => Except.ok.inj ht ▸ known
  | made _ makes =>
    obtain ⟨hmade, -, hspaces⟩ := hW.makes makes
    exact .silent (hr.of_alias? (alias?_of_spaces hspaces)) fun t ht =>
      hK t (Except.ok.inj ht ▸ hmade)
  | faulty => exact .silent hr (by rintro _ ⟨⟩)

theorem compilesAll (hW : Closed K W) {es : List TypeExpr} {outcome : Except AliasError (List Ty)}
    (hr : r.Over K) (hes : ∀ e ∈ es, TypeExpr.Over K e) (hK : r'.Made ≤ K)
    (h : W.CompilesAll es r outcome r') : Yields K (fun ts => ∀ t ∈ ts, K t) [] outcome r' := by
  induction h with
  | nil =>
    refine .silent hr fun ts hts => ?_
    obtain rfl := Except.ok.inj hts
    exact fun t ht => absurd ht List.not_mem_nil
  | cons first rest ih =>
    obtain ⟨he, hes⟩ := List.forall_mem_cons.1 hes
    have hfirst := hW.compiles hr he ((hW.grows.compilesAll rest).trans hK) first
    have hrest := ih hfirst.registry hes hK
    refine hrest.ending hrest.registry fun ts hts => ?_
    obtain rfl := Except.ok.inj hts
    exact List.forall_mem_cons.2 ⟨hfirst.result _ rfl, hrest.result _ rfl⟩
  | faultyFirst first =>
    have hfirst := hW.compiles hr (hes _ List.mem_cons_self) hK first
    exact hfirst.ending hfirst.registry (by rintro _ ⟨⟩)
  | faultyRest first rest ih =>
    obtain ⟨he, hes⟩ := List.forall_mem_cons.1 hes
    have hfirst := hW.compiles hr he ((hW.grows.compilesAll rest).trans hK) first
    have hrest := ih hfirst.registry hes hK
    exact hrest.ending hrest.registry (by rintro _ ⟨⟩)

theorem normalizes (hW : Closed K W) {e : TypeExpr}
    {outcome : Except AliasError (Normalized Generator)} (hr : r.Over K) (he : e.Over K)
    (hK : r'.Made ≤ K) (h : W.Normalizes e r outcome r') :
    Yields K (fun x => x.Over K (Generator.Over K)) [] outcome r' := by
  cases h with
  | function =>
    cases he with
    | generator known => exact .silent hr fun x hx => Except.ok.inj hx ▸ .function known
  | @type _ _ _ compiled noFunction compiles =>
    have htype := hW.compiles hr he hK compiles
    refine htype.ending htype.registry fun x hx => ?_
    cases compiled with
    | error error => cases hx
    | ok t => exact Except.ok.inj hx ▸ .type (htype.result t rfl)

/-- **Bodies over `K` stay among the types of `K`.** -/
theorem runs (hW : Closed K W) {b : Body} {frame : Frame} {outcome : Except AliasError TypeExpr}
    (hr : r.Over K) (hb : b.Over K) (hframe : ∀ f ∈ frame, f.Over K) (hK : r'.Made ≤ K)
    (h : W.Runs b frame r log outcome r') : Yields K (TypeExpr.Over K) log outcome r' := by
  induction h with
  | finish =>
    cases hb with
    | finish result =>
      exact .silent hr fun e he => Except.ok.inj he ▸ Frame.over_close hframe result
  | fail => exact .silent hr (by rintro _ ⟨⟩)
  | create makes rest ih =>
    cases hb with
    | create hrest =>
      obtain ⟨hmade, hvalidator, hspaces⟩ := hW.makes makes
      have hknown := (hW.grows.runs rest).trans hK _ hmade
      exact ih (hr.of_alias? (alias?_of_spaces hspaces)) (hrest _ hknown hvalidator) hframe hK
  | access accesses rest ih =>
    cases hb with
    | access arguments hrest =>
      have hanswer := hW.accesses hr (Frame.over_arguments hframe arguments)
        ((hW.grows.runs rest).trans hK) accesses
      obtain ⟨hreceived, hframe'⟩ := Frame.over_receive hframe hanswer.result
      exact hanswer.trans (ih hanswer.registry (hrest _ hreceived) hframe' hK)
  | call calls rest ih =>
    cases hb with
    | call arguments hrest =>
      have hanswer := hW.calls hr (Frame.over_get hframe _)
        (Frame.over_arguments hframe arguments) ((hW.grows.runs rest).trans hK) calls
      obtain ⟨hreceived, hframe'⟩ := Frame.over_receive hframe hanswer.result
      exact hanswer.trans (ih hanswer.registry (hrest _ hreceived) hframe' hK)
  | build _ ih =>
    cases hb with
    | build built hrest => exact ih hr (hrest _) (Frame.over_build hframe _ built) hK

theorem applies (hW : Closed K W) {f : Generator} {types : List Ty}
    {outcome : Except AliasError (Normalized Generator)} (hr : r.Over K) (hf : f.Over K)
    (htypes : ∀ t ∈ types, K t) (hK : r'.Made ≤ K) (h : W.Applies f types r log outcome r') :
    Yields K (fun x => x.Over K (Generator.Over K)) log outcome r' := by
  obtain ⟨captures, bodies⟩ := hf
  cases h with
  | produced runs normalizes =>
    have hrun := hW.runs hr (bodies types htypes) captures
      ((hW.grows.normalizes normalizes).trans hK) runs
    have hresult := hW.normalizes hrun.registry (hrun.result _ rfl) hK normalizes
    exact hrun.ending hresult.registry hresult.result
  | failed runs =>
    have hrun := hW.runs hr (bodies types htypes) captures hK runs
    exact hrun.ending hrun.registry (by rintro _ ⟨⟩)

theorem callsFunction (hW : Closed K W) {f : Generator} {arguments : List TypeExpr}
    {outcome : Except AliasError (Normalized Generator)} (hr : r.Over K) (hf : f.Over K)
    (hes : ∀ e ∈ arguments, TypeExpr.Over K e) (hK : r'.Made ≤ K)
    (h : W.Calls f arguments r log outcome r') :
    Yields K (fun x => x.Over K (Generator.Over K)) log outcome r' := by
  cases h with
  | applied compiles applies =>
    have htypes := hW.compilesAll hr hes ((hW.grows.applies applies).trans hK) compiles
    exact hW.applies htypes.registry hf (htypes.result _ rfl) hK applies
  | faulty compiles =>
    have htypes := hW.compilesAll hr hes hK compiles
    exact htypes.ending htypes.registry (by rintro _ ⟨⟩)

/-- Whatever an alias comes to is over what the registry is over. -/
theorem resolves (hW : Closed K W) {arguments : List TypeExpr}
    {outcome : Except AliasError (Normalized Generator)} (hr : r.Over K)
    (hes : ∀ e ∈ arguments, TypeExpr.Over K e) (hK : r'.Made ≤ K)
    (h : Resolves W a arguments r log outcome r') :
    Yields K (fun x => x.Over K (Generator.Over K)) log outcome r' := by
  have hcount {r : Registry} {space : Nat} {counter : Counter} (h : r.Over K) :
      Registry.Over K (r.count space counter) := h.of_alias? fun b => alias?_count ..
  have hnote {r : Registry} {space : Nat} {event : Log.Event} {fields : Entries String}
      (h : r.Over K) : Registry.Over K (r.note space event fields) :=
    h.of_alias? fun b => alias?_note ..
  -- what was made in the end was made by the end of each part, from the last part to the first
  cases h with
  | undefined | overApplied | misapplied => exact .silent hr (by rintro _ ⟨⟩)
  | kept entry =>
    refine .silent (hnote (hcount hr)) fun x hx => Except.ok.inj hx ▸ .type ?_
    cases hr a _ entry with
    | plain _ kept => exact kept _ rfl
  | compiled entry _ compiles =>
    have hK' := (made_le_modifyAlias.trans made_le_note).trans hK
    cases hr a _ entry with
    | plain source_over =>
      have htype := hW.compiles (hcount hr) source_over hK' compiles
      have hknown := htype.result _ rfl
      exact .silent (hnote (htype.registry.modifyAlias fun _ h => h.keep hknown)) fun x hx =>
        Except.ok.inj hx ▸ .type hknown
  | faultySource entry _ compiles =>
    cases hr a _ entry with
    | plain source_over =>
      have htype := hW.compiles (hcount hr) source_over hK compiles
      exact htype.ending htype.registry (by rintro _ ⟨⟩)
  | faultyParameter _ invocation compiles =>
    have htypes := hW.compilesAll hr (Invocation.over_parameters hes invocation) hK compiles
    exact htypes.ending htypes.registry (by rintro _ ⟨⟩)
  | @remembered _ _ _ _ _ r₁ entry invocation _ compiles found =>
    have hK' : r₁.Made ≤ K := le_trans (made_le_note (r := r₁.count a.space .memoHits)) hK
    have htypes := hW.compilesAll hr (Invocation.over_parameters hes invocation) hK' compiles
    refine .silent (hnote (hcount htypes.registry)) fun x hx => ?_
    obtain rfl := Except.ok.inj hx
    cases hr a _ entry with
    | function _ remembered => exact remembered _ _ _ rfl found
  | @ran f memo call types result _ r₁ r₂ entry invocation compiles _ applies =>
    have hmodify : r₂.Made ≤ K := by
      refine le_trans ?_ hK
      split
      · exact made_le_modifyAlias
      · exact le_rfl
    have hstart : r₁.Made ≤ K := le_trans
      (made_le_note (r := r₁.count a.space .functionInvocations))
      ((hW.grows.applies applies).trans hmodify)
    have htypes := hW.compilesAll hr (Invocation.over_parameters hes invocation) hstart compiles
    cases hr a _ entry with
    | function function_over =>
      have hresult := hW.applies (hnote (hcount htypes.registry)) function_over
        (htypes.result _ rfl) hmodify applies
      refine hresult.ending ?_ hresult.result
      split
      · exact hresult.registry.modifyAlias fun _ h =>
          h.remember (htypes.result _ rfl) (hresult.result _ rfl)
      · exact hresult.registry
  | @failed _ _ _ _ _ _ r₁ _ entry invocation compiles _ applies =>
    have hstart : r₁.Made ≤ K := le_trans
      (made_le_note (r := r₁.count a.space .functionInvocations))
      ((hW.grows.applies applies).trans hK)
    have htypes := hW.compilesAll hr (Invocation.over_parameters hes invocation) hstart compiles
    cases hr a _ entry with
    | function function_over =>
      have hresult := hW.applies (hnote (hcount htypes.registry)) function_over
        (htypes.result _ rfl) hK applies
      exact hresult.ending hresult.registry (by rintro _ ⟨⟩)

end Closed

/-- **The program makes up no types.** -/
theorem closed_world (K : Ty → Prop) (fuel : Nat) : Closed K (world fuel) := by
  induction fuel with
  | zero => exact ⟨keeps_made 0, of_makes, fun _ _ _ => nofun, fun _ _ _ _ => nofun⟩
  | succ fuel ih =>
    refine ⟨keeps_made (fuel + 1), of_makes, fun {a demand arguments r log answer r'} hr hes hK h => ?_,
      fun hr hf hes hK h => ih.callsFunction hr hf hes hK h⟩
    obtain @⟨inner, resolved, _, r₁, resolves, rfl⟩ := h
    have hK' := (made_le_of_instances (instances_leave ..)).trans hK
    have hinner := ih.resolves (hr.of_alias? fun _ => rfl : r.enter.Over K) hes hK' resolves
    refine ⟨hinner.registry.of_alias? fun b => alias?_leave .., fun v hv => ?_, fun x hx => ?_⟩
    · rcases List.mem_append.1 hv with hv | hv
      · exact hinner.arguments v hv
      · obtain rfl := List.mem_singleton.1 hv
        exact hes
    · cases resolved with
      | error error => cases hx
      | ok y => exact Demand.eq_of_require hx ▸ hinner.result y rfl

end Registry

end NamedTypes
