import NamedTypes.Proofs.Permanence

/-! # The order of definitions
Names that were declared ahead are bound in some order, and accessors are used before, between and
after that, with or without success (`Interleaves`). Neither the order nor the uses show in the end
(`definition_order_immaterial`). The outlines of the namespaces tell the definitions only
(`Registry.BindsInOrder.outlines_eq`), since binding one name and binding another one commute; and
whatever an early use made aliases keep or remember is what the definitions mean in the end as well
(`Registry.BindsInOrder.sound`), because strict functions come to a result without failing accesses
only. So every later access comes to its meaning, which is the same in both runs. -/

namespace NamedTypes

/-! ## Functions among arguments -/

namespace Expr

variable {F G : Type}

/-- Type functions do not matter for what an expression comes to. -/
theorem validator_map (f : F → G) (e : Expr F) : (e.map f).validator = e.validator := by
  induction e using memberInduction with
  | leaf | generator | data => rfl
  | sequence items ih =>
    have hitems : validators (items.map (map f)) = validators items := by
      induction items with
      | nil => rfl
      | cons e items ihitems =>
        obtain ⟨he, hrest⟩ := List.forall_mem_cons.1 ih
        rw [List.map_cons, validators, validators, he, ihitems hrest]
    rw [map, mapItems_eq_map, validator, validator, hitems]
  | record fields ih =>
    have hfields : (fields.map fun e => (e.1, e.2.map f)).map (fun e => (e.1, e.2.validator)) =
        fields.map fun e => (e.1, e.2.validator) := by
      rw [List.map_map]
      exact List.map_congr_left fun e he => congrArg (e.1, ·) (ih e he)
    rw [map, mapFields_eq_map, validator, validator, fieldValidators_eq_map,
      fieldValidators_eq_map, hfields]

theorem compile_map (f : F → G) (e : Expr F) : (e.map f).compile = e.compile := by
  have hvalidator := validator_map f e
  cases e with
  | leaf | generator | data => rfl
  | sequence | record =>
    rw [map] at hvalidator ⊢
    exact congrArg (Compiled.new <$> ·) hvalidator

end Expr

namespace Registry

theorem normalizeType_map (f : Generator → Generator) (e : TypeExpr) :
    Action.normalizeType (e.map f) = Action.normalizeType e := by
  rw [Action.normalizeType, Action.normalizeType, Expr.compile_map]

variable {handler : Handler (StateT Registry Option)} {a : Accessor}

theorem invoke_map (f : Generator → Generator) {function : Generator} {memo : Option Memo}
    (parameters : List TypeExpr) :
    invoke handler a function memo (.applied (parameters.map (Expr.map f))) =
      invoke handler a function memo (.applied parameters) := by
  have hstable : (Invocation.applied (parameters.map (Expr.map f))).isStable =
      (Invocation.applied parameters).isStable := by
    have hleaf (e : TypeExpr) : (e.map f).isLeaf = e.isLeaf := by cases e <;> rfl
    simp only [Invocation.isStable, Invocation.parameters, List.all_map, Function.comp_def, hleaf]
  have htypes : (parameters.map (Expr.map f)).mapM Action.normalizeType =
      parameters.mapM Action.normalizeType := by
    rw [List.mapM_map]
    exact congrArg (fun g => parameters.mapM g) (funext (normalizeType_map f))
  simp only [invoke, hstable, Invocation.parameters, htypes]

theorem resolveAlias_map (f : Generator → Generator) (arguments : List TypeExpr) :
    resolveAlias handler a (arguments.map (Expr.map f)) = resolveAlias handler a arguments := by
  have hempty : (arguments.map (Expr.map f)).isEmpty = arguments.isEmpty := by
    rw [List.isEmpty_map]
  have hinvoke (function : Generator) (memo : Option Memo) :
      (Action.ofExcept (Invocation.ofArguments (arguments.map (Expr.map f))) >>=
        invoke handler a function memo) =
      Action.ofExcept (Invocation.ofArguments arguments) >>= invoke handler a function memo := by
    rcases arguments with _ | ⟨e, _ | ⟨e', arguments⟩⟩
    · rfl
    · cases e with
      | sequence items =>
        rw [List.map_singleton, Expr.map, Expr.mapItems_eq_map]
        exact invoke_map f items
      | leaf | record | generator | data => rfl
    · have hmany (x y : TypeExpr) (rest : List TypeExpr) :
          Invocation.ofArguments (x :: y :: rest) = .error (.bareArguments (rest.length + 2)) := by
        simp [Invocation.ofArguments]
      rw [List.map_cons, List.map_cons, hmany, hmany, List.length_map]
  simp only [resolveAlias, hempty, hinvoke]

/-- **Functions among the arguments of an access are never run**, nor looked at. -/
theorem access_map (f : Generator → Generator) (fuel : Nat) (demand : Demand)
    (arguments : List TypeExpr) :
    access fuel a demand (arguments.map (Expr.map f)) = access fuel a demand arguments := by
  cases fuel with
  | zero => rfl
  | succ fuel => simp only [access, Registry.handler, resolveAlias_map]

end Registry

/-! ## Definitions in order -/

/-- The name that an operation binds, after the number of its namespace, and what it is bound to. -/
def Operation.binding? : Operation → Option ((Nat × String) × TypeExpr)
  | .bind space name source => some ((space, name), source)
  | _ => none

/-- The outline of the slots of a name after the name has been bound. -/
def SlotsOutline.define : Option SlotsOutline → Definition → SlotsOutline
  | none, definition => ⟨[definition], 0⟩
  | some s, definition => { s with definitions := s.definitions.set s.current definition }

theorem Slots.outline_put (s : Option Slots) (entry : Alias) :
    (Slots.put s entry).outline = SlotsOutline.define (s.map Slots.outline) entry.definition := by
  cases s with
  | none => rfl
  | some s => exact congrArg (SlotsOutline.mk · s.current) (List.map_set ..)

/-- The outline after a name has been bound. -/
def Outline.define (name : String) (definition : Definition) (o : Outline) : Outline :=
  { o with
    bindings := o.bindings + 1
    slots := Entries.insert name (.define (o.slots.lookup name) definition) o.slots }

theorem Outline.define_comm {name name' : String} (hne : name ≠ name') (d d' : Definition)
    (o : Outline) : (o.define name d).define name' d' = (o.define name' d').define name d := by
  simp only [Outline.define, Entries.lookup_insert_of_ne hne, Entries.lookup_insert_of_ne hne.symm,
    Entries.insert_comm hne]

/-- The outlines of all namespaces after a name has been bound in one of them. -/
def defineIn (outlines : List Outline) (d : (Nat × String) × TypeExpr) : List Outline :=
  outlines.modify d.1.1 (Outline.define d.1.2 (.ofSource d.2))

/-- Two names are bound in any order. -/
theorem defineIn_comm {d e : (Nat × String) × TypeExpr} (hne : d.1 ≠ e.1)
    (outlines : List Outline) :
    defineIn (defineIn outlines d) e = defineIn (defineIn outlines e) d := by
  obtain ⟨⟨space, name⟩, source⟩ := d
  obtain ⟨⟨space', name'⟩, source'⟩ := e
  refine List.ext_getElem? fun other => ?_
  simp only [defineIn, List.getElem?_modify]
  cases outlines[other]? with
  | none => rfl
  | some o =>
    by_cases hspace : space = other
    · by_cases hspace' : space' = other
      · have hname : name ≠ name' := fun heq => hne (by rw [hspace, hspace', heq])
        simp [hspace, hspace', Outline.define_comm hname]
      · simp [hspace']
    · simp [hspace]

/-- **The order in which distinct names are bound does not show in the outlines.** -/
theorem foldl_defineIn_of_perm {definitions definitions' : List ((Nat × String) × TypeExpr)}
    (hperm : definitions.Perm definitions') (hnodup : (definitions.map Prod.fst).Nodup)
    (outlines : List Outline) :
    definitions.foldl defineIn outlines = definitions'.foldl defineIn outlines := by
  -- transpositions are enough, and one of a definition with itself changes nothing
  refine hperm.foldl_eq' (fun d hd e he outlines => ?_) outlines
  by_cases hne : d.1 = e.1
  · rw [List.inj_on_of_nodup_map hnodup hd he hne]
  · exact defineIn_comm hne outlines

namespace Registry

variable {fuel : Nat} {r r₁ r' : Registry} {a : Accessor} {log : List Visit}
  {space : Nat} {name : String} {d : (Nat × String) × TypeExpr}
  {definitions : List ((Nat × String) × TypeExpr)}

/-- Names that are declared and wait for their definitions, each for one. -/
structure Awaits (r : Registry) (definitions : List ((Nat × String) × TypeExpr)) : Prop where
  pending : ∀ d ∈ definitions, r.definition? (r.accessor d.1.1 d.1.2) = some .pending
  nodup : (definitions.map Prod.fst).Nodup

/-- Binding a name adds its definition to an outline, and counts it. -/
theorem outlines_bound {source : TypeExpr} :
    (((r.put space name (Alias.ofSource (r.config space) source)).count space .bindings).note
      space (bindingEvent source) [("alias", name)]).outlines =
      defineIn r.outlines ((space, name), source) := by
  rw [outlines, perSpace_note]
  refine List.ext_getElem? fun other => ?_
  rw [getElem?_perSpace, count, space?_modifySpace, put, setSlots, space?_modifySpace, defineIn,
    List.getElem?_modify, outlines, getElem?_perSpace]
  split
  · next heq =>
    subst heq
    cases hn : r.space? space with
    | none => rfl
    | some n =>
      have hslots : (n.slots.entries.map fun e => (e.1, e.2.outline)).lookup name =
          (r.slots? space name).map Slots.outline := by
        rw [slots?, hn]
        exact Entries.lookup_map _ _ _
      simp [Namespace.outline, Outline.define, Metrics.get_increment, Table.insert,
        Entries.map_insert, Slots.outline_put, hslots, Alias.definition_ofSource]
  · simp

/-! ## Binding between accesses -/

/-- Names are bound in order, with accesses in between. -/
inductive BindsInOrder (fuel : Nat) :
    List ((Nat × String) × TypeExpr) → Registry → List Visit → Registry → Prop
  | done {r : Registry} : BindsInOrder fuel [] r [] r
  | bound {space : Nat} {name : String} {source : TypeExpr}
    {definitions : List ((Nat × String) × TypeExpr)}
    {r r₁ r' : Registry} {log : List Visit} {outcome : Except AliasError Accessor}
    (binds : Binds space name source r outcome r₁)
    (rest : BindsInOrder fuel definitions r₁ log r') :
    BindsInOrder fuel (((space, name), source) :: definitions) r log r'
  | accessed {a : Accessor} {demand : Demand} {arguments : List TypeExpr}
    {definitions : List ((Nat × String) × TypeExpr)} {r r₁ r' : Registry} {log log' : List Visit}
    {answer : Except AliasError (Normalized Generator)}
    (accesses : (world fuel).accesses a demand arguments r log answer r₁)
    (rest : BindsInOrder fuel definitions r₁ log' r') :
    BindsInOrder fuel definitions r (log ++ log') r'

/-- Sessions that do nothing but bind names and use accessors. -/
theorem History.bindsInOrder {ops : List Operation}
    {steps : List (Except AliasError Outcome × Registry)} (h : History fuel ops r log steps)
    (hops : ∀ op ∈ ops, op.binding? = none → ∃ kind a arguments, op = .use kind a arguments) :
    BindsInOrder fuel (ops.filterMap Operation.binding?) r log (r.after steps) := by
  induction h with
  | nil => exact .done
  | @cons op ops r r' log log' outcome rest first _ ih =>
    obtain ⟨hop, hops⟩ := List.forall_mem_cons.1 hops
    have hrest := ih hops
    cases hbinding : op.binding? with
    | none =>
      obtain ⟨kind, a, arguments, rfl⟩ := hop hbinding
      rw [List.filterMap_cons_none hbinding]
      cases first with
      | direct isDirect => cases isDirect
      | use accesses => exact .accessed accesses hrest
    | some d =>
      rw [List.filterMap_cons_some hbinding]
      cases op with
      | bind space name source =>
        obtain rfl := Option.some.inj hbinding
        cases first with
        | direct _ performed =>
          obtain ⟨_, hbound, -⟩ := Action.map_cases performed
          exact .bound (binds_of hbound) hrest
      | _ => cases hbinding

/-- Names that wait for their definitions are bound, and the others wait on. -/
theorem Awaits.bound {outcome : Except AliasError Accessor} {source : TypeExpr}
    (hr : r.Awaits (((space, name), source) :: definitions))
    (h : Binds space name source r outcome r₁) :
    r₁.outlines = defineIn r.outlines ((space, name), source) ∧ r₁.Awaits definitions := by
  obtain ⟨hpending, hothers⟩ := List.forall_mem_cons.1 hr.pending
  obtain ⟨hfirst, hnodup⟩ := List.nodup_cons.1 hr.nodup
  -- a name that waits is not refused, and a bound name is none of the others
  refine ⟨?_, fun d hd => ?_, hnodup⟩
  · cases h with
    | bound => exact outlines_bound
    | @rejected entry isEntry isDefined =>
      rw [definition?, isEntry] at hpending
      cases entry with
      | pending => exact absurd rfl isDefined
      | plain | function => cases hpending
  · have hne : d.1 ≠ (space, name) := fun heq => hfirst (List.mem_map.2 ⟨d, hd, heq⟩)
    rw [h.accessor_eq]
    obtain hsame | ⟨heq, -⟩ := h.alias?_cases (r.accessor d.1.1 d.1.2)
    · rw [definition?, hsame]
      exact hothers d hd
    · have hkey := congrArg (fun a : Accessor => (a.space, a.name)) heq
      simp only [space_accessor, name_accessor] at hkey
      exact absurd hkey hne

theorem Awaits.of_outlines (hr : r.Awaits definitions) (h : r₁.outlines = r.outlines) :
    r₁.Awaits definitions :=
  ⟨fun d hd => by rw [accessor_of_outlines h, definition?_of_outlines h, hr.pending d hd], hr.nodup⟩

namespace BindsInOrder

/-- **What the namespaces look like in the end shows the definitions only**, and neither the
accesses nor what came of them. -/
theorem outlines_eq (h : BindsInOrder fuel definitions r log r') (hr : r.Awaits definitions) :
    r'.outlines = definitions.foldl defineIn r.outlines := by
  induction h with
  | done => rfl
  | bound binds _ ih =>
    obtain ⟨houtlines, hawaits⟩ := hr.bound binds
    rw [ih hawaits, houtlines, List.foldl_cons]
  | accessed accesses _ ih =>
    have houtlines := (keeps_outlines fuel).accesses accesses
    rw [ih (hr.of_outlines houtlines), houtlines]

end BindsInOrder

section Binding

variable {outcome : Except AliasError Accessor} {source : TypeExpr}

/-- Giving a definition to a name that has none leaves what is kept and remembered right. -/
theorem Binds.sound {K : Ty → Prop} (hr : Sound K r.definition? r)
    (h : Binds space name source r outcome r₁) : Sound K r₁.definition? r₁ := by
  cases h with
  | bound undefined =>
    exact (hr.define undefined (Alias.isFresh_ofSource ..)).same fun b => by
      rw [alias?_note, alias?_count]
  | rejected => exact hr.same fun b => alias?_noteFailure ..

theorem Binds.definitions_alike
    (hr : ∀ a, Option.Rel Definition.Alike (r.definition? a) (r.definition? a))
    (hsource : source.Alike source) (h : Binds space name source r outcome r₁) :
    ∀ a, Option.Rel Definition.Alike (r₁.definition? a) (r₁.definition? a) := by
  intro b
  obtain hsame | ⟨-, -, -, hbound⟩ := h.alias?_cases b
  · rw [definition?, hsame]
    exact hr b
  · rw [definition?, hbound]
    exact .some (Alias.alike_ofSource hsource ..)

end Binding

namespace BindsInOrder

/-- **Nothing wrong is left behind**: whatever was accessed early, and failed, all that is kept and
remembered in the end is what the definitions mean. -/
theorem sound {K : Ty → Prop} (hK : ToldApart K) (h : BindsInOrder fuel definitions r log r')
    (hr : Sound K r.definition? r) (hlog : Regular K log) : Sound K r'.definition? r' := by
  induction h with
  | done => exact hr
  | bound binds _ ih => exact ih (binds.sound hr) hlog
  | accessed accesses _ ih =>
    obtain ⟨hfirst, hrest⟩ := hlog.of_append
    -- the access is adequate to the definitions of its time, and later ones add to these
    obtain ⟨_, _, -, hmirrors⟩ := (adequate_world hK _ fuel).accesses hr hfirst accesses
    exact ih hmirrors.sound.self hrest

theorem definitions_alike (h : BindsInOrder fuel definitions r log r')
    (hr : ∀ a, Option.Rel Definition.Alike (r.definition? a) (r.definition? a))
    (hdefinitions : ∀ d ∈ definitions, d.2.Alike d.2) :
    ∀ a, Option.Rel Definition.Alike (r'.definition? a) (r'.definition? a) := by
  induction h with
  | done => exact hr
  | bound binds _ ih =>
    obtain ⟨hsource, hothers⟩ := List.forall_mem_cons.1 hdefinitions
    exact ih (binds.definitions_alike hr hsource) hothers
  | accessed accesses _ ih =>
    refine ih (fun a => ?_) hdefinitions
    rw [definition?_of_outlines ((keeps_outlines fuel).accesses accesses)]
    exact hr a

end BindsInOrder

/-! ## Before the first name is bound -/

/-- No name has a definition yet. -/
def Unbound (r : Registry) : Prop := ∀ a entry, r.alias? a = some entry → entry = .pending

theorem Unbound.over (h : r.Unbound) (K : Ty → Prop) : r.Over K := by
  intro a entry hentry
  obtain rfl := h a entry hentry
  exact .pending

namespace Unbound

theorem strict (h : r.Unbound) : r.Strict := by
  intro a entry hentry
  obtain rfl := h a entry hentry
  exact .pending

theorem sound (h : r.Unbound) (K : Ty → Prop) : Sound K r.definition? r where
  definition?_eq := rfl
  kept hentry := by cases h _ _ hentry
  remembered hentry := by cases h _ _ hentry

theorem definitions_alike (h : r.Unbound) (a : Accessor) :
    Option.Rel Definition.Alike (r.definition? a) (r.definition? a) := by
  rw [definition?]
  cases hentry : r.alias? a with
  | none => exact .none
  | some entry =>
    obtain rfl := h a entry hentry
    exact .some .pending

/-- Until a name is bound, none has a definition. -/
theorem performs (hr : r.Unbound) {op : Operation} {outcome : Except AliasError Outcome}
    (h : Performs fuel r op log outcome r') (hop : op.defines? = none) : r'.Unbound := by
  intro a entry hentry
  have hdefinition {d : Definition} (hd : r.definition? a = some d) : d = .pending := by
    obtain ⟨old, hold, rfl⟩ := Option.map_eq_some_iff.1 hd
    obtain rfl := hr a old hold
    rfl
  -- of the four things that a deed can do to the alias, binding is excluded
  cases h.affects a with
  | advances advances =>
    have hpending := hdefinition (d := entry.definition) (by
      rw [← advances.definition?_eq, definition?, hentry]
      rfl)
    cases entry with
    | pending => rfl
    | plain | function => cases hpending
  | declared _ _ _ hpending => exact Option.some.inj (hentry.symm.trans hpending)
  | bound op_eq => rw [op_eq] at hop; cases hop
  | boundLiteral op_eq => rw [op_eq] at hop; cases hop

end Unbound

/-- Sessions in which names are declared, but not bound. -/
theorem History.unbound {ops : List Operation}
    {steps : List (Except AliasError Outcome × Registry)} (h : History fuel ops r log steps)
    (hr : r.Unbound) (hops : ∀ op ∈ ops, op.defines? = none) : (r.after steps).Unbound := by
  induction h with
  | nil => exact hr
  | cons first _ ih =>
    obtain ⟨hop, hops⟩ := List.forall_mem_cons.1 hops
    exact ih (hr.performs first hop) hops

/-! ## After the last name has been bound -/

/-- Registries with the definitions `D`, all of them strict, that keep and remember what these
mean. -/
structure Settled (D : Definitions) (r : Registry) : Prop where
  fit : Fit D r
  strict : r.Strict

/-- Sessions that bind names and use accessors settle, whatever the accesses come to. -/
theorem History.settled {ops : List Operation}
    {steps : List (Except AliasError Outcome × Registry)} (h : History fuel ops r log steps)
    (hbinds : BindsInOrder fuel definitions r log (r.after steps)) (hr : r.Unbound)
    (hstrict : ∀ op ∈ ops, op.Strict)
    (hover : ∀ op ∈ ops, (r.after steps).Lasting fun K => op.Over K) :
    Settled (r.after steps).definition? (r.after steps) := by
  obtain ⟨hstrict', -, hpasses⟩ := h.strict hr.strict hstrict
  have hyields (K : Ty → Prop) (hle : (r.after steps).Made ≤ K) :=
    h.yields (hr.over K) (fun op hop => hover op hop K hle) hle
  have hregular : Regular (r.after steps).Made log :=
    regular_of_over hpasses (hyields _ le_rfl).2
  exact ⟨⟨hbinds.sound (toldApart_made _) (hr.sound _) hregular, fun K hle => (hyields K hle).1⟩,
    hstrict'⟩

namespace Settled

variable {D : Definitions} {demand : Demand} {es es₁ es₂ : List TypeExpr} {r₂ r₁' r₂' : Registry}
  {answer answer₁ answer₂ : Except AliasError (Normalized Generator)} {fuel₁ fuel₂ : Nat}

/-- Every outcome of an access is what the definitions mean. -/
theorem exists_meaning (hr : Settled D r)
    (hes : r.Lasting fun K => ∀ e ∈ es, TypeExpr.Over K e)
    (h : access fuel a demand es r = some (answer, r')) :
    ∃ n marks, (meaning D n).accesses a demand es () marks answer () := by
  obtain ⟨log, haccess⟩ := exists_accesses h
  exact (hr.fit.accesses hes ((disciplined_world fuel).accesses hr.strict haccess).passesOn
    haccess).meant

/-- An access has alike outcomes wherever it has any. -/
theorem alike (hD : ∀ a, Option.Rel Definition.Alike (D a) (D a)) (hr₁ : Settled D r₁)
    (hr₂ : Settled D r₂) (hes : List.Forall₂ TypeExpr.Alike es₁ es₂)
    (hes₁ : r₁.Lasting fun K => ∀ e ∈ es₁, TypeExpr.Over K e)
    (hes₂ : r₂.Lasting fun K => ∀ e ∈ es₂, TypeExpr.Over K e)
    (h₁ : access fuel₁ a demand es₁ r₁ = some (answer₁, r₁'))
    (h₂ : access fuel₂ a demand es₂ r₂ = some (answer₂, r₂')) : Answer.Alike answer₁ answer₂ := by
  obtain ⟨n, marks, hmeant⟩ := hr₁.exists_meaning hes₁ h₁
  obtain ⟨m, marks', hmeant'⟩ := hr₂.exists_meaning hes₂ h₂
  exact ((lockstep_meaning hD n m).accesses trivial hes hmeant hmeant' trivial).1

/-- An access that comes to an end from one registry does so from the other one. -/
theorem completes (hD : ∀ a, Option.Rel Definition.Alike (D a) (D a)) (hr₁ : Settled D r₁)
    (hr₂ : Settled D r₂) (hes : List.Forall₂ TypeExpr.Alike es₁ es₂)
    (hes₁ : r₁.Lasting fun K => ∀ e ∈ es₁, TypeExpr.Over K e)
    (hes₂ : r₂.Lasting fun K => ∀ e ∈ es₂, TypeExpr.Over K e)
    (h₁ : access fuel₁ a demand es₁ r₁ = some (answer₁, r₁')) :
    ∃ needed, ∀ fuel₂, needed ≤ fuel₂ →
      ∃ answer₂ r₂', access fuel₂ a demand es₂ r₂ = some (answer₂, r₂') := by
  -- the fuel of the meaning is enough, also if the program has needed more or less of it
  obtain ⟨n, marks, hmeant⟩ := hr₁.exists_meaning hes₁ h₁
  refine ⟨n, fun fuel₂ hle => ?_⟩
  obtain ⟨log, answer₂, r₂', haccesses, -, -⟩ :=
    (attains hD n hle).accesses hr₂.fit hes hes₂ (.inr hr₂.strict) hmeant
  exact ⟨answer₂, r₂', access_of_accesses haccesses⟩

end Settled

/-! ## What users can see -/

/-- A function that stands in for functions that are never run. -/
def idle : Generator := .mk [] fun _ => .fail .misplacedFunction

/-- Registries that users cannot tell apart by what is declared and bound, nor by what any use of an
accessor comes to. -/
structure Interchangeable (r₁ r₂ : Registry) : Prop where
  /-- The same names are declared. -/
  names_eq : ∀ space, r₁.names space = r₂.names space
  /-- As many names were declared ahead, and as many bound. -/
  counted_eq : ∀ space counter, counter = .forwardDeclarations ∨ counter = .bindings →
    r₁.counted space counter = r₂.counted space counter
  /-- An accessor that is used with the same arguments, up to the identities of types and whatever
  functions there are among them, comes to the same error, or to an alike type or function; and if
  the use comes to an end in one registry, then it does so in the other one. -/
  uses : ∀ {kind : AccessKind} {a : Accessor} {arguments₁ arguments₂ : List TypeExpr},
    List.Forall₂ (Expr.Alike fun _ _ => True) arguments₁ arguments₂ →
    (r₁.Lasting fun K => ∀ e ∈ arguments₁, Expr.Over K (fun _ => True) e) →
    (r₂.Lasting fun K => ∀ e ∈ arguments₂, Expr.Over K (fun _ => True) e) →
    ∀ {fuel₁ answer₁ r₁'}, a.use fuel₁ kind arguments₁ r₁ = some (answer₁, r₁') →
      (∀ {fuel₂ answer₂ r₂'}, a.use fuel₂ kind arguments₂ r₂ = some (answer₂, r₂') →
        Answer.Alike answer₁ answer₂) ∧
      ∃ needed, ∀ fuel₂, needed ≤ fuel₂ →
        ∃ answer₂ r₂', a.use fuel₂ kind arguments₂ r₂ = some (answer₂, r₂')

/-- Settled registries with the same outlines cannot be told apart. -/
theorem Settled.interchangeable {D : Definitions} {r₂ : Registry}
    (hD : ∀ a, Option.Rel Definition.Alike (D a) (D a)) (hr₁ : Settled D r₁) (hr₂ : Settled D r₂)
    (houtlines : r₁.outlines = r₂.outlines) : Interchangeable r₁ r₂ where
  names_eq := names_of_outlines houtlines
  counted_eq space _ hcounter := counted_of_outlines houtlines space hcounter
  uses {kind a arguments₁ arguments₂} halike hover₁ hover₂ {fuel₁ answer₁ r₁'} huse₁ := by
    -- functions among the arguments are exchanged for one that is alike to itself
    have hidle : idle.Alike idle := .mk .nil fun _ _ _ => .fail
    have hgiven := AccessKind.alike_given halike kind
    have hes : List.Forall₂ TypeExpr.Alike ((kind.given arguments₁).map (Expr.map fun _ => idle))
        ((kind.given arguments₂).map (Expr.map fun _ => idle)) := by
      rw [List.forall₂_map_left_iff, List.forall₂_map_right_iff]
      exact hgiven.imp fun _ _ h => h.map fun _ _ _ => hidle
    have hover {r : Registry} {arguments : List TypeExpr}
        (h : r.Lasting fun K => ∀ e ∈ arguments, Expr.Over K (fun _ => True) e) :
        r.Lasting fun K => ∀ e ∈ (kind.given arguments).map (Expr.map fun _ => idle),
          TypeExpr.Over K e := by
      refine h.imp fun K h => List.forall_mem_map.2 fun e he => ?_
      exact (AccessKind.over_given h kind e he).map fun _ _ => .mk (List.forall_mem_nil _)
        fun _ _ => .fail
    have haccess₁ := Accessor.access_of_use huse₁
    rw [← access_map fun _ => idle] at haccess₁
    refine ⟨fun {fuel₂ answer₂ r₂'} huse₂ => ?_, ?_⟩
    · have haccess₂ := Accessor.access_of_use huse₂
      rw [← access_map fun _ => idle] at haccess₂
      exact hr₁.alike hD hr₂ hes (hover hover₁) (hover hover₂) haccess₁ haccess₂
    · obtain ⟨needed, hneeded⟩ :=
        hr₁.completes hD hr₂ hes (hover hover₁) (hover hover₂) haccess₁
      refine ⟨needed, fun fuel₂ hle => ?_⟩
      obtain ⟨answer₂, r₂', haccess₂⟩ := hneeded fuel₂ hle
      rw [access_map] at haccess₂
      exact ⟨answer₂, r₂', Accessor.use_of_access haccess₂⟩

end Registry

/-! ## Orders of definitions -/

/-- Operations that bind the names of `definitions`, in some order, and use accessors before,
between and after that. -/
structure Interleaves (definitions : List ((Nat × String) × TypeExpr)) (ops : List Operation) :
    Prop where
  perm : (ops.filterMap Operation.binding?).Perm definitions
  uses : ∀ op ∈ ops, op.binding? = none → ∃ kind a arguments, op = .use kind a arguments

namespace Interleaves

open Registry

variable {definitions : List ((Nat × String) × TypeExpr)} {ops : List Operation} {fuel : Nat}
  {r : Registry} {log : List Visit} {steps : List (Except AliasError Outcome × Registry)}

/-- Where all definitions are strict, users bring strict functions only. -/
theorem strict (hops : Interleaves definitions ops) (hstrict : ∀ d ∈ definitions, d.2.Strict) :
    ∀ op ∈ ops, op.Strict := by
  intro op hop
  cases hbinding : op.binding? with
  | none =>
    obtain ⟨kind, a, arguments, rfl⟩ := hops.uses op hop hbinding
    trivial
  | some d =>
    have hd := hstrict d (hops.perm.mem_iff.1 (List.mem_filterMap.2 ⟨op, hop, hbinding⟩))
    cases op with
    | bind space name source =>
      obtain rfl := Option.some.inj hbinding
      exact hd
    | _ => cases hbinding

/-- In the end the definitions are bound, in whatever order, and nothing wrong is left behind. -/
theorem settled (hops : Interleaves definitions ops) (hr : r.Unbound)
    (hawaits : r.Awaits definitions) (hstructure : ∀ d ∈ definitions, d.2.Alike d.2)
    (hstrict : ∀ d ∈ definitions, d.2.Strict) (hrun : performAll fuel ops r = some steps)
    (hover : ∀ op ∈ ops, (r.after steps).Lasting fun K => op.Over K) :
    Settled (r.after steps).definition? (r.after steps) ∧
      (r.after steps).outlines = definitions.foldl defineIn r.outlines ∧
      ∀ a, Option.Rel Definition.Alike ((r.after steps).definition? a)
        ((r.after steps).definition? a) := by
  obtain ⟨log, hlog⟩ := exists_history hrun
  have hbinds := hlog.bindsInOrder hops.uses
  have hmem {d : (Nat × String) × TypeExpr} (hd : d ∈ ops.filterMap Operation.binding?) :
      d ∈ definitions := hops.perm.mem_iff.1 hd
  have hawaits' : r.Awaits (ops.filterMap Operation.binding?) :=
    ⟨fun d hd => hawaits.pending d (hmem hd), (hops.perm.map Prod.fst).nodup_iff.2 hawaits.nodup⟩
  refine ⟨hlog.settled hbinds hr (hops.strict hstrict) hover, ?_,
    hbinds.definitions_alike hr.definitions_alike fun d hd => hstructure d (hmem hd)⟩
  rw [hbinds.outlines_eq hawaits', foldl_defineIn_of_perm hops.perm hawaits'.nodup]

end Interleaves

/-- **Neither the order of definitions nor the history of accesses matters.** Let names be declared
and not yet bound, and let one definition be fixed for each of some of them; the type functions
among these do what is determined by the structure of their arguments and the answers to their
accesses, and pass on failures. In two runs let these names be bound in any two orders, and
accessors be used in any way before, between and after that, with types that have been made. Then
users cannot tell the two registries apart: names and counters of declarations agree, and whatever
use of an accessor comes to an end does so in both, with the same error or with alike results. -/
theorem definition_order_immaterial {r₀ : Registry} {definitions : List ((Nat × String) × TypeExpr)}
    (hunbound : r₀.Unbound) (hawaits : r₀.Awaits definitions)
    (hstructure : ∀ d ∈ definitions, d.2.Alike d.2) (hstrict : ∀ d ∈ definitions, d.2.Strict)
    {ops₁ ops₂ : List Operation} (hops₁ : Interleaves definitions ops₁)
    (hops₂ : Interleaves definitions ops₂) {fuel₁ fuel₂ : Nat}
    {steps₁ steps₂ : List (Except AliasError Outcome × Registry)}
    (hrun₁ : Registry.performAll fuel₁ ops₁ r₀ = some steps₁)
    (hrun₂ : Registry.performAll fuel₂ ops₂ r₀ = some steps₂)
    (hover₁ : ∀ op ∈ ops₁, (r₀.after steps₁).Lasting fun K => op.Over K)
    (hover₂ : ∀ op ∈ ops₂, (r₀.after steps₂).Lasting fun K => op.Over K) :
    Registry.Interchangeable (r₀.after steps₁) (r₀.after steps₂) := by
  obtain ⟨hsettled₁, houtlines₁, hD⟩ :=
    hops₁.settled hunbound hawaits hstructure hstrict hrun₁ hover₁
  obtain ⟨hsettled₂, houtlines₂, -⟩ :=
    hops₂.settled hunbound hawaits hstructure hstrict hrun₂ hover₂
  -- both registries have the same definitions, so both are settled with regard to these
  have houtlines : (r₀.after steps₁).outlines = (r₀.after steps₂).outlines :=
    houtlines₁.trans houtlines₂.symm
  have hdefinitions : (r₀.after steps₂).definition? = (r₀.after steps₁).definition? :=
    funext (Registry.definition?_of_outlines houtlines.symm)
  exact hsettled₁.interchangeable hD (hdefinitions ▸ hsettled₂) houtlines

/-- A function that puts the type of an alias before its parameters. -/
def Generator.rowOf (a : Accessor) : Generator :=
  .mk [] fun types => .access a .type [] fun
    | .error error => .fail error
    | .ok (.type t) => .finish (.sequence (.leaf t :: types.map .leaf))
    | .ok (.function _) => .fail .misplacedFunction

namespace Generator

theorem rowOf_alike (a : Accessor) : (rowOf a).Alike (rowOf a) := by
  refine .mk .nil fun ts us h => .access .nil fun answer answer' hanswer => ?_
  cases hanswer with
  | error => exact .fail
  | ok related =>
    cases related with
    | type alike =>
      exact .finish (.sequence (.cons (.leaf alike) (Expr.alike_leaves h)))
    | function => exact .fail

theorem rowOf_strict (a : Accessor) : (rowOf a).Strict := by
  refine .mk (List.forall_mem_nil _) fun types => .access (fun x => ?_) fun _ => rfl
  cases x with
  | type => exact .finish
  | function => exact .fail

theorem rowOf_over (K : Ty → Prop) (a : Accessor) : (rowOf a).Over K := by
  refine .mk (List.forall_mem_nil _) fun ts hts => .access (List.forall_mem_nil _)
    fun answer hanswer => ?_
  rcases answer with error | t | f
  · exact .fail
  · refine .finish (.sequence (List.forall_mem_cons.2 ⟨?_, Expr.over_leaves hts⟩))
    cases hanswer _ rfl with
    | type known => exact .leaf known
  · exact .fail

end Generator

/-- A function refers to a name that is bound after it in one run, and before it in the other one;
both are used too early, and with success in the end. -/
theorem row_defined_in_any_order :
    let int : Ty := ⟨0, .primitive .int⟩
    let id : Accessor := ⟨0, "Id", 0⟩
    let row : Accessor := ⟨0, "Row", 0⟩
    let setup : List Operation :=
      [.newType int.validator, .addSpace "main" { memoize := true }, .declareForward 0 "Id",
        .declareForward 0 "Row"]
    let forward : List Operation :=
      [.use .get id [], .bind 0 "Id" (.leaf int), .use .get id [], .use .apply row [.leaf int],
        .bind 0 "Row" (.generator (.rowOf id))]
    let backward : List Operation :=
      [.bind 0 "Row" (.generator (.rowOf id)), .use .apply row [.leaf int],
        .bind 0 "Id" (.leaf int), .use .apply row [.leaf int]]
    ∃ steps₀ steps₁ steps₂, Registry.performAll 2 setup {} = some steps₀ ∧
      Registry.performAll 2 forward (Registry.after {} steps₀) = some steps₁ ∧
      Registry.performAll 2 backward (Registry.after {} steps₀) = some steps₂ ∧
      steps₁.map (fun step => step.1.isOk) = [false, true, true, false, true] ∧
      steps₂.map (fun step => step.1.isOk) = [true, false, true, true] ∧
      Registry.Interchangeable ((Registry.after {} steps₀).after steps₁)
        ((Registry.after {} steps₀).after steps₂) := by
  intro int id row setup forward backward
  obtain ⟨steps₀, hrun₀, hcheck⟩ : ∃ steps, Registry.performAll 2 setup {} = some steps ∧
      (((Registry.after {} steps).accessor? 0 "Id", (Registry.after {} steps).accessor? 0 "Row"),
        (Registry.performAll 2 forward (Registry.after {} steps)).map
          fun steps => steps.map fun step => step.1.isOk,
        (Registry.performAll 2 backward (Registry.after {} steps)).map
          fun steps => steps.map fun step => step.1.isOk) =
        ((some id, some row), some [false, true, true, false, true],
          some [true, false, true, true]) :=
    Option.map_eq_some_iff.1 (by decide +kernel)
  simp only [Prod.mk.injEq] at hcheck
  obtain ⟨⟨hid, hrow⟩, hforward, hbackward⟩ := hcheck
  obtain ⟨steps₁, hrun₁, houtcomes₁⟩ := Option.map_eq_some_iff.1 hforward
  obtain ⟨steps₂, hrun₂, houtcomes₂⟩ := Option.map_eq_some_iff.1 hbackward
  refine ⟨steps₀, steps₁, steps₂, hrun₀, hrun₁, hrun₂, houtcomes₁, houtcomes₂, ?_⟩
  obtain ⟨log₀, hlog₀⟩ := Registry.exists_history hrun₀
  -- after the set-up both names wait for their definitions
  have hunbound : (Registry.after {} steps₀).Unbound :=
    hlog₀.unbound (fun a entry hentry => by cases hentry) (by simp [setup, Operation.defines?])
  have hpending {name : String} {a : Accessor}
      (ha : (Registry.after {} steps₀).accessor? 0 name = some a) :
      (Registry.after {} steps₀).definition? ((Registry.after {} steps₀).accessor 0 name) =
        some .pending := by
    rw [Registry.accessor?_eq_map] at ha
    obtain ⟨entry, hentry, -⟩ := Option.map_eq_some_iff.1 ha
    rw [Registry.definition?, hentry, hunbound _ entry hentry]
    rfl
  have hawaits : (Registry.after {} steps₀).Awaits
      [((0, "Id"), .leaf int), ((0, "Row"), .generator (.rowOf id))] := by
    refine ⟨?_, by decide⟩
    exact List.forall_mem_cons.2 ⟨hpending hid, List.forall_mem_singleton.2 (hpending hrow)⟩
  -- the one type that users have was made in the set-up
  have hint : (Registry.after {} steps₀).Made int := hlog₀.made_newType
  have hknown {ops : List Operation} {steps : List (Except AliasError Outcome × Registry)}
      (hrun : Registry.performAll 2 ops (Registry.after {} steps₀) = some steps) {K : Ty → Prop}
      (hK : ((Registry.after {} steps₀).after steps).Made ≤ K) : TypeExpr.Over K (.leaf int) := by
    obtain ⟨log, hlog⟩ := Registry.exists_history hrun
    exact .leaf (hK int (hlog.made_le int hint))
  have hops₁ : Interleaves [((0, "Id"), .leaf int), ((0, "Row"), .generator (.rowOf id))] forward :=
    ⟨.refl _, by simp [forward, Operation.binding?]⟩
  have hops₂ : Interleaves [((0, "Id"), .leaf int), ((0, "Row"), .generator (.rowOf id))] backward :=
    ⟨.swap _ _ _, by simp [backward, Operation.binding?]⟩
  refine definition_order_immaterial hunbound hawaits ?_ ?_ hops₁ hops₂ hrun₁ hrun₂ ?_ ?_
  · exact List.forall_mem_cons.2 ⟨.leaf (Validator.Alike.refl _),
      List.forall_mem_singleton.2 (.generator (Generator.rowOf_alike id))⟩
  · refine List.forall_mem_cons.2 ⟨fun f hf => ?_,
      List.forall_mem_singleton.2 (TypeExpr.strict_generator (Generator.rowOf_strict id))⟩
    cases hf
  · intro op hop K hK
    simp only [forward, List.mem_cons, List.not_mem_nil, or_false] at hop
    rcases hop with rfl | rfl | rfl | rfl | rfl
    · exact List.forall_mem_nil _
    · exact hknown hrun₁ hK
    · exact List.forall_mem_nil _
    · exact List.forall_mem_singleton.2 (hknown hrun₁ hK)
    · exact .generator (Generator.rowOf_over K id)
  · intro op hop K hK
    simp only [backward, List.mem_cons, List.not_mem_nil, or_false] at hop
    rcases hop with rfl | rfl | rfl | rfl
    · exact .generator (Generator.rowOf_over K id)
    · exact List.forall_mem_singleton.2 (hknown hrun₂ hK)
    · exact hknown hrun₂ hK
    · exact List.forall_mem_singleton.2 (hknown hrun₂ hK)

end NamedTypes
