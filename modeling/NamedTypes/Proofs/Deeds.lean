import NamedTypes.Proofs.PlainAlias

/-! # Deeds
A **deed** is an operation together with what came of it, and deeds in order lead from one registry
to another (`Registry.Leads`). Whatever a deed is, it can do only four things to an alias
(`Registry.Affects`): declare it ahead, bind it to an expression, bind it to a literal, or leave its
definition as it is. In the last case an access may resolve the alias, and nothing else changes
its state (`Registry.Advances`). -/

namespace NamedTypes

/-! ## Operations that concern a name -/

namespace Operation

/-- The namespace and the name that an operation gives a definition, if it succeeds. -/
def defines? : Operation → Option (Nat × String)
  | .bind space name _ | .bindLiteral space name _ _ => some (space, name)
  | _ => none

/-- The namespace and the name of which an operation hands out an accessor, if it succeeds. -/
def handsOut? : Operation → Option (Nat × String)
  | .declareForward space name | .bind space name _ | .bindLiteral space name _ _
  | .lookup space name => some (space, name)
  | _ => none

end Operation

/-- An operation and what came of it. -/
structure Deed where
  op : Operation
  outcome : Except AliasError Outcome

namespace Deed

/-- The deed declares a name, ahead of its definition or with it. -/
def Declares (space : Nat) (name : String) (d : Deed) : Prop :=
  d.op.declares? = some (space, name) ∧ ∃ x, d.outcome = .ok x

/-- The deed gives a name its definition. -/
def Defines (space : Nat) (name : String) (d : Deed) : Prop :=
  d.op.defines? = some (space, name) ∧ ∃ x, d.outcome = .ok x

end Deed

namespace Registry

/-- Deeds in order lead from one registry to another. -/
inductive Leads (r : Registry) : List Deed → Registry → Prop
  | start : Leads r [] r
  | next {done : List Deed} {fuel : Nat} {op : Operation} {outcome : Except AliasError Outcome}
    {r₁ r₂ : Registry} (before : Leads r done r₁)
    (performed : perform fuel op r₁ = some (outcome, r₂)) : Leads r (done ++ [⟨op, outcome⟩]) r₂

end Registry

/-! ## What accesses do to an alias -/

/-- What a plain alias keeps stays, or is what its first access made. -/
theorem Story.kept_cases {a : Accessor} {source : TypeExpr} {kept kept' : Option Ty}
    {vs : List Visit} (h : Story a source kept vs kept') :
    kept' = kept ∨ kept = none ∧ ∃ t, kept' = some t ∧ source.validator = .ok t.validator ∧
      ∃ v ∈ vs, v.IsFirst a t := by
  induction h with
  | done => exact .inl rfl
  | @first t v _ _ compiled _ isFirst _ ih =>
    obtain rfl | ⟨⟨⟩, -⟩ := ih
    exact .inr ⟨rfl, t, rfl, compiled, v, List.mem_cons_self, isFirst⟩
  | hit _ _ ih =>
    obtain rfl | ⟨⟨⟩, -⟩ := ih
    exact .inl rfl
  | failure _ _ _ ih =>
    obtain rfl | ⟨-, t, ht, hsource, v, hv, hfirst⟩ := ih
    · exact .inl rfl
    · exact .inr ⟨rfl, t, ht, hsource, v, List.mem_cons_of_mem _ hv, hfirst⟩

/-- The definition that an expression is. -/
def Definition.ofSource : TypeExpr → Definition
  | .generator f => .function f
  | source => .plain source

theorem Alias.definition_ofSource (config : Config) (source : TypeExpr) :
    (ofSource config source).definition = .ofSource source := by
  cases source <;> rfl

/-- Anything but a type function is bound as a plain alias. -/
theorem Alias.ofSource_of_ne_generator {source : TypeExpr} (h : ∀ f, source ≠ .generator f)
    (config : Config) : Alias.ofSource config source = .plain source none := by
  cases source with
  | generator f => exact absurd rfl (h f)
  | _ => rfl

namespace Registry

variable {fuel : Nat} {r r₁ r' : Registry} {a : Accessor} {log : List Visit}

/-- Names without a definition are the unresolved ones. -/
theorem state_eq_unresolved_iff :
    r.state a = .unresolved ↔ ∀ entry, r.alias? a = some entry → ¬ entry.IsDefined := by
  rw [state]
  cases r.alias? a with
  | none => simp
  | some entry => rcases entry with _ | ⟨_, _ | _⟩ | _ <;> simp [Alias.state, Alias.IsDefined]

/-- An alias keeps its definition, and its state unless an access in the log resolves it. The type
that it keeps then is one that its source describes. -/
structure Advances (a : Accessor) (r : Registry) (log : List Visit) (r' : Registry) : Prop where
  definition?_eq : r'.definition? a = r.definition? a
  state_cases : r'.state a = r.state a ∨ r.state a = .bound ∧ r'.state a = .resolved ∧
    ∃ v ∈ log.filter (Visit.isBare a), ∃ t, v.IsFirst a t
  kept_cases : ∀ source t, r'.alias? a = some (.plain source (some t)) →
    r.alias? a = some (.plain source (some t)) ∨ source.validator = .ok t.validator

namespace Advances

theorem of_alias?_eq (h : r'.alias? a = r.alias? a) : Advances a r log r' where
  definition?_eq := by rw [definition?, definition?, h]
  state_cases := .inl (by rw [state, state, h])
  kept_cases _ _ hkept := .inl (h ▸ hkept)

/-- What follows may leave the alias as it is. -/
theorem congr (h : Advances a r log r₁) (heq : r'.alias? a = r₁.alias? a) :
    Advances a r log r' where
  definition?_eq := by rw [definition?, heq]; exact h.definition?_eq
  state_cases := by
    have hstate : r'.state a = r₁.state a := by rw [state, state, heq]
    rw [hstate]
    exact h.state_cases
  kept_cases source t hkept := h.kept_cases source t (heq ▸ hkept)

/-- Accesses leave definitions, and resolve no alias but those whose stories they tell. -/
theorem of_told (houtlines : r'.outlines = r.outlines) (htold : ∀ source, Told a source r log r') :
    Advances a r log r' := by
  have hdefinition := definition?_of_outlines houtlines a
  -- only an alias that is plain before and after can have changed
  have hsame (hne : ∀ source kept, r.alias? a ≠ some (.plain source kept)) :
      r'.state a = r.state a ∧ ∀ source t, r'.alias? a ≠ some (.plain source (some t)) := by
    rw [definition?, definition?] at hdefinition
    rw [state, state]
    cases hentry : r.alias? a with
    | none =>
      rw [hentry, Option.map_none, Option.map_eq_none_iff] at hdefinition
      simp [hdefinition]
    | some entry =>
      obtain ⟨entry', hentry', hdefinition⟩ :=
        Option.map_eq_some_iff.1 (hdefinition.trans (by rw [hentry]; rfl))
      rw [hentry']
      cases entry with
      | plain source kept => exact absurd hentry (hne source kept)
      | pending => cases entry' <;> simp_all [Alias.definition]
      | function => cases entry' <;> simp_all [Alias.definition, Alias.state]
  by_cases hplain : ∃ source kept, r.alias? a = some (.plain source kept)
  · obtain ⟨source, kept, hentry⟩ := hplain
    obtain ⟨kept', hkept', hstory⟩ := htold source kept hentry
    have hcases := hstory.kept_cases
    refine ⟨hdefinition, ?_, fun source' t hentry' => ?_⟩
    · rw [state_of_alias? hentry, state_of_alias? hkept']
      obtain rfl | ⟨rfl, t, rfl, -, v, hv, hfirst⟩ := hcases
      · exact .inl rfl
      · exact .inr ⟨rfl, rfl, v, hv, t, hfirst⟩
    · obtain ⟨rfl, rfl⟩ := Alias.plain.inj (Option.some.inj (hkept'.symm.trans hentry'))
      obtain rfl | ⟨rfl, t', ht', hsource, -⟩ := hcases
      · exact .inl hentry
      · rw [Option.some.inj ht']
        exact .inr hsource
  · obtain ⟨hstate, hnone⟩ := hsame fun source kept h => hplain ⟨source, kept, h⟩
    exact ⟨hdefinition, .inl hstate, fun source t h => absurd h (hnone source t)⟩

theorem of_reads {space : Nat} {prelude : Prelude} {literal : Json.Value}
    {outcome : Except AliasError TypeExpr}
    (h : Reads (world fuel) space prelude literal r log outcome r') : Advances a r log r' :=
  .of_told (h.keeps (keeps_outlines fuel)) fun source => h.keeps (keeps_told fuel a source)

end Advances

/-! ## What a deed does to an alias -/

/-- The four things that a deed can do to an alias. It declares or binds what a name stands for, in
the slot that the name has. -/
inductive Affects (a : Accessor) (fuel : Nat) (r : Registry) (op : Operation) (log : List Visit) :
    Except AliasError Outcome → Registry → Prop
  | advances {outcome : Except AliasError Outcome} {r' : Registry}
    (advances : Advances a r log r') : Affects a fuel r op log outcome r'
  | declared {r' : Registry} (op_eq : op = .declareForward a.space a.name)
    (isSlot : r.accessor a.space a.name = a) (noEntry : r.alias? a = none)
    (entry : r'.alias? a = some .pending) :
    Affects a fuel r op log (.ok (.accessor a)) r'
  | bound {source : TypeExpr} {r' : Registry} (op_eq : op = .bind a.space a.name source)
    (isSlot : r.accessor a.space a.name = a) (unresolved : r.state a = .unresolved)
    (entry : r'.alias? a = some (Alias.ofSource (r.config a.space) source)) :
    Affects a fuel r op log (.ok (.accessor a)) r'
  | boundLiteral {literal : Json.Value} {prelude : Prelude} {source : TypeExpr} {r₁ r' : Registry}
    (op_eq : op = .bindLiteral a.space a.name literal prelude)
    (isSlot : r.accessor a.space a.name = a) (unresolved : r.state a = .unresolved)
    (reads : Reads (world fuel) a.space prelude literal r log (.ok source) r₁)
    (entry : r'.alias? a = some (.plain source none)) :
    Affects a fuel r op log (.ok (.accessor a)) r'

/-- Declaring a name ahead affects that name only, and only if it is new. -/
theorem DeclaresForward.affects {space : Nat} {name : String}
    {outcome : Except AliasError Accessor} (h : DeclaresForward space name r outcome r')
    (a : Accessor) (fuel : Nat) :
    Affects a fuel r (.declareForward space name) [] (.accessor <$> outcome) r' := by
  cases h with
  | declared noEntry =>
    by_cases ha : a = r.accessor space name ∧ (r.space? space).isSome
    · obtain ⟨rfl, hspace⟩ := ha
      refine .declared (by simp) (by simp) noEntry ?_
      rw [alias?_note, alias?_count, alias?_put, if_pos ⟨rfl, hspace⟩]
    · refine .advances (.of_alias?_eq ?_)
      rw [alias?_note, alias?_count, alias?_put, if_neg ha]
  | pending => exact .advances (.of_alias?_eq rfl)
  | rejected => exact .advances (.of_alias?_eq (alias?_noteFailure ..))

/-- Binding a name leaves all slots but its own as they are, and gives that one a meaning if it
succeeds in a namespace. -/
theorem Binds.alias?_cases {space : Nat} {name : String} {source : TypeExpr}
    {outcome : Except AliasError Accessor} (h : Binds space name source r outcome r')
    (a : Accessor) :
    r'.alias? a = r.alias? a ∨ a = r.accessor space name ∧ outcome = .ok a ∧
      r.state a = .unresolved ∧
      r'.alias? a = some (Alias.ofSource (r.config space) source) := by
  cases h with
  | bound undefined =>
    rw [alias?_note, alias?_count, alias?_put]
    by_cases ha : a = r.accessor space name ∧ (r.space? space).isSome
    · obtain ⟨rfl, hspace⟩ := ha
      exact .inr ⟨rfl, rfl, state_eq_unresolved_iff.2 undefined, if_pos ⟨rfl, hspace⟩⟩
    · exact .inl (if_neg ha)
  | rejected => exact .inl (alias?_noteFailure ..)

/-- What is read from a literal is no type function. -/
theorem Reads.ne_generator {W : World Registry Visit} {space : Nat} {prelude : Prelude}
    {literal : Json.Value} {source : TypeExpr}
    (h : Reads W space prelude literal r log (.ok source) r') (f : Generator) :
    source ≠ .generator f := by
  rintro rfl
  generalize houtcome : Except.ok (Expr.generator f) = outcome at h
  cases h with
  -- a sequence or a record, if all of it was read
  | @array _ _ _ _ read => cases read <;> cases houtcome
  | @object _ _ _ _ read => cases read <;> cases houtcome
  | _ => cases houtcome

/-- What an operation does to an alias that accesses none. -/
theorem affects_of_direct {op : Operation} {outcome : Except AliasError Outcome}
    (isDirect : op.isDirect = true) (h : perform fuel op r = some (outcome, r')) (a : Accessor) :
    Affects a fuel r op [] outcome r' := by
  cases performsDirectly_of isDirect h with
  | addSpace => exact .advances (.of_alias?_eq (alias?_addSpace ..))
  | newType => exact .advances (.of_alias?_eq rfl)
  | normalize normalizes =>
    exact .advances (.of_alias?_eq (alias?_of_spaces (spaces_of_normalizes normalizes) a))
  | declareForward declares => exact declares.affects a fuel
  | @bind space name source _ _ binds =>
    obtain hsame | ⟨rfl, rfl, unresolved, entry⟩ := binds.alias?_cases a
    · exact .advances (.of_alias?_eq hsame)
    · have hop : Operation.bind space name source =
        .bind (r.accessor space name).space (r.accessor space name).name source := by simp
      exact .bound hop (by simp) unresolved (by simpa using entry)
  | lookup => exact .advances (.of_alias?_eq rfl)

/-- **A deed does one of four things to an alias.** -/
theorem Performs.affects {op : Operation} {outcome : Except AliasError Outcome}
    (h : Performs fuel r op log outcome r') (a : Accessor) :
    Affects a fuel r op log outcome r' := by
  cases h with
  | direct isDirect performed => exact affects_of_direct isDirect performed a
  | readLiteral reads => exact .advances (.of_reads reads)
  | @bindLiteral space name literal prelude _ _ _ r₁ _ reads binds =>
    have hread : Advances a r log r₁ := .of_reads reads
    obtain hsame | ⟨rfl, rfl, unresolved, entry⟩ := binds.alias?_cases a
    · exact .advances (hread.congr hsame)
    · have hop : Operation.bindLiteral space name literal prelude =
        .bindLiteral (r₁.accessor space name).space (r₁.accessor space name).name literal
          prelude := by simp
      have hslots := accessor_of_outlines (reads.keeps (keeps_outlines fuel))
      refine .boundLiteral hop (by simp [hslots]) ?_ (by simpa using reads)
        (entry.trans (congrArg some (Alias.ofSource_of_ne_generator reads.ne_generator _)))
      -- the accesses that the literal led to have defined nothing
      obtain hstate | ⟨hbound, hresolved, -⟩ := hread.state_cases
      · rw [← hstate, unresolved]
      · rw [unresolved] at hresolved
        cases hresolved
  | bindLiteralRejected reads =>
    exact .advances ((Advances.of_reads reads).congr (alias?_noteFailure ..))
  | bindLiteralFailed reads => exact .advances (.of_reads reads)
  | use accesses =>
    exact .advances (.of_told ((keeps_outlines fuel).accesses accesses)
      fun source => (keeps_told fuel a source).accesses accesses)
  | call calls =>
    exact .advances (.of_told ((keeps_outlines fuel).callsFunction calls)
      fun source => (keeps_told fuel a source).callsFunction calls)

/-- What has a definition keeps it. -/
theorem Performs.definition?_eq {op : Operation} {outcome : Except AliasError Outcome}
    (h : Performs fuel r op log outcome r') (hdefined : r.state a ≠ .unresolved) :
    r'.definition? a = r.definition? a := by
  cases h.affects a with
  | advances advances => exact advances.definition?_eq
  | declared _ _ noEntry =>
    rw [state, noEntry] at hdefined
    exact absurd rfl hdefined
  | bound _ _ unresolved => exact absurd unresolved hdefined
  | boundLiteral _ _ unresolved => exact absurd unresolved hdefined

/-! ## What a deed gives a name -/

/-- A name that was declared ahead has a slot, and the accessor of it is handed out. -/
theorem DeclaresForward.of_ok {space : Nat} {name : String}
    (h : DeclaresForward space name r (.ok a) r') (hspace : (r.space? space).isSome) :
    a = r.accessor space name ∧ (r'.alias? a).isSome := by
  cases h with
  | declared =>
    rw [alias?_note, alias?_count, alias?_put, if_pos ⟨rfl, hspace⟩]
    exact ⟨rfl, rfl⟩
  | pending entry => exact ⟨rfl, by rw [entry]; rfl⟩

/-- A name that was bound stands for its source, and the accessor of its slot is handed out. -/
theorem of_bind {space : Nat} {name : String} {source : TypeExpr} {x : Outcome}
    (h : perform fuel (.bind space name source) r = some (.ok x, r'))
    (hspace : (r.space? space).isSome) :
    x = .accessor (r.accessor space name) ∧
      r'.alias? (r.accessor space name) = some (Alias.ofSource (r.config space) source) := by
  obtain ⟨bound, hbound, houtcome⟩ := Action.map_cases h
  cases bound with
  | error error => cases houtcome
  | ok b =>
    obtain rfl := Except.ok.inj houtcome
    obtain ⟨rfl, hentry⟩ := (binds_of hbound).of_ok hspace
    exact ⟨rfl, hentry⟩

/-- A name that was bound to a literal stands for what the literal was read as. -/
theorem of_bindLiteral_ok {space : Nat} {name : String} {literal : Json.Value} {prelude : Prelude}
    {x : Outcome} (h : perform fuel (.bindLiteral space name literal prelude) r = some (.ok x, r'))
    (hspace : (r.space? space).isSome) :
    x = .accessor (r.accessor space name) ∧ ∃ source log r₁,
      Reads (world fuel) space prelude literal r log (.ok source) r₁ ∧
      r'.alias? (r.accessor space name) = some (.plain source none) := by
  obtain ⟨bound, hbound, houtcome⟩ := Action.map_cases h
  cases bound with
  | error error => cases houtcome
  | ok b =>
    obtain rfl := Except.ok.inj houtcome
    obtain ⟨source, r₁, hread, hbinds⟩ | ⟨_, _, -, herror, -⟩ := of_bindLiteral hbound
    · obtain ⟨log, reads⟩ := reads_of_read literal hread
      have houtlines := reads.keeps (keeps_outlines fuel)
      have hspace' : (r₁.space? space).isSome := by rwa [isSome_space?_of_outlines houtlines]
      obtain ⟨rfl, hentry⟩ := hbinds.of_ok hspace'
      -- the accesses that the literal led to have left the name its slot
      rw [accessor_of_outlines houtlines] at hentry ⊢
      rw [Alias.ofSource_of_ne_generator reads.ne_generator] at hentry
      exact ⟨rfl, source, log, r₁, reads, hentry⟩
    · cases herror

/-- An accessor that is handed out is that of the slot which the name has had, and has from then
on. -/
theorem of_handsOut {space : Nat} {name : String} {op : Operation} {x : Outcome}
    (h : perform fuel op r = some (.ok x, r')) (hop : op.handsOut? = some (space, name))
    (hspace : (r.space? space).isSome) :
    x = .accessor (r.accessor space name) ∧ (r'.alias? (r.accessor space name)).isSome := by
  cases op with
  | declareForward space' name' =>
    obtain ⟨rfl, rfl⟩ := Prod.mk.inj (Option.some.inj hop)
    obtain ⟨declared, hdeclared, houtcome⟩ := Action.map_cases h
    cases declared with
    | error error => cases houtcome
    | ok b =>
      obtain ⟨rfl, hsome⟩ := (declaresForward_of hdeclared).of_ok hspace
      exact ⟨Except.ok.inj houtcome, hsome⟩
  | bind space' name' source =>
    obtain ⟨rfl, rfl⟩ := Prod.mk.inj (Option.some.inj hop)
    obtain ⟨hx, hentry⟩ := of_bind h hspace
    exact ⟨hx, by rw [hentry]; rfl⟩
  | bindLiteral space' name' literal prelude =>
    obtain ⟨rfl, rfl⟩ := Prod.mk.inj (Option.some.inj hop)
    obtain ⟨hx, _, _, _, -, hentry⟩ := of_bindLiteral_ok h hspace
    exact ⟨hx, by rw [hentry]; rfl⟩
  | lookup space' name' =>
    obtain ⟨rfl, rfl⟩ := Prod.mk.inj (Option.some.inj hop)
    obtain ⟨found, hfound, houtcome⟩ := Action.map_cases h
    cases looksUp_of hfound with
    | found isEntry => exact ⟨Except.ok.inj houtcome, by rw [isEntry]; rfl⟩
    | missing => cases houtcome
  | _ => cases hop

/-- A name that was given a definition is not unresolved. -/
theorem of_defines {space : Nat} {name : String} {op : Operation} {x : Outcome}
    (h : perform fuel op r = some (.ok x, r')) (hop : op.defines? = some (space, name))
    (hspace : (r.space? space).isSome) : r'.state (r.accessor space name) ≠ .unresolved := by
  cases op with
  | bind space' name' source =>
    obtain ⟨rfl, rfl⟩ := Prod.mk.inj (Option.some.inj hop)
    rw [state_of_alias? (of_bind h hspace).2]
    cases source <;> nofun
  | bindLiteral space' name' literal prelude =>
    obtain ⟨rfl, rfl⟩ := Prod.mk.inj (Option.some.inj hop)
    obtain ⟨-, _, _, _, -, hentry⟩ := of_bindLiteral_ok h hspace
    rw [state_of_alias? hentry]
    nofun
  | _ => cases hop

/-! ## Namespaces stay -/

theorem isSome_space?_iff {space : Nat} : (r.space? space).isSome ↔ space < r.spaces.size := by
  simp [space?]

@[simp] theorem size_modifySpace (r : Registry) (space : Nat) (f : Namespace → Namespace) :
    (r.modifySpace space f).spaces.size = r.spaces.size :=
  Array.size_modify

@[simp] theorem size_note (r : Registry) (space : Nat) (event : Log.Event)
    (fields : Entries String) : (r.note space event fields).spaces.size = r.spaces.size := by
  unfold note
  split <;> rfl

theorem size_of_outlines (h : r'.outlines = r.outlines) : r'.spaces.size = r.spaces.size := by
  simpa [outlines, perSpace] using congrArg List.length h

theorem Binds.size_eq {space : Nat} {name : String} {source : TypeExpr}
    {outcome : Except AliasError Accessor} (h : Binds space name source r outcome r') :
    r'.spaces.size = r.spaces.size := by
  cases h <;> simp [noteFailure, put, setSlots, count]

/-- No deed takes a namespace away. -/
theorem Performs.size_le {op : Operation} {outcome : Except AliasError Outcome}
    (h : Performs fuel r op log outcome r') : r.spaces.size ≤ r'.spaces.size := by
  cases h with
  | direct isDirect performed =>
    cases performsDirectly_of isDirect performed with
    | addSpace => simp [addSpace]
    | newType => exact Nat.le_refl _
    | normalize normalizes => rw [spaces_of_normalizes normalizes]
    | declareForward declares => cases declares <;> simp [noteFailure, put, setSlots, count]
    | bind binds => exact binds.size_eq.ge
    | lookup => exact Nat.le_refl _
  | readLiteral reads => exact (size_of_outlines (reads.keeps (keeps_outlines fuel))).ge
  | bindLiteral reads binds =>
    rw [binds.size_eq, size_of_outlines (reads.keeps (keeps_outlines fuel))]
  | bindLiteralRejected reads =>
    simp [noteFailure, count, size_of_outlines (reads.keeps (keeps_outlines fuel))]
  | bindLiteralFailed reads => exact (size_of_outlines (reads.keeps (keeps_outlines fuel))).ge
  | use accesses => exact (size_of_outlines ((keeps_outlines fuel).accesses accesses)).ge
  | call calls => exact (size_of_outlines ((keeps_outlines fuel).callsFunction calls)).ge

end Registry

end NamedTypes
