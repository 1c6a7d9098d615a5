import NamedTypes.Proofs.Deeds

/-! # The life cycle of a name
A name is declared once and for all, is given one definition, and comes at most to the type that it
describes; there is no way back, whatever is done and wherever it fails (`life_cycle`). Each deed
moves a name by one of four moves (`Deed.Moves`), and a definition stays through all deeds that
follow (`Registry.Leads.definition?_eq`). The slot of a name stays as well
(`Registry.Leads.accessor?_eq`), which is why accessors that were handed out at different times see
the same. -/

namespace NamedTypes

/-- How a deed may change the state of a name: not at all, or by giving it a definition, or by an
access without arguments that succeeds. -/
inductive Deed.Moves (a : Accessor) (d : Deed) (log : List Visit) : AliasState → AliasState → Prop
  | stays {s : AliasState} : Moves a d log s s
  | bound (defines : d.Defines a.space a.name)
    (noFunction : ∀ f, d.op ≠ .bind a.space a.name (.generator f)) :
    Moves a d log .unresolved .bound
  | functionBound {f : Generator} (op_eq : d.op = .bind a.space a.name (.generator f))
    (defines : d.Defines a.space a.name) : Moves a d log .unresolved .generatorBound
  | resolved {v : Visit} {t : Ty} (mem : v ∈ log) (accessor_eq : v.accessor = a)
    (arguments_eq : v.arguments = []) (answer_eq : v.answer = .ok (.type t)) :
    Moves a d log .bound .resolved

/-- What declares a name hands out an accessor for it. -/
theorem Operation.handsOut?_of_declares? {op : Operation} {declared : Nat × String}
    (h : op.declares? = some declared) : op.handsOut? = some declared := by
  cases op <;> first | exact h | cases h

namespace Registry

variable {fuel space : Nat} {name : String} {r r₀ r₁ r₂ r' : Registry} {a : Accessor}
  {log : List Visit} {done more : List Deed}

/-- The names that a namespace declares. -/
def names (r : Registry) (space : Nat) : List String :=
  ((r.space? space).map Namespace.names).getD []

/-- Outlines tell which names are declared. -/
theorem names_of_outlines (h : r'.outlines = r.outlines) (space : Nat) :
    r'.names space = r.names space := by
  have hnames (n : Namespace) : n.outline.slots.map Prod.fst = n.names := by
    rw [Namespace.outline, List.map_map]
    rfl
  have hall : r'.perSpace Namespace.names = r.perSpace Namespace.names := by
    simpa only [hnames] using perSpace_of_outlines h fun o => o.slots.map Prod.fst
  rw [names, names, ← getElem?_perSpace, ← getElem?_perSpace, hall]

theorem mem_names_iff : name ∈ r.names space ↔ (r.alias? (r.accessor space name)).isSome := by
  rw [alias?_accessor, Option.isSome_map, names, slots?]
  cases r.space? space with
  | none => simp
  | some n => exact Entries.isSome_lookup_iff.symm

/-- In a namespace without names nothing has an entry. -/
theorem alias?_eq_none_of_names {n : Namespace} (hn : r.space? space = some n)
    (hempty : n.names = []) (name : String) : r.alias? (r.accessor space name) = none := by
  have hnot : ¬ (r.alias? (r.accessor space name)).isSome := by
    rw [← mem_names_iff, names, hn, Option.map_some, Option.getD_some, hempty]
    exact List.not_mem_nil
  exact Option.not_isSome_iff_eq_none.1 hnot

theorem pairwise_names (r : Registry) (space : Nat) : (r.names space).Pairwise (· < ·) := by
  rw [names]
  cases r.space? space with
  | none => exact .nil
  | some n => exact List.pairwise_map.2 n.slots.ascending

/-! ## Single deeds -/

/-- Names with the same definition are defined alike. -/
theorem state_eq_unresolved_iff_of_definition?_eq (h : r'.definition? a = r.definition? a) :
    r'.state a = .unresolved ↔ r.state a = .unresolved := by
  have hiff (s : Registry) :
      s.state a = .unresolved ↔ s.definition? a = none ∨ s.definition? a = some .pending := by
    rw [state, definition?]
    cases s.alias? a with
    | none => simp
    | some entry => rcases entry with _ | ⟨_, _ | _⟩ | _ <;> simp [Alias.state, Alias.definition]
  rw [hiff, hiff, h]

theorem isSome_alias?_of_definition?_eq (h : r'.definition? a = r.definition? a) :
    (r'.alias? a).isSome = (r.alias? a).isSome := by
  have hsome := congrArg Option.isSome h
  rwa [definition?, definition?, Option.isSome_map, Option.isSome_map] at hsome

/-- A deed moves a name by one of the four moves. -/
theorem Performs.moves {op : Operation} {outcome : Except AliasError Outcome}
    (h : Performs fuel r op log outcome r') (a : Accessor) :
    Deed.Moves a ⟨op, outcome⟩ log (r.state a) (r'.state a) := by
  cases h.affects a with
  | advances advances =>
    obtain hstate | ⟨hbound, hresolved, v, hv, t, hfirst⟩ := advances.state_cases
    · rw [hstate]
      exact .stays
    · obtain ⟨hmem, hbare⟩ := List.mem_filter.1 hv
      rw [Visit.isBare, Bool.and_eq_true, beq_iff_eq, List.isEmpty_iff] at hbare
      rw [hbound, hresolved]
      exact .resolved hmem hbare.1 hbare.2 hfirst.answer_eq
  | declared _ _ noEntry entry =>
    rw [state_of_alias? entry, state, noEntry]
    exact .stays
  | @bound source _ op_eq _ unresolved entry =>
    rw [state_of_alias? entry, unresolved]
    have hdefines : Deed.Defines a.space a.name ⟨op, .ok (.accessor a)⟩ :=
      ⟨by rw [op_eq]; rfl, _, rfl⟩
    cases source with
    | generator f => exact .functionBound op_eq hdefines
    | _ => exact .bound hdefines fun f heq => by cases op_eq.symm.trans heq
  | boundLiteral op_eq _ unresolved _ entry =>
    rw [state_of_alias? entry, unresolved]
    exact .bound ⟨by rw [op_eq]; rfl, _, rfl⟩ fun f heq => by cases op_eq.symm.trans heq

/-- A deed leaves the names that are declared, and adds the one that it declares. -/
theorem isSome_alias?_perform {op : Operation} {outcome : Except AliasError Outcome}
    (h : perform fuel op r = some (outcome, r')) (hspace : (r.space? space).isSome) :
    (r'.alias? (r'.accessor space name)).isSome ↔
      (r.alias? (r.accessor space name)).isSome ∨ Deed.Declares space name ⟨op, outcome⟩ := by
  obtain ⟨log, hlog⟩ := exists_performs h
  rw [hlog.accessor_eq]
  have haffects := hlog.affects (r.accessor space name)
  constructor
  · intro hsome
    cases haffects with
    | advances advances =>
      rw [isSome_alias?_of_definition?_eq advances.definition?_eq] at hsome
      exact .inl hsome
    | declared op_eq | bound op_eq | boundLiteral op_eq =>
      exact .inr ⟨by simp [op_eq, Operation.declares?], _, rfl⟩
  · rintro (hsome | ⟨hop, x, rfl⟩)
    · cases haffects with
      | advances advances =>
        rwa [isSome_alias?_of_definition?_eq advances.definition?_eq]
      | declared _ _ _ entry | bound _ _ _ entry | boundLiteral _ _ _ _ entry => rw [entry]; rfl
    · exact (of_handsOut h (Operation.handsOut?_of_declares? hop) hspace).2

/-- A deed leaves a name unresolved unless it defines it. -/
theorem state_perform_eq_unresolved_iff {op : Operation} {outcome : Except AliasError Outcome}
    (h : perform fuel op r = some (outcome, r')) (hspace : (r.space? space).isSome) :
    r'.state (r'.accessor space name) = .unresolved ↔
      r.state (r.accessor space name) = .unresolved ∧
        ¬ Deed.Defines space name ⟨op, outcome⟩ := by
  obtain ⟨log, hlog⟩ := exists_performs h
  rw [hlog.accessor_eq]
  constructor
  · intro hunresolved
    refine ⟨Decidable.byContradiction fun hdefined => hdefined ?_, ?_⟩
    · exact (state_eq_unresolved_iff_of_definition?_eq (hlog.definition?_eq hdefined)).1 hunresolved
    · rintro ⟨hop, x, rfl⟩
      exact of_defines h hop hspace hunresolved
  · rintro ⟨hunresolved, hnot⟩
    cases hlog.affects (r.accessor space name) with
    | advances advances =>
      exact (state_eq_unresolved_iff_of_definition?_eq advances.definition?_eq).2 hunresolved
    | declared _ _ _ entry => rw [state_of_alias? entry]; rfl
    | bound op_eq | boundLiteral op_eq =>
      exact absurd ⟨by simp [op_eq, Operation.defines?], _, rfl⟩ hnot

/-! ## Deeds in order -/

namespace Leads

theorem isSome_space? (h : Leads r done r') (hspace : (r.space? space).isSome) :
    (r'.space? space).isSome := by
  induction h with
  | start => exact hspace
  | next _ performed ih =>
    obtain ⟨log, hlog⟩ := exists_performs performed
    exact isSome_space?_iff.2 (Nat.lt_of_lt_of_le (isSome_space?_iff.1 ih) hlog.size_le)

/-- **A definition stays.** -/
theorem definition?_eq (h : Leads r more r') (hdefined : r.state a ≠ .unresolved) :
    r'.definition? a = r.definition? a := by
  induction h with
  | start => rfl
  | next _ performed ih =>
    obtain ⟨log, hlog⟩ := exists_performs performed
    refine (hlog.definition?_eq fun hunresolved => hdefined ?_).trans ih
    exact (state_eq_unresolved_iff_of_definition?_eq ih).1 hunresolved

/-- No deed gives a name another slot. -/
theorem accessor_eq (h : Leads r more r') (space : Nat) (name : String) :
    r'.accessor space name = r.accessor space name := by
  induction h with
  | start => rfl
  | next _ performed ih =>
    obtain ⟨log, hlog⟩ := exists_performs performed
    exact (hlog.accessor_eq space name).trans ih

/-- A declared name stays. -/
theorem isSome_alias? (h : Leads r more r') (hspace : (r.space? space).isSome)
    (hsome : (r.alias? (r.accessor space name)).isSome) :
    (r'.alias? (r'.accessor space name)).isSome := by
  induction h with
  | start => exact hsome
  | next before performed ih =>
    exact (isSome_alias?_perform performed (before.isSome_space? hspace)).2 (.inl ih)

/-- **The slot of a name stays**, and the name stands for it forever. -/
theorem accessor?_eq (h : Leads r more r') (hspace : (r.space? space).isSome)
    (ha : r.accessor? space name = some a) : r'.accessor? space name = some a := by
  have hsome : (r.alias? (r.accessor space name)).isSome := by
    rw [accessor?_eq_map, Option.map_eq_some_iff] at ha
    obtain ⟨entry, hentry, -⟩ := ha
    rw [hentry]
    rfl
  obtain ⟨entry, hentry⟩ := Option.isSome_iff_exists.1 (h.isSome_alias? hspace hsome)
  rw [accessor?_eq_map, hentry, Option.map_some, h.accessor_eq, accessor_of_accessor? ha]

/-- What was done before a deed, the deed itself, and what was done since. -/
theorem exists_of_mem {d : Deed} (h : Leads r₀ done r) (hd : d ∈ done) :
    ∃ before fuel r₁ r₂ after, Leads r₀ before r₁ ∧ perform fuel d.op r₁ = some (d.outcome, r₂) ∧
      Leads r₂ after r := by
  induction h with
  | start => cases hd
  | @next done fuel _ _ r₁ r₂ before performed ih =>
    rcases List.mem_append.1 hd with hd | hd
    · obtain ⟨earlier, fuel', s₁, s₂, after, hearlier, hperformed, hafter⟩ := ih hd
      exact ⟨earlier, fuel', s₁, s₂, _, hearlier, hperformed, hafter.next performed⟩
    · obtain rfl := List.mem_singleton.1 hd
      exact ⟨done, fuel, r₁, r₂, [], before, performed, .start⟩

/-- The names that are declared are those that the deeds have declared. -/
theorem isSome_alias?_iff (h : Leads r₀ done r) (hspace : (r₀.space? space).isSome)
    (hnew : r₀.alias? (r₀.accessor space name) = none) :
    (r.alias? (r.accessor space name)).isSome ↔ ∃ d ∈ done, d.Declares space name := by
  induction h with
  | start => simp [hnew]
  | next before performed ih =>
    rw [isSome_alias?_perform performed (before.isSome_space? hspace), ih]
    simp [or_and_right, exists_or]

/-- The names that are defined are those that the deeds have defined. -/
theorem state_eq_unresolved_iff (h : Leads r₀ done r) (hspace : (r₀.space? space).isSome)
    (hnew : r₀.alias? (r₀.accessor space name) = none) :
    r.state (r.accessor space name) = .unresolved ↔ ∀ d ∈ done, ¬ d.Defines space name := by
  induction h with
  | start => simp [state, hnew]
  | next before performed ih =>
    rw [state_perform_eq_unresolved_iff performed (before.isSome_space? hspace), ih]
    simp [or_imp, forall_and]

/-- An accessor that a deed has handed out for a name is that of the slot which the name stands
for. -/
theorem accessor?_of_handsOut (h : Leads r₀ done r) (hspace : (r₀.space? space).isSome) {d : Deed}
    (hd : d ∈ done) (hop : d.op.handsOut? = some (space, name)) {b : Accessor}
    (hb : d.outcome = .ok (.accessor b)) : r.accessor? space name = some b := by
  obtain ⟨before, fuel, r₁, r₂, after, hbefore, performed, hafter⟩ := h.exists_of_mem hd
  rw [hb] at performed
  have hspace₁ := hbefore.isSome_space? hspace
  obtain ⟨hb', hsome⟩ := of_handsOut performed hop hspace₁
  obtain rfl := Outcome.accessor.inj hb'
  -- right after the deed the name stood for that slot, and it has kept it since
  refine hafter.accessor?_eq ((hbefore.next performed).isSome_space? hspace) ?_
  obtain ⟨log, hlog⟩ := exists_performs performed
  obtain ⟨entry, hentry⟩ := Option.isSome_iff_exists.1 hsome
  rw [accessor?_eq_map, hlog.accessor_eq, hentry]
  rfl

end Leads

/-! ## Names that are taken -/

/-- Every declaration has an outcome. -/
theorem exists_toAction (d : Declaration Accessor) (r : Registry) :
    ∃ outcome r', d.toAction r = some (outcome, r') ∧
      (Outcome.accessor <$> d.toAction) r = some (.accessor <$> outcome, r') := by
  obtain ⟨outcome, r', h⟩ : ∃ outcome r', d.toAction r = some (outcome, r') := ⟨_, _, rfl⟩
  exact ⟨outcome, r', h, by rw [Action.map_apply, h]; rfl⟩

/-- A name that has a definition cannot be bound. -/
theorem perform_bind_of_defined (hdefined : r.state (r.accessor space name) ≠ .unresolved)
    (fuel : Nat)
    (source : TypeExpr) :
    perform fuel (.bind space name source) r = some (.error (.nameCollision name),
      r.noteFailure space name .bindingRejected (.nameCollision name)) := by
  obtain ⟨outcome, r', hbound, h⟩ := exists_toAction (bind space name source) r
  refine h.trans ?_
  cases binds_of hbound with
  | bound undefined => exact absurd (Registry.state_eq_unresolved_iff.2 undefined) hdefined
  | rejected => rfl

/-- A name that has a definition cannot be declared ahead. -/
theorem perform_declareForward_of_defined (hdefined : r.state (r.accessor space name) ≠ .unresolved)
    (fuel : Nat) :
    perform fuel (.declareForward space name) r = some (.error (.nameCollision name),
      r.noteFailure space name .bindingRejected (.nameCollision name)) := by
  obtain ⟨outcome, r', hdeclared, h⟩ := exists_toAction (declareForward space name) r
  refine h.trans ?_
  cases declaresForward_of hdeclared with
  | declared noEntry =>
    rw [state, noEntry] at hdefined
    exact absurd rfl hdefined
  | pending entry => exact absurd (state_of_alias? entry) hdefined
  | rejected => rfl

/-- A name that has a definition cannot be bound to a literal. -/
theorem perform_bindLiteral_of_defined (hdefined : r.state (r.accessor space name) ≠ .unresolved)
    {literal : Json.Value} {prelude : Prelude} {outcome : Except AliasError Outcome}
    (h : perform fuel (.bindLiteral space name literal prelude) r = some (outcome, r')) :
    ∃ error, outcome = .error error := by
  obtain ⟨bound, hbound, rfl⟩ := Action.map_cases h
  obtain ⟨source, r₁, hread, hbinds⟩ | ⟨error, _, -, rfl, -⟩ := of_bindLiteral hbound
  · obtain ⟨log, reads⟩ := reads_of_read literal hread
    have hread : Advances (r.accessor space name) r log r₁ := .of_reads reads
    cases hbinds with
    | bound undefined =>
      -- the accesses that the literal led to leave the slot and its definition
      rw [accessor_of_outlines (reads.keeps (keeps_outlines fuel))] at undefined
      refine absurd ?_ hdefined
      exact (state_eq_unresolved_iff_of_definition?_eq hread.definition?_eq).1
        (Registry.state_eq_unresolved_iff.2 undefined)
    | rejected => exact ⟨_, rfl⟩
  · exact ⟨error, rfl⟩

/-- Declaring a pending name again does nothing. -/
theorem perform_declareForward_of_pending
    (hpending : r.alias? (r.accessor space name) = some .pending)
    (fuel : Nat) :
    perform fuel (.declareForward space name) r =
      some (.ok (.accessor (r.accessor space name)), r) := by
  obtain ⟨outcome, r', hdeclared, h⟩ := exists_toAction (declareForward space name) r
  refine h.trans ?_
  cases declaresForward_of hdeclared with
  | declared noEntry => cases noEntry.symm.trans hpending
  | pending => rfl
  | rejected entry isDefined =>
    obtain rfl := Option.some.inj (entry.symm.trans hpending)
    exact absurd rfl isDefined

/-- Looking up a declared name gives the accessor of its slot, and does nothing else. -/
theorem perform_lookup (ha : r.accessor? space name = some a) (fuel : Nat) :
    perform fuel (.lookup space name) r = some (.ok (.accessor a), r) := by
  obtain ⟨outcome, r', hfound, h⟩ := exists_toAction (lookup space name) r
  refine h.trans ?_
  cases looksUp_of hfound with
  | found =>
    rw [accessor_of_accessor? ha]
    rfl
  | missing noEntry =>
    rw [accessor?_eq_map, noEntry] at ha
    cases ha

/-! ## The life cycle -/

/-- What holds of a namespace, and from then on, after deeds that began when it had no names. -/
structure LifeCycle (space : Nat) (done : List Deed) (r : Registry) : Prop where
  /-- The names are listed in strictly ascending order. -/
  names_ascending : (r.names space).Pairwise (· < ·)
  /-- They are those that were declared with success; none was removed. -/
  mem_names_iff : ∀ name, name ∈ r.names space ↔ ∃ d ∈ done, d.Declares space name
  /-- A name is unresolved until it is defined with success. -/
  unresolved_iff : ∀ name,
    r.state (r.accessor space name) = .unresolved ↔ ∀ d ∈ done, ¬ d.Defines space name
  /-- Whatever is done next moves every name by one of the four moves. -/
  moves : ∀ fuel op outcome r', perform fuel op r = some (outcome, r') →
    (∃ log, Performs fuel r op log outcome r') ∧
    ∀ log, Performs fuel r op log outcome r' → ∀ name,
      Deed.Moves (r.accessor space name) ⟨op, outcome⟩ log (r.state (r.accessor space name))
        (r'.state (r'.accessor space name))
  /-- A name stands for the expression that it was bound to. -/
  definition?_eq : ∀ name source x, ⟨.bind space name source, .ok x⟩ ∈ done →
    r.definition? (r.accessor space name) = some (.ofSource source)
  /-- A name that was bound to a literal stands for no type function. -/
  of_literal : ∀ name literal prelude x, ⟨.bindLiteral space name literal prelude, .ok x⟩ ∈ done →
    r.state (r.accessor space name) = .bound ∨ r.state (r.accessor space name) = .resolved
  /-- Whatever is done from now on, a definition stays. -/
  stays : ∀ name, (∃ d ∈ done, d.Defines space name) → ∀ more r', Leads r more r' →
    r'.definition? (r'.accessor space name) = r.definition? (r.accessor space name)
  /-- A name that is defined can be neither bound nor declared ahead again. -/
  collides : ∀ name, (∃ d ∈ done, d.Defines space name) → ∀ fuel,
    (∀ source, perform fuel (.bind space name source) r =
      some (.error (.nameCollision name),
        r.noteFailure space name .bindingRejected (.nameCollision name))) ∧
    perform fuel (.declareForward space name) r =
      some (.error (.nameCollision name),
        r.noteFailure space name .bindingRejected (.nameCollision name)) ∧
    ∀ literal prelude outcome r',
      perform fuel (.bindLiteral space name literal prelude) r = some (outcome, r') →
        ∃ error, outcome = .error error
  /-- Declaring ahead again what is declared ahead changes nothing at all. -/
  redeclares : ∀ name, (∃ d ∈ done, d.Declares space name) →
    (∀ d ∈ done, ¬ d.Defines space name) → ∀ fuel,
      perform fuel (.declareForward space name) r = some (.ok (.accessor (r.accessor space name)), r)
  /-- Every accessor that was handed out for a name is one to the slot that the name stands for, now
  and whatever is done from now on. -/
  slot_stays : ∀ name, ∀ d ∈ done, d.op.handsOut? = some (space, name) →
    ∀ b, d.outcome = .ok (.accessor b) → ∀ more r', Leads r more r' →
      r'.accessor? space name = some b
  /-- Every accessor that was handed out for a name is as good as one that is looked up now. -/
  shared : ∀ name, ∀ d ∈ done, d.op.handsOut? = some (space, name) →
    ∀ b, d.outcome = .ok (.accessor b) → ∀ fuel, ∃ c,
      perform fuel (.lookup space name) r = some (.ok (.accessor c), r) ∧
      r.state b = r.state c ∧
      ∀ fuel kind arguments, b.use fuel kind arguments r = c.use fuel kind arguments r

/-- A name that a deed has bound to a literal stands for an expression that is no type function. -/
theorem Leads.state_of_literal (h : Leads r₀ done r) (hspace : (r₀.space? space).isSome)
    {literal : Json.Value} {prelude : Prelude} {x : Outcome}
    (hd : ⟨.bindLiteral space name literal prelude, .ok x⟩ ∈ done) :
    r.state (r.accessor space name) = .bound ∨ r.state (r.accessor space name) = .resolved := by
  obtain ⟨before, fuel, r₁, r₂, after, hbefore, performed, hafter⟩ := h.exists_of_mem hd
  obtain ⟨-, source, -, -, -, hentry⟩ := of_bindLiteral_ok performed (hbefore.isSome_space? hspace)
  have hdefined : r₂.state (r₁.accessor space name) ≠ .unresolved := by
    rw [state_of_alias? hentry]
    nofun
  have hstays := hafter.definition?_eq hdefined
  rw [definition?, definition?, hentry] at hstays
  obtain ⟨entry, hnow, hplain⟩ := Option.map_eq_some_iff.1 hstays
  rw [h.accessor_eq, ← hbefore.accessor_eq, state_of_alias? hnow]
  cases entry with
  | pending | function => cases hplain
  | plain source' kept =>
    cases kept with
    | none => exact .inl rfl
    | some t => exact .inr rfl

/-- A name that a deed has bound stands for the expression that it was bound to. -/
theorem Leads.definition?_of_bind (h : Leads r₀ done r) (hspace : (r₀.space? space).isSome)
    {source : TypeExpr} {x : Outcome} (hd : ⟨.bind space name source, .ok x⟩ ∈ done) :
    r.definition? (r.accessor space name) = some (.ofSource source) := by
  obtain ⟨before, fuel, r₁, r₂, after, hbefore, performed, hafter⟩ := h.exists_of_mem hd
  have hspace₁ := hbefore.isSome_space? hspace
  have hdefined := of_defines performed rfl hspace₁
  rw [h.accessor_eq, ← hbefore.accessor_eq, hafter.definition?_eq hdefined, definition?,
    (of_bind performed hspace₁).2, Option.map_some, Alias.definition_ofSource]

end Registry

/-- **The life cycle of a name is one-way, and all accessors of a name share it.** Whatever is done
from the moment on at which a namespace has no names, with whatever success, in whatever other
namespaces, it leads to a registry of which all of `Registry.LifeCycle` holds. -/
theorem life_cycle {r₀ r : Registry} {space : Nat} {n : Namespace} {done : List Deed}
    (hn : r₀.space? space = some n) (hempty : n.names = []) (h : Registry.Leads r₀ done r) :
    Registry.LifeCycle space done r := by
  have hspace : (r₀.space? space).isSome := Option.isSome_iff_exists.2 ⟨n, hn⟩
  have hnew := Registry.alias?_eq_none_of_names hn hempty
  -- The deeds alone tell which names there are and which of them are defined. Everything else reads
  -- the state that this gives a name, or the slot that the name has kept.
  have hdeclared (name : String) := h.isSome_alias?_iff hspace (hnew name)
  have hunresolved (name : String) := h.state_eq_unresolved_iff hspace (hnew name)
  have hdefined {name : String} (hdone : ∃ d ∈ done, d.Defines space name) :
      r.state (r.accessor space name) ≠ .unresolved := by
    obtain ⟨d, hd, hdefines⟩ := hdone
    exact fun hstate => (hunresolved name).1 hstate d hd hdefines
  exact
    { names_ascending := Registry.pairwise_names r space
      mem_names_iff := fun name => Registry.mem_names_iff.trans (hdeclared name)
      unresolved_iff := hunresolved
      moves := fun fuel op outcome r' performed =>
        ⟨Registry.exists_performs performed, fun log hlog name => by
          rw [hlog.accessor_eq]
          exact hlog.moves (r.accessor space name)⟩
      definition?_eq := fun name source x hd => h.definition?_of_bind hspace hd
      of_literal := fun name literal prelude x hd => h.state_of_literal hspace hd
      stays := fun name hdone more r' hmore => by
        rw [hmore.accessor_eq]
        exact hmore.definition?_eq (hdefined hdone)
      collides := fun name hdone fuel =>
        ⟨Registry.perform_bind_of_defined (hdefined hdone) fuel,
          Registry.perform_declareForward_of_defined (hdefined hdone) fuel,
          fun _ _ _ _ => Registry.perform_bindLiteral_of_defined (hdefined hdone)⟩
      redeclares := fun name hdone hnone fuel => by
        refine Registry.perform_declareForward_of_pending ?_ fuel
        obtain ⟨entry, hentry⟩ := Option.isSome_iff_exists.1 ((hdeclared name).2 hdone)
        have hundefined := Registry.state_eq_unresolved_iff.1 ((hunresolved name).2 hnone)
        rw [hentry, not_not.1 (hundefined entry hentry)]
      slot_stays := fun name d hd hop b hb more r' hmore =>
        hmore.accessor?_eq (h.isSome_space? hspace) (h.accessor?_of_handsOut hspace hd hop hb)
      shared := fun name d hd hop b hb fuel => by
        -- the name still stands for the slot of the accessor, so looking it up answers that one
        have hslot := h.accessor?_of_handsOut hspace hd hop hb
        have hlookup := Registry.perform_lookup hslot fuel
        exact ⟨b, hlookup, rfl, fun _ _ _ => rfl⟩ }

/-- A name is declared ahead, bound and accessed: it is resolved, and stands for what it was bound
to. The accessor that was handed out first is that of the slot which was filled. -/
theorem life_cycle_of_forward_declared :
    let int : Ty := ⟨0, .primitive .int⟩
    let a : Accessor := ⟨0, "Id", 0⟩
    let r₀ := ((Registry.newType {} int.validator).2.addSpace "main" {}).2
    (∃ n, r₀.space? 0 = some n ∧ n.names = []) ∧ ∃ outcome r,
      let done : List Deed := [⟨.declareForward 0 "Id", .ok (.accessor a)⟩,
        ⟨.bind 0 "Id" (.leaf int), .ok (.accessor a)⟩, ⟨.use .get a [], outcome⟩]
      Registry.Leads r₀ done r ∧ Registry.LifeCycle 0 done r ∧ r.names 0 = ["Id"] ∧
        r.accessor? 0 "Id" = some a ∧ r.definition? a = some (.plain (.leaf int)) ∧
        r.state a = .resolved := by
  intro int a r₀
  obtain ⟨n, hn, hempty⟩ : ∃ n, r₀.space? 0 = some n ∧ n.names = [] := ⟨_, rfl, rfl⟩
  obtain ⟨r₁, r₂, h₁, h₂, ⟨outcome, r⟩, h₃, hresolved⟩ : ∃ r₁ r₂,
      Registry.perform 1 (.declareForward 0 "Id") r₀ = some (.ok (.accessor a), r₁) ∧
      Registry.perform 1 (.bind 0 "Id" (.leaf int)) r₁ = some (.ok (.accessor a), r₂) ∧
      ∃ p, Registry.perform 1 (.use .get a []) r₂ = some p ∧
        (p.2.state a, p.2.names 0) = (.resolved, ["Id"]) :=
    ⟨_, _, rfl, rfl, Option.map_eq_some_iff.1 (by decide +kernel)⟩
  obtain ⟨hstate, hnames⟩ := Prod.mk.inj hresolved
  have h := ((Registry.Leads.start.next h₁).next h₂).next h₃
  have hcycle := life_cycle hn hempty h
  have hslot := hcycle.slot_stays "Id" _ List.mem_cons_self rfl a rfl [] r .start
  refine ⟨⟨n, hn, hempty⟩, outcome, r, h, hcycle, hnames, hslot, ?_, hstate⟩
  rw [← Registry.accessor_of_accessor? hslot]
  exact hcycle.definition?_eq "Id" (.leaf int) (.accessor a)
    (List.mem_cons_of_mem _ List.mem_cons_self)

end NamedTypes
