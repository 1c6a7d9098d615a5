import NamedTypes.Proofs.History
import NamedTypes.Proofs.Readings

/-! # Plain aliases
What a plain alias comes to is settled by the expression that it is bound to
(`plain_alias_settled`). If the expression describes a type, the first access without arguments
makes the type, and every later one answers with the same instance; if not, every such access fails
in the same way. Accesses of an alias may be made by users, by bodies and by literals, in any order,
so the statement is about the log of a whole history, and its proof reads the log as a `Story` of
what the alias keeps. -/

namespace NamedTypes

namespace Visit

/-- Whether a visit is an access to `a` without arguments. -/
def isBare (a : Accessor) (v : Visit) : Bool := v.accessor == a && v.arguments.isEmpty

/-- The visit answers with a type that `a` keeps from then on. -/
structure IsFirst (a : Accessor) (t : Ty) (v : Visit) : Prop where
  answer_eq : v.answer = .ok (.type t)
  state_before : v.before.state a = .bound
  state_after : v.after.state a = .resolved
  normalizations : v.after.counted a.space .normalizations =
    v.before.counted a.space .normalizations + 1
  cacheHits : v.after.counted a.space .cacheHits = v.before.counted a.space .cacheHits

/-- The visit answers with the type that `a` keeps already. -/
structure IsHit (a : Accessor) (t : Ty) (v : Visit) : Prop where
  answer_eq : v.answer = .ok (.type t)
  state_before : v.before.state a = .resolved
  state_after : v.after.state a = .resolved
  normalizations : v.after.counted a.space .normalizations =
    v.before.counted a.space .normalizations
  cacheHits : v.after.counted a.space .cacheHits = v.before.counted a.space .cacheHits + 1

/-- The visit fails because `a` describes no type. -/
structure IsFailure (a : Accessor) (error : AliasError) (v : Visit) : Prop where
  answer_eq : v.answer = .error error
  state_before : v.before.state a = .bound
  state_after : v.after.state a = .bound
  normalizations : v.after.counted a.space .normalizations =
    v.before.counted a.space .normalizations + 1
  cacheHits : v.after.counted a.space .cacheHits = v.before.counted a.space .cacheHits

end Visit

/-! ## Stories of plain aliases -/

/-- What the accesses to a plain alias without arguments come to, from what it keeps before them to
what it keeps after them. -/
inductive Story (a : Accessor) (source : TypeExpr) : Option Ty → List Visit → Option Ty → Prop
  | done {kept : Option Ty} : Story a source kept [] kept
  | first {t : Ty} {v : Visit} {vs : List Visit} {kept : Option Ty}
    (compiled : source.validator = .ok t.validator) (of_leaf : ∀ l, source = .leaf l → t = l)
    (isFirst : v.IsFirst a t) (rest : Story a source (some t) vs kept) :
    Story a source none (v :: vs) kept
  | hit {t : Ty} {v : Visit} {vs : List Visit} {kept : Option Ty} (isHit : v.IsHit a t)
    (rest : Story a source (some t) vs kept) : Story a source (some t) (v :: vs) kept
  | failure {error : AliasError} {v : Visit} {vs : List Visit} {kept : Option Ty}
    (faulty : source.validator = .error error) (isFailure : v.IsFailure a error)
    (rest : Story a source none vs kept) : Story a source none (v :: vs) kept

namespace Story

variable {a : Accessor} {source : TypeExpr} {kept kept' kept'' : Option Ty} {vs vs' : List Visit}

theorem append (h : Story a source kept vs kept') (h' : Story a source kept' vs' kept'') :
    Story a source kept (vs ++ vs') kept'' := by
  induction h with
  | done => exact h'
  | first compiled of_leaf isFirst _ ih => exact .first compiled of_leaf isFirst (ih h')
  | hit isHit _ ih => exact .hit isHit (ih h')
  | failure faulty isFailure _ ih => exact .failure faulty isFailure (ih h')

/-- An alias that describes no type never answers with one. -/
theorem failures {error : AliasError} (hfault : source.validator = .error error)
    (h : Story a source none vs kept) : ∀ v ∈ vs, v.IsFailure a error := by
  generalize hstart : none = start at h
  induction h with
  | done => exact nofun
  | first compiled => rw [hfault] at compiled; cases compiled
  | hit => cases hstart
  | failure faulty isFailure _ ih =>
    obtain rfl := Except.error.inj (hfault.symm.trans faulty)
    exact List.forall_mem_cons.2 ⟨isFailure, ih rfl⟩

end Story

namespace Registry

variable {fuel : Nat} {r r' : Registry} {a : Accessor} {source : TypeExpr}

/-! ## Single accesses -/

section Lines

variable {t : Ty} {r₁ : Registry} {answer : Except AliasError (Normalized Generator)}
  (demand : Demand) (fields : Entries String)

theorem alias?_of_kept (entry : r.alias? a = some (.plain source (some t))) :
    (r.leave a answer ((r.enter.count a.space .cacheHits).note a.space .cacheHit
      fields)).alias? a = some (.plain source (some t)) := by
  rw [alias?_leave, alias?_note, alias?_count]
  exact entry

/-- An alias that keeps a type answers with it. -/
theorem isHit_of_kept (entry : r.alias? a = some (.plain source (some t))) :
    Visit.IsHit a t ⟨a, demand, [], r, .ok (.type t),
      r.leave a answer ((r.enter.count a.space .cacheHits).note a.space .cacheHit fields)⟩ := by
  have hspace : (r.enter.space? a.space).isSome := isSome_space?_of_alias? (r := r) entry
  have hcounted (counter : Counter) (h : counter ≠ .errors) :
      (r.leave a answer ((r.enter.count a.space .cacheHits).note a.space .cacheHit
        fields)).counted a.space counter =
      r.counted a.space counter + if Counter.cacheHits = counter then 1 else 0 := by
    rw [counted_leave _ _ _ _ _ h, counted_note, counted_count hspace]
    rfl
  exact ⟨demand.require_type t, state_of_alias? entry,
    state_of_alias? (alias?_of_kept fields entry), hcounted _ nofun, hcounted _ nofun⟩

/-- An alias without a type that is compiled keeps the type. -/
theorem alias?_of_compiles (entry : r.alias? a = some (.plain source none))
    (compiles : (world fuel).Compiles source (r.enter.count a.space .normalizations) (.ok t) r₁) :
    (r.leave a answer ((r₁.modifyAlias a (Alias.keep t)).note a.space .aliasResolved
      fields)).alias? a = some (.plain source (some t)) := by
  have hentry : r₁.alias? a = some (.plain source none) := by
    rw [alias?_of_spaces (spaces_of_compiles compiles), alias?_count]
    exact entry
  rw [alias?_leave, alias?_note, alias?_modifyAlias_self hentry, Alias.keep]

theorem isFirst_of_compiles (entry : r.alias? a = some (.plain source none))
    (compiles : (world fuel).Compiles source (r.enter.count a.space .normalizations) (.ok t) r₁) :
    Visit.IsFirst a t ⟨a, demand, [], r, .ok (.type t), r.leave a answer
      ((r₁.modifyAlias a (Alias.keep t)).note a.space .aliasResolved fields)⟩ := by
  have hspace : (r.enter.space? a.space).isSome := isSome_space?_of_alias? (r := r) entry
  have hcounted (counter : Counter) (h : counter ≠ .errors) :
      (r.leave a answer ((r₁.modifyAlias a (Alias.keep t)).note a.space .aliasResolved
        fields)).counted a.space counter =
      r.counted a.space counter + if Counter.normalizations = counter then 1 else 0 := by
    rw [counted_leave _ _ _ _ _ h, counted_note, counted_modifyAlias,
      counted_of_spaces (spaces_of_compiles compiles), counted_count hspace]
    rfl
  exact ⟨demand.require_type t, state_of_alias? entry,
    state_of_alias? (alias?_of_compiles fields entry compiles), hcounted _ nofun, hcounted _ nofun⟩

/-- An alias that describes no type stays as it is. -/
theorem alias?_of_faulty {error : AliasError} (entry : r.alias? a = some (.plain source none))
    (compiles : (world fuel).Compiles source (r.enter.count a.space .normalizations)
      (.error error) r₁) :
    (r.leave a answer r₁).alias? a = some (.plain source none) := by
  rw [alias?_leave, alias?_of_spaces (spaces_of_compiles compiles), alias?_count]
  exact entry

theorem isFailure_of_compiles {error : AliasError} (entry : r.alias? a = some (.plain source none))
    (compiles : (world fuel).Compiles source (r.enter.count a.space .normalizations)
      (.error error) r₁) :
    Visit.IsFailure a error ⟨a, demand, [], r, .error error, r.leave a answer r₁⟩ := by
  have hspace : (r.enter.space? a.space).isSome := isSome_space?_of_alias? (r := r) entry
  have hcounted (counter : Counter) (h : counter ≠ .errors) :
      (r.leave a answer r₁).counted a.space counter =
        r.counted a.space counter + if Counter.normalizations = counter then 1 else 0 := by
    rw [counted_leave _ _ _ _ _ h, counted_of_spaces (spaces_of_compiles compiles),
      counted_count hspace]
    rfl
  exact ⟨rfl, state_of_alias? entry, state_of_alias? (alias?_of_faulty entry compiles),
    hcounted _ nofun, hcounted _ nofun⟩

/-- The log of an access without arguments holds that access only. -/
theorem filter_isBare {resolved : Except AliasError (Normalized Generator)} :
    ([] ++ [⟨a, demand, [], r, resolved, r'⟩] : List Visit).filter (Visit.isBare a) =
      [⟨a, demand, [], r, resolved, r'⟩] := by
  simp [Visit.isBare]

end Lines

/-! ## Accesses tell stories -/

/-- From one registry to another, the accesses in the log tell the story of a plain alias. -/
def Told (a : Accessor) (source : TypeExpr) (r : Registry) (log : List Visit) (r' : Registry) :
    Prop :=
  ∀ kept, r.alias? a = some (.plain source kept) →
    ∃ kept', r'.alias? a = some (.plain source kept') ∧
      Story a source kept (log.filter (Visit.isBare a)) kept'

/-- Where an alias does not change, nothing is told. -/
theorem told_of_alias?_eq (h : r'.alias? a = r.alias? a) : Told a source r [] r' :=
  fun kept hkept => ⟨kept, h.trans hkept, .done⟩

theorem Told.trans {r₁ r₂ r₃ : Registry} {log log' : List Visit} (h : Told a source r₁ log r₂)
    (h' : Told a source r₂ log' r₃) : Told a source r₁ (log ++ log') r₃ := by
  intro kept hkept
  obtain ⟨kept', hkept', hstory⟩ := h kept hkept
  obtain ⟨kept'', hkept'', hstory'⟩ := h' kept' hkept'
  exact ⟨kept'', hkept'', List.filter_append .. ▸ hstory.append hstory'⟩

/-- Resolving another alias leaves a plain alias to the bodies that run. -/
theorem admits_told {b : Accessor} (hne : a ≠ b) : Admits (Told a source) b where
  count _ := told_of_alias?_eq (alias?_count ..)
  note _ := told_of_alias?_eq (alias?_note ..)
  keep := told_of_alias?_eq (alias?_modifyAlias_of_ne hne _)
  remember := told_of_alias?_eq (alias?_modifyAlias_of_ne hne _)

/-- An access of the alias itself adds at most one line to the story. -/
theorem told_of_resolves {demand : Demand} {arguments : List TypeExpr} {log : List Visit}
    {resolved answer : Except AliasError (Normalized Generator)} {r₁ : Registry}
    (h : Resolves (world fuel) a arguments r.enter log resolved r₁) :
    Told a source r (log ++ [⟨a, demand, arguments, r, resolved, r.leave a answer r₁⟩])
      (r.leave a answer r₁) := by
  intro kept hkept
  have hentry {entry : Alias} (he : r.enter.alias? a = some entry) : entry = .plain source kept :=
    Option.some.inj (he.symm.trans hkept)
  cases h with
  | undefined undefined => cases undefined _ hkept
  | overApplied entry hne =>
    -- an access with arguments is no part of the story
    have hbare : arguments.isEmpty = false := List.isEmpty_eq_false_iff.2 hne
    refine ⟨kept, (alias?_leave ..).trans hkept, ?_⟩
    rw [List.nil_append, List.filter_singleton, Visit.isBare, hbare, Bool.and_false]
    exact .done
  | kept entry hnil =>
    cases hentry entry
    subst hnil
    refine ⟨_, alias?_of_kept _ hkept, ?_⟩
    rw [filter_isBare]
    exact .hit (isHit_of_kept demand _ hkept) .done
  | @compiled _ t _ entry hnil compiles =>
    cases hentry entry
    subst hnil
    refine ⟨_, alias?_of_compiles _ hkept compiles, ?_⟩
    rw [filter_isBare]
    refine .first (compiles.validator_eq (faithful_world fuel)) ?_
      (isFirst_of_compiles demand _ hkept compiles) .done
    -- an alias of a type is that very type
    rintro l rfl
    exact Except.ok.inj compiles.of_leaf.1
  | faultySource entry hnil compiles =>
    cases hentry entry
    subst hnil
    refine ⟨_, alias?_of_faulty hkept compiles, ?_⟩
    rw [filter_isBare]
    exact .failure (compiles.validator_eq (faithful_world fuel))
      (isFailure_of_compiles demand hkept compiles) .done
  | misapplied entry => cases hentry entry
  | faultyParameter entry => cases hentry entry
  | remembered entry => cases hentry entry
  | ran entry => cases hentry entry
  | failed entry => cases hentry entry

/-- **Whatever is accessed, a plain alias has its story.** -/
theorem keeps_told (fuel : Nat) (a : Accessor) (source : TypeExpr) :
    (world fuel).Keeps (Told a source) := by
  refine keeps_world (fun _ => told_of_alias?_eq rfl) Told.trans
    (fun _ _ => told_of_alias?_eq rfl)
    (fun {_ b demand arguments r log answer r'} hW h => ?_) fuel
  obtain ⟨resolves, -⟩ := h
  by_cases hb : b = a
  · subst hb
    exact told_of_resolves resolves
  · intro kept hkept
    obtain ⟨kept', hkept', hstory⟩ := resolves.keeps hW (admits_told (Ne.symm hb)) kept hkept
    refine ⟨kept', (alias?_leave ..).trans hkept', ?_⟩
    rwa [List.filter_append, List.filter_singleton, Visit.isBare, beq_false_of_ne hb,
      Bool.false_and, cond_false, List.append_nil]

/-! ## Histories tell stories -/

/-- Whatever users do, a plain alias has its story. -/
theorem told_of_performs {op : Operation} {log : List Visit} {outcome : Except AliasError Outcome}
    (h : Performs fuel r op log outcome r') : Told a source r log r' := by
  cases h with
  | direct isDirect performed =>
    intro kept hkept
    exact ⟨kept, alias?_of_direct isDirect performed hkept nofun, .done⟩
  | readLiteral reads => exact reads.keeps (keeps_told fuel a source)
  | bindLiteral reads binds =>
    rw [← List.append_nil log]
    refine (reads.keeps (keeps_told fuel a source)).trans fun kept hkept => ?_
    exact ⟨kept, binds.alias?_of_defined hkept nofun, .done⟩
  | bindLiteralRejected reads =>
    rw [← List.append_nil log]
    exact (reads.keeps (keeps_told fuel a source)).trans (told_of_alias?_eq (alias?_noteFailure ..))
  | bindLiteralFailed reads => exact reads.keeps (keeps_told fuel a source)
  | use accesses => exact (keeps_told fuel a source).accesses accesses
  | call calls => exact (keeps_told fuel a source).callsFunction calls

/-- In a whole history, a plain alias has its story. -/
theorem story_of_history {ops : List Operation} {log : List Visit} {kept : Option Ty}
    {steps : List (Except AliasError Outcome × Registry)} (h : History fuel ops r log steps)
    (hkept : r.alias? a = some (.plain source kept)) :
    ∃ kept', Story a source kept (log.filter (Visit.isBare a)) kept' := by
  induction h generalizing kept with
  | nil => exact ⟨kept, .done⟩
  | cons first _ ih =>
    obtain ⟨kept', hkept', hstory⟩ := told_of_performs first kept hkept
    obtain ⟨kept'', hstory'⟩ := ih hkept'
    exact ⟨kept'', List.filter_append .. ▸ hstory.append hstory'⟩

/-! ## Binding -/

/-- A name is bound to an expression, which is given or read from a literal. -/
inductive BoundTo (fuel : Nat) (a : Accessor) (source : TypeExpr) (r r' : Registry) : Prop
  | bind (performed : perform fuel (.bind a.space a.name source) r = some (.ok (.accessor a), r'))
  | bindLiteral {literal : Json.Value} {prelude : Prelude} {r₁ : Registry}
    (read : readLiteral fuel a.space literal prelude r = some (.ok source, r₁))
    (performed : perform fuel (.bindLiteral a.space a.name literal prelude) r =
      some (.ok (.accessor a), r'))

/-- A name that was bound to anything but a type function keeps no type at first. -/
theorem alias?_of_boundTo (h : BoundTo fuel a source r r') (hspace : (r.space? a.space).isSome)
    (noFunction : ∀ f, source ≠ .generator f) : r'.alias? a = some (.plain source none) := by
  have hplain (config : Config) : Alias.ofSource config source = .plain source none := by
    cases source with
    | generator f => exact absurd rfl (noFunction f)
    | _ => rfl
  cases h with
  | bind performed =>
    obtain ⟨outcome, hbind, houtcome⟩ := Action.map_cases performed
    cases outcome with
    | error error => cases houtcome
    | ok b =>
      obtain rfl := Outcome.accessor.inj (Except.ok.inj houtcome)
      exact ((binds_of hbind).of_ok hspace).2.trans (congrArg some (hplain _))
  | @bindLiteral literal prelude r₁ read performed =>
    obtain ⟨outcome, hbind, houtcome⟩ := Action.map_cases performed
    cases outcome with
    | error error => cases houtcome
    | ok b =>
      obtain ⟨_, _, hread, hbinds⟩ | ⟨_, _, -, herror, -⟩ := of_bindLiteral hbind
      · obtain ⟨⟨⟩, rfl⟩ := Prod.mk.inj (Option.some.inj (read.symm.trans hread))
        obtain ⟨log, hlog⟩ := reads_of_read literal read
        have houtlines := hlog.keeps (keeps_outlines fuel)
        have hspace' : (r₁.space? a.space).isSome := by
          rwa [isSome_space?_of_outlines houtlines]
        obtain rfl := Outcome.accessor.inj (Except.ok.inj houtcome)
        exact (hbinds.of_ok hspace').2.trans (congrArg some (hplain _))
      · cases herror

end Registry

end NamedTypes
