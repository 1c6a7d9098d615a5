import NamedTypes.Proofs.Deeds
import NamedTypes.Proofs.Remembering

/-! # What accesses change of aliases
Accesses leave definitions as they are. What they change of an alias is what it keeps for its
definition (`Alias.Changes`): a plain alias is compiled by an access of its own, and a type function
remembers further results, each of a call that has succeeded (`Registry.keeps_enlarges`). -/

namespace NamedTypes

/-! ## Results and visits -/

namespace Visit

/-- The visit is a call of `a` that gives it an entry to remember: it is called with the instances
that the entry is for and comes to the result. -/
structure Supplies (a : Accessor) (e : List Nat × Normalized Generator) (v : Visit) : Prop where
  accessor_eq : v.accessor = a
  ids_eq : v.instances?.map (List.map Ty.id) = some e.1
  resolved_eq : v.resolved = .ok e.2

end Visit

/-- The first results of a log go before those of the next one. -/
theorem firstResult?_append (a : Accessor) (types : List Ty) (log log' : List Visit) :
    firstResult? a types (log ++ log') =
      (firstResult? a types log).or (firstResult? a types log') :=
  List.findSome?_append

/-- Further entries of a memo, all of them supplied by visits in a log; what was not remembered before
is now if it is the first result of its calls in the log. A function that remembers nothing goes on to
do so. -/
inductive Memo.Grows (a : Accessor) (log : List Visit) : Option Memo → Option Memo → Prop
  | without : Grows a log none none
  | adds (m : Memo) {new : List (List Nat × Normalized Generator)}
    (supplied : ∀ e ∈ new, ∃ v ∈ log, v.Supplies a e)
    (get?_eq : ∀ types, (⟨m.results ++ new⟩ : Memo).get? types =
      (m.get? types).or (firstResult? a types log)) :
    Grows a log (some m) (some ⟨m.results ++ new⟩)

namespace Memo.Grows

variable {a : Accessor} {log log' : List Visit} {memo memo' memo'' : Option Memo}

/-- A memo that has the first results of a log already has nothing to add. -/
theorem of_known (h : ∀ m, memo = some m → ∀ types,
    (m.get? types).or (firstResult? a types log) = m.get? types) : Grows a log memo memo := by
  cases memo with
  | none => exact .without
  | some m =>
    have hnothing : Grows a log (some m) (some ⟨m.results ++ []⟩) :=
      .adds m nofun fun types => by rw [h m rfl types, List.append_nil]
    rwa [List.append_nil] at hnothing

theorem trans (h : Grows a log memo memo') (h' : Grows a log' memo' memo'') :
    Grows a (log ++ log') memo memo'' := by
  cases h with
  | without =>
    cases h'
    exact .without
  | @adds m new supplied get?_eq =>
    cases h' with
    | @adds _ new' supplied' get?_eq' =>
      rw [List.append_assoc] at get?_eq' ⊢
      refine .adds m (List.forall_mem_append.2 ⟨fun e he => ?_, fun e he => ?_⟩) fun types => ?_
      · obtain ⟨v, hv, hsupplies⟩ := supplied e he
        exact ⟨v, List.mem_append_left _ hv, hsupplies⟩
      · obtain ⟨v, hv, hsupplies⟩ := supplied' e he
        exact ⟨v, List.mem_append_right _ hv, hsupplies⟩
      · rw [get?_eq', get?_eq, firstResult?_append, Option.or_assoc]

/-- The result of a call is inserted, unless there is one for its instances. -/
theorem insert {v : Visit} {types : List Ty} {x : Normalized Generator} (haccessor : v.accessor = a)
    (hgiven : v.instances? = some types) (hresolved : v.resolved = .ok x) (m : Memo) :
    Grows a [v] (some m) (some (m.insert types x)) := by
  have hget?_eq (others : List Ty) : (m.insert types x).get? others =
      (m.get? others).or (firstResult? a others [v]) := by
    rw [Memo.get?_insert, firstResult?, List.findSome?_singleton,
      Visit.resultOf?_of_ok haccessor hgiven hresolved]
  unfold Memo.insert at hget?_eq ⊢
  split at hget?_eq
  · exact .of_known fun m' hm' others => by
      obtain rfl := Option.some.inj hm'
      exact (hget?_eq others).symm
  · exact .adds m (List.forall_mem_singleton.2
      ⟨v, List.mem_cons_self, haccessor, by rw [hgiven]; rfl, hresolved⟩) hget?_eq

end Memo.Grows

namespace Registry

variable {fuel : Nat} {r r' r₁ : Registry} {a b : Accessor} {log log' : List Visit}

/-! ## Accesses add results -/

/-- A type function stays what it is, and may remember results of visits in a log. -/
def Enlarges (a : Accessor) (r : Registry) (log : List Visit) (r' : Registry) : Prop :=
  ∀ f memo, r.alias? a = some (.function f memo) →
    ∃ memo', r'.alias? a = some (.function f memo') ∧ Memo.Grows a log memo memo'

theorem enlarges_of_alias?_eq (h : r'.alias? a = r.alias? a) : Enlarges a r [] r' :=
  fun _ memo hf => ⟨memo, h.trans hf, .of_known fun _ _ _ => Option.or_none⟩

/-- Of plain aliases nothing is said. -/
theorem enlarges_of_plain {source : TypeExpr} {type : Option Ty}
    (entry : r.alias? a = some (.plain source type)) : Enlarges a r log r' := by
  intro f memo hf
  cases entry.symm.trans hf

theorem Enlarges.trans {r₂ : Registry} (h : Enlarges a r log r₁) (h' : Enlarges a r₁ log' r₂) :
    Enlarges a r (log ++ log') r₂ := by
  intro f memo hf
  obtain ⟨memo₁, hf₁, hgrows⟩ := h f memo hf
  obtain ⟨memo₂, hf₂, hgrows'⟩ := h' f memo₁ hf₁
  exact ⟨memo₂, hf₂, hgrows.trans hgrows'⟩

/-- What follows may leave the alias as it is. -/
theorem Enlarges.congr (h : Enlarges a r log r₁) (heq : r'.alias? a = r₁.alias? a) :
    Enlarges a r log r' := by
  rw [← List.append_nil log]
  exact h.trans (enlarges_of_alias?_eq heq)

/-- A visit that is no call with a result adds nothing. -/
theorem Enlarges.concat {v : Visit} (h : Enlarges a r log r')
    (hv : ∀ types, v.resultOf? a types = none) : Enlarges a r (log ++ [v]) r' := by
  intro f memo hf
  obtain ⟨memo', hf', hgrows⟩ := h f memo hf
  refine ⟨memo', hf', hgrows.trans (.of_known fun m _ types => ?_)⟩
  rw [firstResult?, List.findSome?_singleton, hv, Option.or_none]

/-- Resolving another alias leaves a type function to the bodies that run. -/
theorem admits_enlarges (hne : a ≠ b) : Admits (Enlarges a) b where
  count _ := enlarges_of_alias?_eq (alias?_count ..)
  note _ := enlarges_of_alias?_eq (alias?_note ..)
  keep := enlarges_of_alias?_eq (alias?_modifyAlias_of_ne hne _)
  remember := enlarges_of_alias?_eq (alias?_modifyAlias_of_ne hne _)

section Calls

variable {v : Visit} {types : List Ty} {x : Normalized Generator}

/-- A function that is to remember a result remembers it, unless there is one. -/
theorem enlarges_remember (haccessor : v.accessor = a) (hgiven : v.instances? = some types)
    (hresolved : v.resolved = .ok x) :
    Enlarges a r [v] (r.modifyAlias a (Alias.remember types x)) := by
  intro f memo hf
  cases memo with
  | none => exact ⟨none, alias?_modifyAlias_self hf _, .without⟩
  | some m =>
    exact ⟨some (m.insert types x), alias?_modifyAlias_self hf _,
      .insert haccessor hgiven hresolved m⟩

/-- A function that answers with what it remembers remembers nothing else. -/
theorem enlarges_of_found {f : Generator} {m : Memo}
    (entry : r.alias? a = some (.function f (some m)))
    (found : m.get? types = some x) (haccessor : v.accessor = a)
    (hgiven : v.instances? = some types) (hresolved : v.resolved = .ok x)
    (heq : r'.alias? a = r.alias? a) : Enlarges a r [v] r' := by
  intro f' memo hf
  refine ⟨memo, heq.trans hf, .of_known fun m' hm' others => ?_⟩
  subst hm'
  obtain ⟨-, hm⟩ := Alias.function.inj (Option.some.inj (entry.symm.trans hf))
  obtain rfl := Option.some.inj hm
  rw [firstResult?, List.findSome?_singleton, Visit.resultOf?_of_ok haccessor hgiven hresolved]
  split
  · next hids => rw [← Memo.get?_congr hids m, found, Option.some_or]
  · exact Option.or_none

/-- A call of the alias itself adds what its body does, and its own result. -/
theorem enlarges_of_resolves {inner : List Visit} (hW : (world fuel).Keeps (Enlarges v.accessor))
    (h : Resolves (world fuel) v.accessor v.arguments v.before.enter inner v.resolved r₁) :
    Enlarges v.accessor v.before (inner ++ [v]) r₁ := by
  have hbody {es : List TypeExpr} {types : List Ty} {function : Generator} {fields : Entries String}
      {s s' : Registry} {outcome : Except AliasError (Normalized Generator)}
      (compiles : (world fuel).CompilesAll es v.before.enter (.ok types) s)
      (applies : (world fuel).Applies function types
        ((s.count v.accessor.space .functionInvocations).note v.accessor.space .functionInvoked
          fields) inner outcome s') : Enlarges v.accessor v.before inner s' :=
    (enlarges_of_alias?_eq ((SameAliases.of_compilesAll compiles ..).alias?_eq _)).trans
      (hW.applies applies)
  generalize hresolved : v.resolved = resolved at h
  cases h with
  | overApplied entry | kept entry | compiled entry | faultySource entry =>
    exact enlarges_of_plain entry
  | undefined | misapplied =>
    exact (enlarges_of_alias?_eq rfl).concat fun _ => Visit.resultOf?_of_error hresolved
  | faultyParameter _ _ compiles =>
    exact (enlarges_of_alias?_eq (alias?_of_spaces (spaces_of_compilesAll compiles) _)).concat
      fun _ => Visit.resultOf?_of_error hresolved
  | remembered entry invocation stable compiles found =>
    exact enlarges_of_found entry found rfl
      (Visit.instances?_of_compilesAll invocation stable compiles) hresolved
      ((SameAliases.of_compilesAll compiles ..).alias?_eq _)
  | @ran _ memo call _ _ _ _ _ entry invocation compiles notFound applies =>
    cases stable : call.isStable with
    | true =>
      cases memo with
      | some m =>
        have hgiven := Visit.instances?_of_compilesAll invocation stable compiles
        exact (hbody compiles applies).trans (enlarges_remember rfl hgiven hresolved)
      | none =>
        -- a function that remembers nothing does not begin to
        obtain ⟨memo', hmemo', hgrows⟩ := hbody compiles applies _ _ entry
        cases hgrows
        intro f memo hf
        obtain ⟨rfl, rfl⟩ := Alias.function.inj (Option.some.inj (entry.symm.trans hf))
        exact ⟨none, hmemo', .without⟩
    | false =>
      exact (hbody compiles applies).concat fun _ =>
        Visit.resultOf?_of_unstable (Visit.instances?_of_unstable invocation stable)
  | failed _ _ compiles _ applies =>
    exact (hbody compiles applies).concat fun _ => Visit.resultOf?_of_error hresolved

end Calls

/-- **Accesses add results to what type functions remember, and take none away.** -/
theorem keeps_enlarges (fuel : Nat) (a : Accessor) : (world fuel).Keeps (Enlarges a) := by
  refine keeps_world (fun _ => enlarges_of_alias?_eq rfl) Enlarges.trans
    (fun _ _ => enlarges_of_alias?_eq rfl)
    (fun {_ b demand arguments r log answer r'} hW h => ?_) fuel
  obtain @⟨inner, resolved, _, r₁, resolves, -⟩ := h
  by_cases hb : b = a
  · subst hb
    exact (enlarges_of_resolves (v := ⟨b, demand, arguments, r, resolved, r.leave b answer r₁⟩) hW
      resolves).congr (alias?_leave ..)
  · have hinner : Enlarges a r.enter inner r₁ := resolves.keeps hW (admits_enlarges (Ne.symm hb))
    exact (Enlarges.congr hinner (alias?_leave ..)).concat fun _ => Visit.resultOf?_of_ne hb

end Registry

/-! ## Changes of aliases -/

/-- What accesses in a log can change of an alias. -/
inductive Alias.Changes (a : Accessor) (log : List Visit) : Alias → Alias → Prop
  /-- Nothing. -/
  | same (entry : Alias) : Changes a log entry entry
  /-- A plain alias keeps the type that the first successful access to it has answered with. -/
  | resolved {source : TypeExpr} {t : Ty} {v : Visit} (mem : v ∈ log) (isBare : v.isBare a = true)
    (isFirst : v.IsFirst a t) : Changes a log (.plain source none) (.plain source (some t))
  /-- A type function remembers the results of calls of it. -/
  | remembers {f : Generator} {memo memo' : Option Memo} (grows : Memo.Grows a log memo memo') :
    Changes a log (.function f memo) (.function f memo')

namespace Registry

variable {fuel : Nat} {r r' : Registry} {a : Accessor} {log : List Visit}

/-- Every alias stays declared, and changes as accesses in a log can change it. -/
def Alters (r : Registry) (log : List Visit) (r' : Registry) : Prop :=
  ∀ a, Option.Rel (Alias.Changes a log) (r.alias? a) (r'.alias? a)

/-- What keeps outlines, has stories and adds results changes aliases in no other way. -/
theorem alters_of (houtlines : r'.outlines = r.outlines)
    (htold : ∀ a source, Told a source r log r') (henlarges : ∀ a, Enlarges a r log r') :
    Alters r log r' := by
  intro a
  have hdefinition := definition?_of_outlines houtlines a
  cases hentry : r.alias? a with
  | none =>
    rw [definition?, definition?, hentry, Option.map_none, Option.map_eq_none_iff] at hdefinition
    rw [hdefinition]
    exact .none
  | some entry =>
    cases entry with
    | pending =>
      rw [definition?, definition?, hentry] at hdefinition
      obtain ⟨entry', hentry', hpending⟩ := Option.map_eq_some_iff.1 hdefinition
      cases entry' with
      | pending =>
        rw [hentry']
        exact .some (.same _)
      | plain | function => cases hpending
    | plain source kept =>
      obtain ⟨kept', hkept', hstory⟩ := htold a source kept hentry
      rw [hkept']
      obtain rfl | ⟨rfl, t, rfl, -, v, hv, hfirst⟩ := hstory.kept_cases
      · exact .some (.same _)
      · obtain ⟨hmem, hbare⟩ := List.mem_filter.1 hv
        exact .some (.resolved hmem hbare hfirst)
    | function f memo =>
      obtain ⟨memo', hmemo', hgrows⟩ := henlarges a f memo hentry
      rw [hmemo']
      exact .some (.remembers hgrows)

/-- What a literal leads to changes aliases as accesses do. -/
theorem Reads.alters {space : Nat} {prelude : Prelude} {literal : Json.Value}
    {outcome : Except AliasError TypeExpr}
    (h : Reads (world fuel) space prelude literal r log outcome r') : Alters r log r' :=
  alters_of (h.keeps (keeps_outlines fuel)) (fun a source => h.keeps (keeps_told fuel a source))
    fun a => h.keeps (keeps_enlarges fuel a)

/-- What follows may leave all aliases as they are. -/
theorem Alters.congr {r₁ : Registry} (h : Alters r log r₁) (heq : ∀ a, r'.alias? a = r₁.alias? a) :
    Alters r log r' := fun a => heq a ▸ h a

end Registry

end NamedTypes
