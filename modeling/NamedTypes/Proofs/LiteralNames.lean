import NamedTypes.Proofs.Expansion
import NamedTypes.Proofs.LifeCycle

/-! # Names bound to literals
Giving a literal a name and using the name is the same as writing the literal out
(`literal_expansion`), as long as all names of a namespace stand for literals. A **glossary**
(`Registry.Glossary`) tells what the names of a namespace stand for. A literal is read as what it
describes with these names (`Registry.Glossary.reads`), and binding a name to a literal adds what
the literal describes to the glossary (`Registry.Glossary.perform`). -/

namespace NamedTypes

/-! ## What names are written out as -/

/-- The name and the literal, if the deed binds a name of a namespace to a literal. -/
def Deed.literal? (space : Nat) : Deed → Option (String × Json.Value)
  | ⟨.bindLiteral other name literal _, .ok _⟩ => if other = space then some (name, literal) else none
  | _ => none

/-- What names are written out as that are bound to literals in order: each literal is written out
with the names that were bound before. -/
def expansions (bindings : List (String × Json.Value)) : Entries Json.Value :=
  bindings.foldl (fun known b => (b.1, b.2.expand fun name => known.lookup name) :: known) []

/-- What the names of a namespace are written out as after deeds. -/
def expansionsOf (space : Nat) (done : List Deed) : Entries Json.Value :=
  expansions (done.filterMap (Deed.literal? space))

theorem expansionsOf_concat_some {space : Nat} {done : List Deed} {d : Deed} {name : String}
    {literal : Json.Value} (h : d.literal? space = some (name, literal)) :
    expansionsOf space (done ++ [d]) =
      (name, literal.expand fun name => (expansionsOf space done).lookup name) ::
        expansionsOf space done := by
  simp [expansionsOf, expansions, h]

theorem expansionsOf_concat_none {space : Nat} {done : List Deed} {d : Deed}
    (h : d.literal? space = none) : expansionsOf space (done ++ [d]) = expansionsOf space done := by
  simp [expansionsOf, h]

/-- What names stand for that are written out, where a prelude supplies the others. -/
def Prelude.glossary (prelude : Prelude) (written : Entries Json.Value) (name : String) :
    Option Validator :=
  (written.lookup name).elim (prelude.validator? name) (Json.Value.validator prelude.validator?)

namespace Registry

variable {fuel space : Nat} {name : String} {prelude : Prelude} {r r₀ r₁ r' : Registry}
  {log : List Visit} {names : String → Option Validator}

/-! ## Glossaries -/

/-- What a name stands for where its namespace reads literals: without entry, for what a prelude
supplies, and as a plain alias, for what its source describes. Nothing is said of pending names. -/
structure Stands (r : Registry) (prelude : Prelude) (a : Accessor) (v : Option Validator) :
    Prop where
  supplied : r.definition? a = none → v = prelude.validator? a.name
  plain : ∀ source, r.definition? a = some (.plain source) → v = source.validator.toOption
  noFunction : ∀ f, r.definition? a ≠ some (.function f)
  kept : ∀ source t, r.alias? a = some (.plain source (some t)) → source.validator = .ok t.validator

namespace Stands

variable {a : Accessor} {v : Option Validator}

/-- Where its definition stays, a name stands for what it did. -/
theorem advances (h : Stands r prelude a v) (hadvances : Advances a r log r') :
    Stands r' prelude a v where
  supplied hnone := h.supplied (hadvances.definition?_eq ▸ hnone)
  plain source hplain := h.plain source (hadvances.definition?_eq ▸ hplain)
  noFunction f hfunction := h.noFunction f (hadvances.definition?_eq ▸ hfunction)
  kept source t hkept := (hadvances.kept_cases source t hkept).elim (h.kept source t) id

theorem of_none (h : r.alias? a = none) (hname : a.name = name) :
    Stands r prelude a (prelude.validator? name) := by
  constructor <;> simp [definition?, h, hname]

theorem of_pending (h : r.alias? a = some .pending) : Stands r prelude a v := by
  constructor <;> simp [definition?, h, Alias.definition]

theorem of_plain {source : TypeExpr} (h : r.alias? a = some (.plain source none)) :
    Stands r prelude a source.validator.toOption := by
  constructor <;> simp [definition?, h, Alias.definition]

end Stands

/-- Reading a literal leaves what names stand for. -/
theorem Reads.definition?_eq {other : Nat} {v : Json.Value}
    {outcome : Except AliasError TypeExpr} (h : Reads (world fuel) other prelude v r log outcome r')
    (name : String) :
    r'.definition? (r'.accessor space name) = r.definition? (r.accessor space name) := by
  rw [accessor_of_outlines (h.keeps (keeps_outlines fuel))]
  exact (Advances.of_reads h).definition?_eq

/-- What the names of a namespace stand for where it reads literals. -/
def Glossary (r : Registry) (space : Nat) (prelude : Prelude) (names : String → Option Validator) :
    Prop :=
  ∀ name, Stands r prelude (r.accessor space name) (names name)

namespace Glossary

/-- Reading a literal leaves slots and definitions, and so it leaves a glossary. -/
theorem of_reads (h : Glossary r space prelude names) {other : Nat} {prelude' : Prelude}
    {v : Json.Value} {outcome : Except AliasError TypeExpr}
    (reads : Reads (world fuel) other prelude' v r log outcome r') :
    Glossary r' space prelude names := fun name => by
  rw [accessor_of_outlines (reads.keeps (keeps_outlines fuel))]
  exact (h name).advances (.of_reads reads)

/-- An access without arguments comes to what the name stands for. -/
theorem accesses (h : Glossary r space prelude names) {entry : Alias}
    (hentry : r.alias? (r.accessor space name) = some entry)
    {answer : Except AliasError (Normalized Generator)}
    (haccess : (world fuel).accesses (r.accessor space name) .type [] r log answer r') :
    (∀ t, answer = .ok (.type t) → names name = some t.validator) ∧
      ∀ error, answer = .error error → r.definition? (r.accessor space name) ≠ some .pending →
        names name = none := by
  cases fuel with
  | zero => exact haccess.elim
  | succ fuel =>
    obtain @⟨_, resolved, _, r₁, resolves, hanswer⟩ := haccess
    have hdefinition {d : Alias} (hd : r.enter.alias? (r.accessor space name) = some d) :
        r.definition? (r.accessor space name) = some d.definition := by
      change r.alias? (r.accessor space name) = some d at hd
      rw [definition?, hd]
      rfl
    cases resolves with
    | undefined undefined =>
      -- only pending names fail in spite of a declaration
      obtain rfl := undefined entry hentry
      refine ⟨fun t ht => ?_, fun _ _ hpending => absurd (hdefinition hentry) hpending⟩
      cases hanswer.symm.trans ht
    | overApplied _ hne => exact absurd rfl hne
    | @kept source t entry =>
      have hname := (h name).plain source (hdefinition entry)
      rw [(h name).kept source t entry] at hname
      refine ⟨fun u hu => ?_, fun error herror => ?_⟩
      · cases hanswer.symm.trans hu
        exact hname
      · cases hanswer.symm.trans herror
    | @compiled source t _ entry _ compiles =>
      have hname := (h name).plain source (hdefinition entry)
      rw [compiles.validator_eq (faithful_world fuel)] at hname
      refine ⟨fun u hu => ?_, fun error herror => ?_⟩
      · cases hanswer.symm.trans hu
        exact hname
      · cases hanswer.symm.trans herror
    | @faultySource source _ _ entry _ compiles =>
      have hname := (h name).plain source (hdefinition entry)
      rw [compiles.validator_eq (faithful_world fuel)] at hname
      refine ⟨fun u hu => ?_, fun _ _ _ => hname⟩
      cases hanswer.symm.trans hu
    | misapplied entry | faultyParameter entry | remembered entry | ran entry | failed entry =>
      exact absurd (hdefinition entry) ((h name).noFunction _)

/-- Only what succeeds is made into a success. -/
theorem exists_ok_of_map {α β : Type} {f : α → β} {outcome : Except AliasError α}
    (h : ∃ b, f <$> outcome = .ok b) : ∃ a, outcome = .ok a := by
  obtain ⟨b, hb⟩ := h
  cases outcome with
  | ok a => exact ⟨a, rfl⟩
  | error error => cases hb

theorem of_ok_or {α : Type} {error : AliasError} {p : Prop}
    (h : (∃ a : α, Except.error error = .ok a) ∨ p) : p := by
  rcases h with ⟨a, ha⟩ | h
  · cases ha
  · exact h

/-- What is read in turn describes what the parts describe. -/
theorem inTurn {vs : List Json.Value} {outcome : Except AliasError (List TypeExpr)}
    (hr : Glossary r space prelude names)
    (h : InTurn (Reads (world fuel) space prelude) vs r log outcome r')
    (hsure : (∃ es, outcome = .ok es) ∨ ∀ name, r.definition? (r.accessor space name) ≠ some .pending)
    (hstep : ∀ v ∈ vs, ∀ {r r' : Registry} {log : List Visit} {outcome : Except AliasError TypeExpr},
      Reads (world fuel) space prelude v r log outcome r' → Glossary r space prelude names →
      (∃ e, outcome = .ok e) ∨ (∀ name, r.definition? (r.accessor space name) ≠ some .pending) →
      (outcome >>= Expr.validator).toOption = v.validator names) :
    (outcome >>= Expr.validators).toOption = Json.Value.validators names vs ∧
      ∀ es, outcome = .ok es → vs.length = es.length := by
  -- parts before a failure were read, so a failure only matters where it happened
  induction h with
  | nil =>
    rw [Json.Value.validators]
    exact ⟨rfl, fun es hes => congrArg List.length (Except.ok.inj hes)⟩
  | @cons v vs e es _ _ _ _ _ first _ ih =>
    have hfirst := hstep v List.mem_cons_self first hr (.inl ⟨e, rfl⟩)
    obtain ⟨hrest, hlength⟩ := ih (hr.of_reads first) (.inl ⟨es, rfl⟩)
      fun w hw => hstep w (List.mem_cons_of_mem _ hw)
    rw [Json.Value.validators, ← hfirst, ← hrest]
    refine ⟨Expr.validators_cons (.ok e) (.ok es), fun es' hes => ?_⟩
    rw [← Except.ok.inj hes, List.length_cons, List.length_cons, hlength es rfl]
  | @failedFirst v _ _ _ _ _ first =>
    have hfirst := hstep v List.mem_cons_self first hr (.inr (of_ok_or hsure))
    rw [Json.Value.validators, ← hfirst]
    exact ⟨rfl, fun es hes => by cases hes⟩
  | @failedRest v vs e error _ _ _ _ _ first _ ih =>
    have hfirst := hstep v List.mem_cons_self first hr (.inl ⟨e, rfl⟩)
    have hpending := of_ok_or hsure
    have hlater (name : String) : _ ≠ _ := (first.definition?_eq name).trans_ne (hpending name)
    obtain ⟨hrest, -⟩ := ih (hr.of_reads first) (.inr hlater)
      fun w hw => hstep w (List.mem_cons_of_mem _ hw)
    rw [Json.Value.validators, ← hfirst, ← hrest]
    exact ⟨Expr.validators_cons (.ok e) (.error error), fun es hes => by cases hes⟩

/-- **A literal is read as what it describes** with the names of a glossary, if anything comes of the
reading or no name is pending. -/
theorem reads {v : Json.Value} : ∀ {r r' : Registry} {log : List Visit}
    {outcome : Except AliasError TypeExpr}, Reads (world fuel) space prelude v r log outcome r' →
      Glossary r space prelude names →
      (∃ e, outcome = .ok e) ∨ (∀ name, r.definition? (r.accessor space name) ≠ some .pending) →
      (outcome >>= Expr.validator).toOption = v.validator names := by
  induction v using Json.Value.memberInduction with
  | null | bool | number => rintro r _ _ _ ⟨⟩ - -; rw [Json.Value.validator]; rfl
  | string name =>
    intro r r' log outcome h hr hsure
    rw [Json.Value.validator]
    cases h with
    | declared entry accesses => exact ((hr.accesses entry accesses).1 _ rfl).symm
    | failed entry accesses =>
      have hpending := of_ok_or hsure
      exact ((hr.accesses entry accesses).2 _ rfl (hpending name)).symm
    -- what the namespace does not declare means what the prelude says
    | supplied noEntry supplied =>
      rw [(hr name).supplied (by rw [definition?, noEntry]; rfl), name_accessor, Prelude.validator?,
        supplied]
      rfl
    | unknown noEntry notSupplied =>
      rw [(hr name).supplied (by rw [definition?, noEntry]; rfl), name_accessor, Prelude.validator?,
        notSupplied]
      rfl
  | array items ih =>
    intro r r' log outcome h hr hsure
    rw [Json.Value.validator]
    cases h with
    | @array _ _ _ _ read hread =>
      have hsure' := hsure.imp_left exists_ok_of_map
      rw [← (hr.inTurn hread hsure' fun v hv => ih v hv).1]
      exact Expr.validator_sequence read
  | object members ih =>
    intro r r' log outcome h hr hsure
    rw [Json.Value.validator, Json.Value.memberValidators_eq]
    cases h with
    | @object _ _ _ _ read hread =>
      have hsure' := hsure.imp_left exists_ok_of_map
      obtain ⟨hvalues, hlength⟩ := hr.inTurn hread hsure' fun v hv => by
        obtain ⟨m, hm, rfl⟩ := List.mem_map.1 hv
        exact ih m hm
      rw [← hvalues]
      exact Expr.validator_record _ fun es hes => by
        rw [← hlength es hes, List.length_map, List.length_map]

end Glossary

/-! ## Reading always ends -/

theorem exists_bind {α β : Type} {x : Action α} {f : α → Action β} {outcome : Except AliasError α}
    (hx : x r = some (outcome, r₁))
    (hf : ∀ a, outcome = .ok a → ∃ result r', f a r₁ = some (result, r')) :
    ∃ result r', (x >>= f) r = some (result, r') := by
  rw [Action.bind_apply, hx]
  cases outcome with
  | ok a => exact hf a rfl
  | error error => exact ⟨_, _, rfl⟩

/-- A plain alias comes to an outcome without running anything. -/
theorem exists_forcePlain (a : Accessor) (source : TypeExpr) (r : Registry) :
    ∃ outcome r', forcePlain a source r = some (outcome, r') := by
  rw [forcePlain, read_bind_apply]
  cases hkept : (r.alias? a).bind Alias.type? with
  | some t => exact ⟨_, _, rfl⟩
  | none =>
    have hmade : ∃ outcome r₁, ((aliasCell a).force do
        modify fun r => r.count a.space .normalizations
        Action.normalizeType source) r = some (outcome, r₁) := by
      rw [Cell.force, read_bind_apply, hkept]
      refine exists_bind (Action.normalizeType_apply source _) fun t _ => ?_
      rw [read_bind_apply]
      cases Option.bind _ Alias.type? <;> exact ⟨_, _, rfl⟩
    obtain ⟨outcome, r₁, hmade⟩ := hmade
    exact exists_bind hmade fun t _ => ⟨_, _, rfl⟩

/-- An access without arguments to anything but a type function has an outcome. -/
theorem exists_access {a : Accessor} (h : ∀ f, r.definition? a ≠ some (.function f))
    (fuel : Nat) : ∃ answer r', access (fuel + 1) a .type [] r = some (answer, r') := by
  have hresolved : ∃ outcome r₁,
      resolveAlias (handler fuel) a [] r.enter = some (outcome, r₁) := by
    have hentered : r.enter.alias? a = r.alias? a := rfl
    rw [resolveAlias, Action.get_bind_apply]
    cases hentry : r.alias? a with
    | none =>
      simp only [hentered, hentry]
      exact ⟨_, _, rfl⟩
    | some entry =>
      simp only [hentered, hentry]
      cases entry with
      | pending => exact ⟨_, _, rfl⟩
      | plain source kept =>
        obtain ⟨outcome, r₁, hforce⟩ := exists_forcePlain a source r.enter
        exact exists_bind hforce fun t _ => ⟨_, _, rfl⟩
      | function f memo => exact absurd (by rw [definition?, hentry]; rfl) (h f)
  obtain ⟨outcome, r₁, hresolved⟩ := hresolved
  obtain ⟨answer, r₂, hanswer⟩ := exists_bind
    (f := fun answer => Action.ofExcept (Demand.type.require answer)) hresolved
    fun answer _ => ⟨_, _, rfl⟩
  refine ⟨answer, r.leave a answer r₂, ?_⟩
  change tracked a _ r = _
  rw [tracked_apply]
  exact congrArg (Option.map _) hanswer

/-- A namespace none of whose names stands for a type function. -/
def NoFunctions (r : Registry) (space : Nat) : Prop :=
  ∀ name f, r.definition? (r.accessor space name) ≠ some (.function f)

theorem NoFunctions.of_read (h : NoFunctions r space) {v : Json.Value}
    {outcome : Except AliasError TypeExpr}
    (hread : readLiteral fuel space v prelude r = some (outcome, r')) : NoFunctions r' space := by
  obtain ⟨log, reads⟩ := reads_of_read v hread
  exact fun name f hfunction => h name f ((reads.definition?_eq name).symm.trans hfunction)

/-- Reading a literal has an outcome where no name stands for a type function. -/
theorem exists_readLiteral (fuel : Nat) (prelude : Prelude) (v : Json.Value) :
    ∀ {r : Registry}, NoFunctions r space →
      ∃ outcome r', readLiteral (fuel + 1) space v prelude r = some (outcome, r') := by
  induction v using Json.Value.memberInduction with
  | null | bool | number => intro r _; rw [readLiteral, Literal.read]; exact ⟨_, _, rfl⟩
  | string name =>
    intro r h
    rw [readLiteral, Literal.read]
    have hknown : ∃ outcome r₁,
        declared? (fuel + 1) space name r = some (outcome, r₁) := by
      rw [declared?, Action.get_bind_apply]
      rw [accessor?_eq_map]
      cases r.alias? (r.accessor space name) with
      | none => exact ⟨_, _, rfl⟩
      | some entry =>
        obtain ⟨answer, r₁, haccess⟩ := exists_access (h name) fuel
        obtain ⟨called, r₂, hcall⟩ := exists_bind (f := fun answer =>
          Action.ofExcept answer.intoType) haccess fun answer _ => ⟨_, _, rfl⟩
        exact exists_bind hcall fun t _ => ⟨_, _, rfl⟩
    obtain ⟨outcome, r₁, hknown⟩ := hknown
    refine exists_bind hknown fun known _ => ?_
    cases known with
    | some t => exact ⟨_, _, rfl⟩
    | none => cases prelude.get? name <;> exact ⟨_, _, rfl⟩
  | array items ih =>
    intro r h
    -- the items are read in turn, and none of them makes a name a type function
    have hitems : ∃ outcome r₁, Literal.readItems (m := Action) (declared? (fuel + 1) space) prelude
        items r = some (outcome, r₁) := by
      induction items generalizing r with
      | nil => rw [Literal.readItems]; exact ⟨_, _, rfl⟩
      | cons v vs ihvs =>
        rw [Literal.readItems]
        obtain ⟨first, r₁, hfirst⟩ := ih v List.mem_cons_self h
        refine exists_bind hfirst fun e _ => ?_
        obtain ⟨rest, r₂, hrest⟩ := ihvs (fun w hw => ih w (List.mem_cons_of_mem _ hw))
          (h.of_read hfirst)
        exact exists_bind hrest fun es _ => ⟨_, _, rfl⟩
    obtain ⟨outcome, r₁, hitems⟩ := hitems
    rw [readLiteral, Literal.read]
    exact exists_bind hitems fun es _ => ⟨_, _, rfl⟩
  | object members ih =>
    intro r h
    have hmembers : ∃ outcome r₁, Literal.readMembers (m := Action) (declared? (fuel + 1) space)
        prelude members r = some (outcome, r₁) := by
      induction members generalizing r with
      | nil => rw [Literal.readMembers]; exact ⟨_, _, rfl⟩
      | cons m ms ihms =>
        rw [Literal.readMembers]
        obtain ⟨first, r₁, hfirst⟩ := ih m List.mem_cons_self h
        refine exists_bind hfirst fun e _ => ?_
        obtain ⟨rest, r₂, hrest⟩ := ihms (fun w hw => ih w (List.mem_cons_of_mem _ hw))
          (h.of_read hfirst)
        exact exists_bind hrest fun es _ => ⟨_, _, rfl⟩
    obtain ⟨outcome, r₁, hmembers⟩ := hmembers
    rw [readLiteral, Literal.read]
    exact exists_bind hmembers fun es _ => ⟨_, _, rfl⟩

/-! ## Binding names to literals -/

namespace Glossary

/-- Binding a name to a literal adds what the literal describes. -/
theorem bindLiteral {written : Entries Json.Value}
    (h : Glossary r space prelude (prelude.glossary written)) (hspace : (r.space? space).isSome)
    {literal : Json.Value} {x : Outcome}
    (performed : perform fuel (.bindLiteral space name literal prelude) r = some (.ok x, r')) :
    Glossary r' space prelude (prelude.glossary
      ((name, literal.expand fun name => written.lookup name) :: written)) := by
  intro other
  obtain ⟨log, hlog⟩ := exists_performs performed
  rw [hlog.accessor_eq]
  by_cases hother : other = name
  · subst hother
    obtain ⟨-, source, log, r₁, reads, hentry⟩ := of_bindLiteral_ok performed hspace
    have hread : source.validator.toOption = literal.validator (prelude.glossary written) :=
      h.reads reads (.inl ⟨source, rfl⟩)
    have hname : prelude.glossary
        ((other, literal.expand fun name => written.lookup name) :: written) other =
          source.validator.toOption := by
      rw [Prelude.glossary, List.lookup_cons_self, Option.elim_some,
        Json.Value.validator_expand, hread]
      rfl
    rw [hname]
    exact .of_plain hentry
  · have hname : prelude.glossary
        ((name, literal.expand fun name => written.lookup name) :: written) other =
          prelude.glossary written other := by
      rw [Prelude.glossary, List.lookup_cons, beq_false_of_ne hother]
      rfl
    rw [hname]
    cases hlog.affects (r.accessor space other) with
    | advances advances => exact (h other).advances advances
    | boundLiteral op_eq =>
      -- only the name that is bound gets a definition
      rw [space_accessor, name_accessor] at op_eq
      cases op_eq
      exact absurd rfl hother
    | declared op_eq | bound op_eq => cases op_eq

/-- What binds no name of the namespace leaves its glossary. -/
theorem perform (h : Glossary r space prelude names) {op : Operation}
    {outcome : Except AliasError Outcome} (performed : perform fuel op r = some (outcome, r'))
    (hnot : ∀ name, ¬ Deed.Defines space name ⟨op, outcome⟩) :
    Glossary r' space prelude names := by
  intro name
  obtain ⟨log, hlog⟩ := exists_performs performed
  rw [hlog.accessor_eq]
  cases hlog.affects (r.accessor space name) with
  | advances advances => exact (h name).advances advances
  | declared _ _ _ entry => exact .of_pending entry
  | bound op_eq | boundLiteral op_eq =>
    exact absurd ⟨by simp [op_eq, Operation.defines?], _, rfl⟩ (hnot name)

end Glossary

/-- **Deeds that bind names to literals only** leave what the names are written out as. -/
theorem Leads.glossary {done : List Deed} (h : Leads r₀ done r) (hspace : (r₀.space? space).isSome)
    (hnew : ∀ name, r₀.alias? (r₀.accessor space name) = none)
    (honly : ∀ d ∈ done, ∀ name, d.Defines space name →
      ∃ literal, d.op = .bindLiteral space name literal prelude) :
    Glossary r space prelude (prelude.glossary (expansionsOf space done)) := by
  induction h with
  | start => exact fun name => .of_none (hnew name) (name_accessor ..)
  | @next done fuel op outcome r₁ r₂ before performed ih =>
    have hr₁ := ih fun d hd => honly d (List.mem_append_left _ hd)
    have hlast := honly ⟨op, outcome⟩ (List.mem_append_right _ List.mem_cons_self)
    -- either the last deed writes out one more name, or all names mean what they meant
    by_cases hdefines : ∃ name, Deed.Defines space name ⟨op, outcome⟩
    · obtain ⟨name, hname⟩ := hdefines
      obtain ⟨literal, hop⟩ := hlast name hname
      obtain ⟨-, x, hx⟩ := hname
      obtain rfl : op = _ := hop
      obtain rfl : outcome = _ := hx
      have hliteral : Deed.literal? space ⟨.bindLiteral space name literal prelude, .ok x⟩ =
          some (name, literal) := if_pos rfl
      rw [expansionsOf_concat_some hliteral]
      exact hr₁.bindLiteral (before.isSome_space? hspace) performed
    · have hnone : Deed.literal? space ⟨op, outcome⟩ = none := by
        unfold Deed.literal?
        split
        · next other name literal prelude' x heq =>
          obtain ⟨rfl, rfl⟩ := Deed.mk.inj heq
          refine if_neg fun hother => hdefines ⟨name, ?_, x, rfl⟩
          rw [← hother]
          rfl
        · rfl
      rw [expansionsOf_concat_none hnone]
      exact hr₁.perform performed fun name hname => hdefines ⟨name, hname⟩

theorem of_performAll_cons {op : Operation} {ops : List Operation}
    {steps : List (Except AliasError Outcome × Registry)}
    (h : performAll fuel (op :: ops) r = some steps) :
    ∃ outcome r' rest, Registry.perform fuel op r = some (outcome, r') ∧
      performAll fuel ops r' = some rest ∧ steps = (outcome, r') :: rest := by
  obtain ⟨⟨outcome, r'⟩, hfirst, h⟩ := Option.bind_eq_some_iff.1 h
  obtain ⟨rest, hrest, h⟩ := Option.bind_eq_some_iff.1 h
  exact ⟨outcome, r', rest, hfirst, hrest, (Option.some.inj h).symm⟩

/-- An expression that is compiled at once comes to a type with its validator, or to none. -/
theorem exists_bind_normalizeType {x : Action TypeExpr} {outcome : Except AliasError TypeExpr}
    (hx : x r = some (outcome, r₁)) :
    ∃ result r', (x >>= Action.normalizeType) r = some (result, r') ∧
      result.toOption.map Ty.validator = (outcome >>= Expr.validator).toOption := by
  obtain ⟨result, r', h⟩ := exists_bind (f := Action.normalizeType) hx fun e _ =>
    ⟨_, _, Action.normalizeType_apply e r₁⟩
  refine ⟨result, r', h, ?_⟩
  rw [Action.bind_apply, hx] at h
  cases outcome with
  | error error =>
    obtain ⟨rfl, -⟩ := Prod.mk.inj (Option.some.inj h)
    rfl
  | ok e =>
    change _ = e.validator.toOption
    cases result with
    | ok t => rw [Action.validator_of_normalizeType h]; rfl
    | error error => rw [Action.error_of_normalizeType h]; rfl

end Registry

/-- **Naming literals is transparent.** Let the names of a namespace that had none be bound to
literals, with one prelude, whatever else is done; names may be declared ahead, but in the end all of
them are bound. Then reading a literal with the names of the namespace and the prelude and compiling
it ends, and it gives a type exactly if the literal that is written out gives one with the prelude
alone. The two types describe themselves alike and accept the same values. -/
theorem literal_expansion {r₀ r : Registry} {space : Nat} {n : Namespace} {prelude : Prelude}
    {done : List Deed} (hn : r₀.space? space = some n) (hempty : n.names = [])
    (h : Registry.Leads r₀ done r)
    (honly : ∀ d ∈ done, ∀ name, d.Defines space name →
      ∃ literal, d.op = .bindLiteral space name literal prelude)
    (hall : ∀ name, (∃ d ∈ done, d.Declares space name) →
      ∃ d ∈ done, d.Defines space name)
    (fuel : Nat) (literal : Json.Value) (s : Registry) :
    ∃ named r' written s',
      (Registry.readLiteral (fuel + 1) space literal prelude >>= Action.normalizeType) r =
        some (named, r') ∧
      (Action.ofExcept (prelude.read (literal.expand fun name =>
        (expansionsOf space done).lookup name)) >>= Action.normalizeType) s = some (written, s') ∧
      ((∃ t, named = .ok t) ↔ ∃ t, written = .ok t) ∧
      ∀ t u, named = .ok t → written = .ok u →
        t.describe = u.describe ∧ ∀ value, t.check value = u.check value := by
  have hspace : (r₀.space? space).isSome := Option.isSome_iff_exists.2 ⟨n, hn⟩
  have hnew := Registry.alias?_eq_none_of_names hn hempty
  have hr := h.glossary hspace hnew honly
  have hpending (name : String) : r.definition? (r.accessor space name) ≠ some .pending := by
    intro hname
    obtain ⟨entry, hentry, hdefinition⟩ := Option.map_eq_some_iff.1 hname
    -- a pending name was declared, so by now it was defined
    have hdeclared := (h.isSome_alias?_iff hspace (hnew name)).1 (by rw [hentry]; rfl)
    obtain ⟨d, hd, hdefines⟩ := hall name hdeclared
    have hunresolved : r.state (r.accessor space name) = .unresolved := by
      rw [Registry.state_of_alias? hentry]
      cases entry <;> first | rfl | cases hdefinition
    exact (h.state_eq_unresolved_iff hspace (hnew name)).1 hunresolved d hd hdefines
  -- no name stands for a type function, so reading ends, with what the names are written out as
  obtain ⟨outcome, r₁, hread⟩ :=
    Registry.exists_readLiteral fuel prelude literal fun name => (hr name).noFunction
  obtain ⟨log, reads⟩ := Registry.reads_of_read literal hread
  have hmeans := hr.reads reads (.inr hpending)
  obtain ⟨named, r', hnamed, hnamed'⟩ := Registry.exists_bind_normalizeType hread
  obtain ⟨written, s', hwritten, hwritten'⟩ := Registry.exists_bind_normalizeType
    (Action.ofExcept_apply (prelude.read (literal.expand fun name =>
      (expansionsOf space done).lookup name)) s)
  have hsame : named.toOption.map Ty.validator = written.toOption.map Ty.validator := by
    rw [hnamed', hwritten', hmeans, Prelude.validator_read, Json.Value.validator_expand]
    rfl
  refine ⟨named, r', written, s', hnamed, hwritten, ?_, ?_⟩
  · cases named <;> cases written <;> simp [Except.toOption] at hsame ⊢
  · rintro t u rfl rfl
    have hvalidator : t.validator = u.validator := Option.some.inj hsame
    refine ⟨?_, fun value => ?_⟩
    · rw [Ty.describe, Ty.describe, hvalidator]
    · rw [Ty.check, Ty.check, hvalidator]

/-- The prelude knows `Int`. A pair of these is named, and then a record of such pairs is named `Int`
itself, which later literals mean by that name; the pair stays one of integers. -/
theorem literal_expansion_of_hidden_name :
    let int : Ty := ⟨0, .primitive .int⟩
    let prelude : Prelude := Table.empty.insert "Int" int
    let r₀ := ((Registry.newType {} int.validator).2.addSpace "main" {}).2
    let pair : Json.Value := .array [.string "Int", .string "Int"]
    let literal : Json.Value := .array [.string "Int", .string "Pair"]
    ∃ x y r, let done : List Deed := [⟨.bindLiteral 0 "Pair" pair prelude, .ok x⟩,
        ⟨.bindLiteral 0 "Int" (.object [("pair", .string "Pair")]) prelude, .ok y⟩]
      Registry.Leads r₀ done r ∧
      literal.expand (fun name => (expansionsOf 0 done).lookup name) =
        .array [.object [("pair", pair)], pair] ∧
      ∃ t r' u s',
        (Registry.readLiteral 1 0 literal prelude >>= Action.normalizeType) r =
          some (.ok t, r') ∧
        (Action.ofExcept (prelude.read (.array [.object [("pair", pair)], pair])) >>=
          Action.normalizeType) r = some (.ok u, s') ∧
        t.describe = u.describe ∧ ∀ value, t.check value = u.check value := by
  intro int prelude r₀ pair literal
  obtain ⟨steps, hrun, hcomputed⟩ : ∃ steps, Registry.performAll 2
      [.bindLiteral 0 "Pair" pair prelude,
        .bindLiteral 0 "Int" (.object [("pair", .string "Pair")]) prelude] r₀ = some steps ∧
      (steps.map (fun step => step.1.isOk), steps.getLast?.bind fun step =>
        ((Registry.readLiteral 1 0 literal prelude >>= Action.normalizeType) step.2).map
          fun p => p.1.isOk) = ([true, true], some true) :=
    Option.map_eq_some_iff.1 (by decide +kernel)
  obtain ⟨o₁, r₁, rest, h₁, hrest, rfl⟩ := Registry.of_performAll_cons hrun
  obtain ⟨o₂, r₂, rest', h₂, hnil, rfl⟩ := Registry.of_performAll_cons hrest
  obtain rfl := Option.some.inj hnil
  obtain ⟨hok, hread⟩ := Prod.mk.inj hcomputed
  cases o₁ with
  | error error => cases hok
  | ok x =>
  cases o₂ with
  | error error => cases hok
  | ok y =>
  have h := (Registry.Leads.start.next h₁).next h₂
  obtain ⟨n, hn, hempty⟩ : ∃ n, r₀.space? 0 = some n ∧ n.names = [] := ⟨_, rfl, rfl⟩
  obtain ⟨named, r', written, s', hnamed, hwritten, hiff, hsame⟩ :=
    literal_expansion hn hempty h
      (by
        intro d hd name hdefines
        rcases List.mem_cons.1 hd with rfl | hd
        · cases hdefines.1
          exact ⟨_, rfl⟩
        · cases List.mem_singleton.1 hd
          cases hdefines.1
          exact ⟨_, rfl⟩)
      (by
        rintro name ⟨d, hd, hdeclares⟩
        refine ⟨d, hd, ?_⟩
        rcases List.mem_cons.1 hd with rfl | hd
        · exact ⟨hdeclares.1, x, rfl⟩
        · cases List.mem_singleton.1 hd
          exact ⟨hdeclares.1, y, rfl⟩)
      0 literal r₂
  replace hread : (((Registry.readLiteral 1 0 literal prelude >>= Action.normalizeType) r₂).map
      fun p => p.1.isOk) = some true := hread
  rw [hnamed] at hread
  cases named with
  | error error => cases hread
  | ok t =>
  obtain ⟨u, rfl⟩ := hiff.1 ⟨t, rfl⟩
  exact ⟨x, y, r₂, h, rfl, t, r', u, s', hnamed, hwritten, hsame t u rfl rfl⟩

end NamedTypes
