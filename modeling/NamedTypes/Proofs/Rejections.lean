import NamedTypes.Proofs.AliasChanges
import NamedTypes.Proofs.FirstResult
import NamedTypes.Proofs.LiteralWalk

/-! # Rejected declarations
A declaration that is rejected declares nothing and defines nothing
(`rejected_declaration_defines_nothing`). Declaring a name ahead and binding it to an expression are
rejected for a collision only, and then leave every namespace as it was but for the number of errors
(`Registry.Collides`). Binding a name to a literal reads the literal before it can fail, so what the
accesses have changed by then stays; these are accesses of names in the literal, or were made by
bodies that these accesses have run (`Registry.Reads.comesOf`). -/

namespace NamedTypes

/-! ## Where visits come from -/

namespace Visit

/-- The visit was made by the body of a type function that a visit in a log has run. -/
def IsReached (log : List Visit) (v : Visit) : Prop :=
  ∃ u ∈ log, ∃ inner types, u.Runs inner types ∧ v ∈ inner

/-- The visit was made because of a literal: to find out what a name in it stands for, or by a body
that such a visit has run. -/
def ComesOf (space : Nat) (literal : Json.Value) (log : List Visit) (v : Visit) : Prop :=
  (∃ name ∈ literal.names, v.accessor = v.before.accessor space name) ∨ v.IsReached log

variable {space : Nat} {literal other : Json.Value} {log log' : List Visit} {v : Visit}

theorem ComesOf.mono (hle : log ⊆ log') (h : v.ComesOf space literal log) :
    v.ComesOf space literal log' :=
  h.imp_right fun ⟨u, hu, hruns⟩ => ⟨u, hle hu, hruns⟩

theorem ComesOf.of_part (hle : literal.names ⊆ other.names) (h : v.ComesOf space literal log) :
    v.ComesOf space other log :=
  h.imp_left fun ⟨name, hname, heq⟩ => ⟨name, hle hname, heq⟩

end Visit

/-- What holds of the entries that single steps make, with whatever log is around them, holds of the
entries that steps in turn make. -/
theorem InTurn.exists_of_mem {α β σ τ : Type} {step : α → σ → List τ → Except AliasError β → σ → Prop}
    {P : α → List τ → τ → Prop} (mono : ∀ {a log log' e}, log ⊆ log' → P a log e → P a log' e)
    {as : List α} {s s' : σ} {log : List τ} {outcome : Except AliasError (List β)}
    (h : InTurn step as s log outcome s')
    (hstep : ∀ a ∈ as, ∀ {s log outcome s'}, step a s log outcome s' → ∀ e ∈ log, P a log e) :
    ∀ e ∈ log, ∃ a ∈ as, P a log e := by
  have hfirst {a : α} {as : List α} {log : List τ} (log' : List τ) {e : τ} (h : P a log e) :
      ∃ b ∈ a :: as, P b (log ++ log') e :=
    ⟨a, List.mem_cons_self, mono (List.subset_append_left ..) h⟩
  have hrest {a : α} {as : List α} (log : List τ) {log' : List τ} {e : τ}
      (h : ∃ b ∈ as, P b log' e) : ∃ b ∈ a :: as, P b (log ++ log') e := by
    obtain ⟨b, hb, h⟩ := h
    exact ⟨b, List.mem_cons_of_mem _ hb, mono (List.subset_append_right ..) h⟩
  induction h with
  | nil => exact nofun
  | @failedFirst a _ _ _ _ _ first =>
    exact fun e he => ⟨a, List.mem_cons_self, hstep a List.mem_cons_self first e he⟩
  | cons first _ ih | failedRest first _ ih =>
    refine List.forall_mem_append.2 ⟨fun e he => ?_, fun e he => ?_⟩
    · exact hfirst _ (hstep _ List.mem_cons_self first e he)
    · exact hrest _ (ih (fun a ha => hstep a (List.mem_cons_of_mem _ ha)) e he)

namespace Registry

variable {fuel space : Nat} {name : String} {prelude : Prelude} {r r' r₁ : Registry}
  {log : List Visit} {error : AliasError}

/-- The visits that an access leads to are the access itself, and those of the body that it runs. -/
theorem origins_of_accesses {a : Accessor} {demand : Demand} {arguments : List TypeExpr}
    {answer : Except AliasError (Normalized Generator)}
    (h : (world fuel).accesses a demand arguments r log answer r') :
    ∀ v ∈ log, v.accessor = a ∧ v.before = r ∨ v.IsReached log := by
  cases fuel with
  | zero => exact h.elim
  | succ fuel =>
    obtain @⟨inner, resolved, _, r₁, resolves, -⟩ := h
    have hinner := resolves.runs_of_inner
      (v := ⟨a, demand, arguments, r, resolved, r.leave a answer r₁⟩) rfl
    refine List.forall_mem_append.2 ⟨fun v hv => ?_, List.forall_mem_singleton.2 (.inl ⟨rfl, rfl⟩)⟩
    obtain rfl | ⟨types, hruns⟩ := hinner
    · cases hv
    · exact .inr ⟨_, List.mem_append_right _ List.mem_cons_self, inner, types, hruns, hv⟩

/-- **The visits that a literal leads to** are accesses of its names, and those of the bodies that
they run. -/
theorem Reads.comesOf {v : Json.Value} : ∀ {r r' : Registry} {log : List Visit}
    {outcome : Except AliasError TypeExpr}, Reads (world fuel) space prelude v r log outcome r' →
      ∀ u ∈ log, u.ComesOf space v log := by
  have hmono {w : Json.Value} {log log' : List Visit} {u : Visit} (hle : log ⊆ log')
      (h : u.ComesOf space w log) : u.ComesOf space w log' := h.mono hle
  induction v using Json.Value.memberInduction with
  | null | bool value | number value =>
    intro r r' log outcome h
    cases h
    exact nofun
  | string name =>
    intro r r' log outcome h
    cases h with
    | declared _ accesses | failed _ accesses =>
      refine fun u hu => (origins_of_accesses accesses u hu).imp_left fun ⟨heq, hbefore⟩ => ?_
      exact ⟨name, by simp [Json.Value.names], hbefore ▸ heq⟩
    | supplied | unknown => exact nofun
  | array items ih =>
    intro r r' log outcome h
    cases h with
    | array hitems =>
      intro u hu
      -- every visit belongs to the reading of one item
      obtain ⟨w, hw, hcomes⟩ := InTurn.exists_of_mem (P := fun w log u => u.ComesOf space w log)
        hmono hitems (fun w hw => ih w hw) u hu
      refine hcomes.of_part fun name hname => ?_
      rw [Json.Value.names, Json.Value.namesOfItems_eq_flatMap]
      exact List.mem_flatMap.2 ⟨w, hw, hname⟩
  | object members ih =>
    intro r r' log outcome h
    cases h with
    | object hmembers =>
      intro u hu
      have hvalues : ∀ w ∈ members.map Prod.snd, ∀ {r log outcome r'},
          Reads (world fuel) space prelude w r log outcome r' →
            ∀ u ∈ log, u.ComesOf space w log := by
        intro w hw
        obtain ⟨m, hm, rfl⟩ := List.mem_map.1 hw
        exact ih m hm
      obtain ⟨w, hw, hcomes⟩ := InTurn.exists_of_mem (P := fun w log u => u.ComesOf space w log)
        hmono hmembers hvalues u hu
      obtain ⟨m, hm, rfl⟩ := List.mem_map.1 hw
      exact hcomes.of_part fun name hname => Json.Value.mem_names_object.2 ⟨m, hm, hname⟩

/-! ## Collisions -/

/-- A declaration is refused because its name has a definition. All names keep their slots, these hold
what they held, with all that is kept for it, and the failure is counted. -/
structure Collides (space : Nat) (name : String) (r : Registry) (error : AliasError)
    (r' : Registry) : Prop where
  error_eq : error = .nameCollision name
  isDefined : ∃ entry, r.alias? (r.accessor space name) = some entry ∧ entry.IsDefined
  slots_eq : r'.perSpace Namespace.slots = r.perSpace Namespace.slots
  tallies_eq : ∀ counter, r'.tallies counter =
    if counter = .errors then (r.tallies .errors).modify space (· + 1) else r.tallies counter

theorem collides_of_defined {entry : Alias} (isEntry : r.alias? (r.accessor space name) = some entry)
    (isDefined : entry.IsDefined) :
    Collides space name r (.nameCollision name)
      (r.noteFailure space name .bindingRejected (.nameCollision name)) where
  error_eq := rfl
  isDefined := ⟨entry, isEntry, isDefined⟩
  slots_eq := slots_noteFailure ..
  tallies_eq _ := tallies_noteFailure ..

/-! ## Refused literals -/

/-- A literal is not bound to a name. Nothing is declared or defined, and every name stands for the
slot that it stood for; aliases have changed only as accesses in the log change them, and these were
made because of the literal. -/
structure LeavesDefinitions (space : Nat) (literal : Json.Value) (r : Registry) (log : List Visit)
    (r' : Registry) : Prop where
  names_eq : ∀ other, r'.names other = r.names other
  accessor?_eq : ∀ other name, r'.accessor? other name = r.accessor? other name
  definition?_eq : ∀ a, r'.definition? a = r.definition? a
  alters : Alters r log r'
  comesOf : ∀ v ∈ log, v.ComesOf space literal log

theorem outlines_noteFailure (r : Registry) (space : Nat) (name : String) (event : Log.Event)
    (error : AliasError) : (r.noteFailure space name event error).outlines = r.outlines := by
  rw [noteFailure, outlines, perSpace_note]
  exact outlines_count (by decide) (by decide)

theorem Reads.leavesDefinitions {literal : Json.Value} {outcome : Except AliasError TypeExpr}
    (h : Reads (world fuel) space prelude literal r log outcome r₁)
    (houtlines : r'.outlines = r₁.outlines) (halias : ∀ a, r'.alias? a = r₁.alias? a) :
    LeavesDefinitions space literal r log r' where
  names_eq := names_of_outlines (houtlines.trans (h.keeps (keeps_outlines fuel)))
  accessor?_eq := accessor?_of_outlines (houtlines.trans (h.keeps (keeps_outlines fuel)))
  definition?_eq := definition?_of_outlines (houtlines.trans (h.keeps (keeps_outlines fuel)))
  alters := h.alters.congr halias
  comesOf := h.comesOf

/-- Whichever way a literal fails to be bound, all definitions are left. -/
theorem Performs.leavesDefinitions {literal : Json.Value}
    (h : Performs fuel r (.bindLiteral space name literal prelude) log (.error error) r') :
    LeavesDefinitions space literal r log r' := by
  generalize houtcome : (.error error : Except AliasError Outcome) = outcome at h
  cases h with
  | direct isDirect => cases isDirect
  | bindLiteral reads binds =>
    -- the name has a definition, which is found out when the literal has been read
    cases binds with
    | bound => cases houtcome
    | rejected =>
      exact reads.leavesDefinitions (outlines_noteFailure ..) fun _ => alias?_noteFailure ..
  | bindLiteralRejected reads =>
    exact reads.leavesDefinitions (outlines_noteFailure ..) fun _ => alias?_noteFailure ..
  | bindLiteralFailed reads => exact reads.leavesDefinitions rfl fun _ => rfl

end Registry

/-- **A rejected declaration defines nothing.** A name is refused by declaring it ahead or binding it
to an expression only if it has a definition; the error names it, and every name keeps what it stands
for and all that is kept and remembered for it. If a name is not bound to a literal, no name is
declared or defined. What has changed then is what the accesses that the literal led to have changed:
plain aliases keep the types that they have answered with, and type functions remember the results of
calls that succeeded. -/
theorem rejected_declaration_defines_nothing {fuel space : Nat} {name : String} {r r' : Registry}
    {error : AliasError} :
    (∀ op, (op = .declareForward space name ∨ ∃ source, op = .bind space name source) →
      Registry.perform fuel op r = some (.error error, r') →
        Registry.Collides space name r error r') ∧
    ∀ literal prelude,
      Registry.perform fuel (.bindLiteral space name literal prelude) r = some (.error error, r') →
        (∃ log, Registry.Performs fuel r (.bindLiteral space name literal prelude) log
          (.error error) r') ∧
        ∀ log, Registry.Performs fuel r (.bindLiteral space name literal prelude) log
          (.error error) r' → Registry.LeavesDefinitions space literal r log r' := by
  refine ⟨fun op hop h => ?_, fun literal prelude h => ?_⟩
  · -- the only rule with an error is that of names with a definition
    obtain rfl | ⟨source, rfl⟩ := hop
    · obtain ⟨outcome, hdeclare, houtcome⟩ := Action.map_cases h
      cases Registry.declaresForward_of hdeclare with
      | declared | pending => cases houtcome
      | rejected isEntry isDefined =>
        cases houtcome
        exact Registry.collides_of_defined isEntry isDefined
    · obtain ⟨outcome, hbind, houtcome⟩ := Action.map_cases h
      cases Registry.binds_of hbind with
      | bound => cases houtcome
      | rejected isEntry isDefined =>
        cases houtcome
        exact Registry.collides_of_defined isEntry isDefined
  · exact ⟨Registry.exists_performs h, fun log hlog => hlog.leavesDefinitions⟩

/-- A pair is compiled by a body before a literal meets a name that nobody knows, and keeps its type
although the literal is refused. To bind the pair again is refused as well. -/
theorem refused_literal_leaves_compiled_pair :
    let int : Ty := ⟨0, .primitive .int⟩
    let pair : Accessor := ⟨0, "Pair", 0⟩
    let ops : List Operation :=
      [.newType int.validator, .addSpace "main" .memoized,
        .bind 0 "Pair" (.sequence [.leaf int, .leaf int]),
        .bind 0 "Wrapped" (.generator (.mk [] fun _ => .access pair .type [] fun
          | .ok (.type t) => .finish (.sequence [.leaf t])
          | .ok (.function position) => .finish (.generator position)
          | .error error => .fail error))]
    let literal : Json.Value := .object [("a", .string "Wrapped"), ("b", .string "Nope")]
    ∃ steps, Registry.performAll 3 ops {} = some steps ∧
      (∃ r', Registry.perform 3 (.bind 0 "Pair" (.leaf int)) (Registry.after {} steps) =
          some (.error (.nameCollision "Pair"), r') ∧
        Registry.Collides 0 "Pair" (Registry.after {} steps) (.nameCollision "Pair") r') ∧
      ∃ r' log, Registry.perform 3 (.bindLiteral 0 "New" literal {}) (Registry.after {} steps) =
          some (.error (.unsupportedValidator "Nope"), r') ∧
        Registry.LeavesDefinitions 0 literal (Registry.after {} steps) log r' ∧
        ((Registry.after {} steps).state pair, r'.state pair) = (.bound, .resolved) := by
  intro int pair ops literal
  let failure : Except AliasError Outcome → Option AliasError := fun
    | .error error => some error
    | .ok _ => none
  have of_failure {outcome : Except AliasError Outcome} {error : AliasError}
      (h : failure outcome = some error) : outcome = .error error := by
    cases outcome with
    | ok => cases h
    | error => exact congrArg _ (Option.some.inj h)
  obtain ⟨steps, hrun, hend⟩ : ∃ steps, Registry.performAll 3 ops {} = some steps ∧
      ((Registry.perform 3 (.bind 0 "Pair" (.leaf int)) (Registry.after {} steps)).map
          fun p => failure p.1,
        (Registry.perform 3 (.bindLiteral 0 "New" literal {}) (Registry.after {} steps)).map
          fun p => (failure p.1, p.2.state pair), (Registry.after {} steps).state pair) =
        (some (some (.nameCollision "Pair")),
          some (some (.unsupportedValidator "Nope"), .resolved), .bound) :=
    Option.map_eq_some_iff.1 (by decide +kernel)
  obtain ⟨hcollides, hend⟩ := Prod.mk.inj hend
  obtain ⟨hrefused, hbefore⟩ := Prod.mk.inj hend
  refine ⟨steps, hrun, ?_, ?_⟩
  · obtain ⟨⟨outcome, r'⟩, hbind, herror⟩ := Option.map_eq_some_iff.1 hcollides
    obtain rfl := of_failure herror
    exact ⟨r', hbind, rejected_declaration_defines_nothing.1 _ (.inr ⟨_, rfl⟩) hbind⟩
  · obtain ⟨⟨outcome, r'⟩, hbind, hfails⟩ := Option.map_eq_some_iff.1 hrefused
    obtain ⟨herror, hafter⟩ := Prod.mk.inj hfails
    obtain rfl := of_failure herror
    obtain ⟨⟨log, hlog⟩, hall⟩ := rejected_declaration_defines_nothing.2 literal {} hbind
    exact ⟨r', log, hbind, hall log hlog, congrArg₂ _ hbefore hafter⟩

end NamedTypes
