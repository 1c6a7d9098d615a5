import NamedTypes.Proofs.LifeCycle
import NamedTypes.Proofs.Progress
import NamedTypes.Proofs.SessionProvenance
import NamedTypes.Proofs.Transparency

/-! # Success is permanent
An accessor that was used with success will be used with success whenever the same is asked of it
again, and comes to a type that describes itself alike and accepts the same values
(`success_permanent`). Whatever is declared, bound and accessed meanwhile only adds definitions, and
a meaning without failing accesses stays what it is under further definitions (`within_of_grows`).
What is meant then comes about (`Registry.attains`), on whatever the registry keeps and remembers by
that time. -/

namespace NamedTypes

/-- What has a meaning was asked for with arguments that describe types, so these are alike to
themselves. -/
theorem arguments_alike_self {D : Definitions} {n : Nat} {a : Accessor} {demand : Demand}
    {es : List TypeExpr} {marks : List Mark} {x : Normalized Generator}
    (h : (meaning D n).accesses a demand es () marks (.ok x) ()) :
    List.Forall₂ TypeExpr.Alike es es := by
  cases n with
  | zero => exact h.elim
  | succ n =>
    cases h with
    | answered means answer_eq =>
      cases means with
      | undefined => cases answer_eq
      | plain definition means =>
        cases means with
        | overApplied => cases answer_eq
        | compiled arguments_eq_nil =>
          subst arguments_eq_nil
          exact .nil
      | function definition means =>
        cases means with
        | misapplied => cases answer_eq
        | faultyParameter => cases answer_eq
        | ran invocation validators_eq =>
          rcases es with _ | ⟨e, _ | ⟨e', es⟩⟩
          · exact .nil
          · cases e with
            | sequence items =>
              obtain rfl := Except.ok.inj invocation
              exact .cons (.sequence (Expr.alikes_self validators_eq)) .nil
            | leaf | record | generator | data => cases invocation
          · simp [Invocation.ofArguments] at invocation

theorem Grows.trans {D D' D'' : Definitions} (h : Grows D D') (h' : Grows D' D'') : Grows D D'' :=
  fun a d ha hd => h' a d (h a d ha hd) hd

namespace Registry

variable {K : Ty → Prop} {D D' : Definitions} {fuel : Nat} {r r' : Registry} {log : List Visit}
  {ops : List Operation} {steps : List (Except AliasError Outcome × Registry)}

/-! ## What is provided -/

/-- From some fuel on, an access answers with a type that is alike to `t`. -/
def Provides (r : Registry) (a : Accessor) (demand : Demand) (es : List TypeExpr) (t : Ty) : Prop :=
  ∃ needed, ∀ fuel, needed ≤ fuel →
    ∃ u r', access fuel a demand es r = some (.ok (.type u), r') ∧ t.Alike u

/-- Fit registries provide what is meant without failing accesses. -/
theorem Fit.provides (hD : ∀ a, Option.Rel Definition.Alike (D a) (D a)) (hr : Fit D r) {n : Nat}
    {a : Accessor} {demand : Demand} {es : List TypeExpr} {marks : List Mark} {t : Ty}
    (hes : r.Lasting fun K => ∀ e ∈ es, TypeExpr.Over K e)
    (h : (meaning D n).accesses a demand es () marks (.ok (.type t)) ())
    (hclean : .failed ∉ marks) : r.Provides a demand es t := by
  refine ⟨n, fun fuel hle => ?_⟩
  obtain ⟨log, answer, r', haccesses, -, halike⟩ :=
    (attains hD n hle).accesses hr (arguments_alike_self h) hes (.inl hclean) h
  obtain @⟨_, _, ⟨alike⟩⟩ := halike
  exact ⟨_, r', access_of_accesses haccesses, alike⟩

/-! ## Runs -/

/-- Sessions of users whose functions do what is determined by the structure of their arguments
leave a registry with such definitions, that keeps and remembers what they mean. -/
theorem History.matches_self (hK : ToldApart K) (h : History fuel ops r log steps)
    (hr : Matches K K r r) (hops : ∀ op ∈ ops, op.Alike op) (hlog : Regular K log) :
    Matches K K (r.after steps) (r.after steps) := by
  induction h with
  | nil => exact hr
  | cons first _ ih =>
    obtain ⟨hop, hops⟩ := List.forall_mem_cons.1 hops
    obtain ⟨hfirst, hrest⟩ := hlog.of_append
    exact ih (first.lockstep hK hK hr hop hfirst hfirst first).2 hops hrest

/-! ## What accesses meant -/

/-- The accesses in the log of an evaluation answered what was meant. -/
theorem keeps_meant (hK : ToldApart K) (D : Definitions) (fuel : Nat) :
    (world fuel).Keeps fun r log r' => Sound K D r → Regular K log →
      Sound K D r' ∧ ∀ v ∈ log, v.Meant D where
  refl _ hr _ := ⟨hr, List.forall_mem_nil _⟩
  trans h h' hr hlog := by
    obtain ⟨hfirst, hlast⟩ := hlog.of_append
    obtain ⟨hr', hmeant⟩ := h hr hfirst
    obtain ⟨hr'', hmeant'⟩ := h' hr' hlast
    exact ⟨hr'', List.forall_mem_append.2 ⟨hmeant, hmeant'⟩⟩
  makes h hr _ := ⟨hr.of_alias?_eq (alias?_of_spaces (of_makes h).2.2), List.forall_mem_nil _⟩
  accesses h hr hlog := by
    obtain ⟨_, _, -, hmirrors⟩ := (adequate_world hK D fuel).accesses hr hlog h
    exact ⟨hmirrors.sound, hmirrors.meant⟩
  calls h hr hlog := by
    obtain ⟨_, _, -, hmirrors⟩ := (adequate_world hK D fuel).calls hr hlog h
    exact ⟨hmirrors.sound, hmirrors.meant⟩

theorem Performs.meant (hK : ToldApart K) {op : Operation} {outcome : Except AliasError Outcome}
    (h : Performs fuel r op log outcome r') (hr : Sound K r.definition? r) (hlog : Regular K log) :
    ∀ v ∈ log, v.Meant r.definition? := by
  have hkeeps := keeps_meant hK r.definition? fuel
  cases h with
  | direct => exact List.forall_mem_nil _
  | readLiteral reads | bindLiteral reads | bindLiteralRejected reads | bindLiteralFailed reads =>
    exact (reads.keeps hkeeps hr hlog).2
  | use accesses => exact (hkeeps.accesses accesses hr hlog).2
  | call calls => exact (hkeeps.callsFunction calls hr hlog).2

/-- Operations only add definitions. -/
theorem Performs.grows {op : Operation} {outcome : Except AliasError Outcome}
    (h : Performs fuel r op log outcome r') : Grows r.definition? r'.definition? := by
  intro a d ha hd
  have hdefined : r.state a ≠ .unresolved := by
    obtain ⟨entry, hentry, rfl⟩ := Option.map_eq_some_iff.1 ha
    intro hunresolved
    refine state_eq_unresolved_iff.1 hunresolved entry hentry fun hpending => hd ?_
    rw [hpending]
    rfl
  rw [h.definition?_eq hdefined, ha]

/-- The accesses of a session were meant under definitions that only grew: from those before it to
those after it, and from each access to the later ones. All of these are alike to themselves. -/
theorem History.meant (hK : ToldApart K) (h : History fuel ops r log steps) (hr : Matches K K r r)
    (hops : ∀ op ∈ ops, op.Alike op) (hlog : Regular K log) :
    Grows r.definition? (r.after steps).definition? ∧
      (∀ v ∈ log, ∃ D, v.Meant D ∧ (∀ a, Option.Rel Definition.Alike (D a) (D a)) ∧
        Grows r.definition? D ∧ Grows D (r.after steps).definition?) ∧
      log.Pairwise fun v w => ∃ D D', v.Meant D ∧ w.Meant D' ∧ Grows D D' ∧
        ∀ a, Option.Rel Definition.Alike (D' a) (D' a) := by
  induction h with
  | nil => exact ⟨fun _ _ ha _ => ha, List.forall_mem_nil _, .nil⟩
  | @cons op ops r r' log log' outcome rest first others ih =>
    obtain ⟨hop, hops⟩ := List.forall_mem_cons.1 hops
    obtain ⟨hfirst, hrest⟩ := hlog.of_append
    have hr' := (first.lockstep hK hK hr hop hfirst hfirst first).2
    obtain ⟨hlater, hmeant', hpairs⟩ := ih hr' hops hrest
    have hmeant := first.meant hK hr.sound_left hfirst
    have hstays : Grows r.definition? r.definition? := fun _ _ ha _ => ha
    have hgrows : Grows r.definition? r'.definition? := first.grows
    refine ⟨hgrows.trans hlater, List.forall_mem_append.2 ⟨fun v hv => ?_, fun v hv => ?_⟩,
      List.pairwise_append.2 ⟨?_, hpairs, fun v hv w hw => ?_⟩⟩
    · exact ⟨r.definition?, hmeant v hv, hr.definitions, hstays, hgrows.trans hlater⟩
    · obtain ⟨D, hv, hself, hD, hD'⟩ := hmeant' v hv
      exact ⟨D, hv, hself, hgrows.trans hD, hD'⟩
    · -- one operation defines nothing while its accesses run
      exact List.pairwise_of_forall_mem_list fun v hv w hw =>
        ⟨r.definition?, r.definition?, hmeant v hv, hmeant w hw, hstays, hr.definitions⟩
    · obtain ⟨D, hw, hself, hD, -⟩ := hmeant' w hw
      exact ⟨r.definition?, D, hmeant v hv, hw, hgrows.trans hD, hself⟩

/-! ## Uses -/

/-- A use that came to a result is in the log. -/
theorem History.exists_visit (h : History fuel ops r log steps) {kind : AccessKind} {a : Accessor}
    {arguments : List TypeExpr} {x : Normalized Generator} {r₁ : Registry}
    (huse : (.use kind a arguments, .ok (.answer x), r₁) ∈ ops.zip steps) :
    ∃ v ∈ log, v.accessor = a ∧ v.demand = kind.demand ∧ v.arguments = kind.given arguments ∧
      v.answer = .ok x := by
  induction h with
  | nil => cases huse
  | cons first _ ih =>
    rw [List.zip_cons_cons, List.mem_cons] at huse
    obtain heq | huse := huse
    · obtain ⟨rfl, hstep⟩ := Prod.mk.inj heq
      obtain ⟨houtcome, rfl⟩ := Prod.mk.inj hstep
      cases first with
      | direct isDirect => cases isDirect
      | @use _ _ _ _ answer _ accesses =>
        obtain ⟨y, rfl⟩ : ∃ y, answer = .ok y := by
          cases answer with
          | ok y => exact ⟨y, rfl⟩
          | error error => cases houtcome
        obtain rfl := Outcome.answer.inj (Except.ok.inj houtcome)
        cases fuel with
        | zero => exact accesses.elim
        | succ fuel =>
          obtain @⟨_, _, _, _, -, hrequired⟩ := accesses
          exact ⟨_, List.mem_append_left _ (List.mem_append_right _ List.mem_cons_self), rfl, rfl,
            rfl, hrequired.symm⟩
    · obtain ⟨v, hv, hvisit⟩ := ih huse
      exact ⟨v, List.mem_append_right _ hv, hvisit⟩

/-! ## Permanence -/

/-- What holds at the end of a session, of everything that came to a type in its course. -/
structure Permanent (ops : List Operation) (log : List Visit)
    (steps : List (Except AliasError Outcome × Registry)) : Prop where
  /-- What users asked for with success, they get again. -/
  uses : ∀ kind a arguments t r,
    (.use kind a arguments, .ok (.answer (.type t)), r) ∈ ops.zip steps →
    ∃ needed, ∀ fuel, needed ≤ fuel →
      ∃ u r', a.use fuel kind arguments (after {} steps) = some (.ok (.type u), r') ∧ t.Alike u
  /-- So it is with what bodies and literals asked for. -/
  accesses : ∀ v ∈ log, ∀ t, v.answer = .ok (.type t) →
    (after {} steps).Provides v.accessor v.demand v.arguments t
  /-- Whatever was asked for again in the course of the session was answered again. -/
  repeated : log.Pairwise fun v w => w.accessor = v.accessor → w.demand = v.demand →
    w.arguments = v.arguments → ∀ t, v.answer = .ok (.type t) →
      ∃ u, w.answer = .ok (.type u) ∧ t.Alike u

/-- What has two meanings, of which the first is without failing accesses and under fewer
definitions, means alike things. -/
theorem alike_of_meant {v w : Visit} {t : Ty} (hgrows : Grows D D')
    (hself : ∀ a, Option.Rel Definition.Alike (D' a) (D' a)) (hv : v.Meant D) (hw : w.Meant D')
    (haccessor : w.accessor = v.accessor) (hdemand : w.demand = v.demand)
    (harguments : w.arguments = v.arguments) (ht : v.answer = .ok (.type t)) :
    ∃ u, w.answer = .ok (.type u) ∧ t.Alike u := by
  obtain ⟨n, marks, hmeant, hclean⟩ := hv
  obtain ⟨m, marks', hmeant', -⟩ := hw
  rw [haccessor, hdemand, harguments] at hmeant'
  have hsame := arguments_alike_self (ht ▸ hmeant)
  have hmeant₁ := (within_of_grows hgrows n).accesses
    (by rintro mark hmark rfl; exact hclean _ ht hmark) hmeant
  have halike := ((lockstep_meaning hself n m).accesses trivial hsame hmeant₁ hmeant' trivial).1
  rw [ht] at halike
  generalize w.answer = answer at halike ⊢
  obtain @⟨_, _, ⟨alike⟩⟩ := halike
  exact ⟨_, rfl, alike⟩

end Registry

/-- **A success is never taken back.** Let users perform a session, whatever their namespaces
remember and whatever fails on the way. Suppose that the type functions do what is determined by the
structure of their arguments and the answers to their accesses, that they pass on failures, as
strict functions do (`Registry.History.passesOn`), and that users and functions only use types that
have been made. Then whatever came to a type in the course of the session comes to an alike type
afterwards, and did whenever it was asked for again. -/
theorem success_permanent {fuel : Nat} {ops : List Operation}
    {steps : List (Except AliasError Outcome × Registry)}
    (hrun : Registry.performAll fuel ops {} = some steps) (halike : ∀ op ∈ ops, op.Alike op)
    (hover : ∀ op ∈ ops, (Registry.after {} steps).Lasting fun K => op.Over K)
    (hpasses : ∀ log, Registry.History fuel ops {} log steps → PassesOn log) :
    (∃ log, Registry.History fuel ops {} log steps) ∧
      ∀ log, Registry.History fuel ops {} log steps → Registry.Permanent ops log steps := by
  refine ⟨Registry.exists_history hrun, fun log h => ?_⟩
  let final := Registry.after {} steps
  have hK : ToldApart final.Made := Registry.toldApart_made final
  -- nothing but types that have been made occurs in the session
  have hyields (K : Ty → Prop) (hle : final.Made ≤ K) :=
    h.yields (.empty K) (fun op hop => hover op hop K hle) hle
  have hregular := Registry.regular_of_over (hpasses log h) (hyields _ le_rfl).2
  -- so the registry at its end keeps and remembers what is meant
  have hself := h.matches_self hK Registry.matches_empty halike hregular
  have hfit : Registry.Fit final.definition? final :=
    ⟨hself.sound_left, fun K hle => (hyields K hle).1⟩
  obtain ⟨-, hmeant, hpairs⟩ := h.meant hK Registry.matches_empty halike hregular
  have hprovides : ∀ v ∈ log, ∀ t, v.answer = .ok (.type t) →
      final.Provides v.accessor v.demand v.arguments t := by
    intro v hv t ht
    obtain ⟨D, ⟨n, marks, hmeans, hclean⟩, -, -, hgrows⟩ := hmeant v hv
    rw [ht] at hmeans
    have hclean := hclean _ ht
    refine hfit.provides hself.definitions (fun K hle => (hyields K hle).2 v hv)
      ((within_of_grows hgrows n).accesses ?_ hmeans) hclean
    rintro mark hmark rfl
    exact hclean hmark
  refine ⟨fun kind a arguments t r huse => ?_, hprovides, hpairs.imp ?_⟩
  · obtain ⟨v, hv, rfl, hdemand, harguments, ht⟩ := h.exists_visit huse
    obtain ⟨needed, hneeded⟩ := hprovides v hv t ht
    refine ⟨needed, fun fuel hle => ?_⟩
    obtain ⟨u, r', haccess, halike⟩ := hneeded fuel hle
    rw [hdemand, harguments] at haccess
    exact ⟨u, r', Accessor.use_of_access haccess, halike⟩
  · rintro v w ⟨D, D', hv, hw, hgrows, hself⟩ haccessor hdemand harguments t ht
    exact Registry.alike_of_meant hgrows hself hv hw haccessor hdemand harguments ht

/-- The type that an operation came to, if it did. -/
def Outcome.type? : Except AliasError Outcome → Option Ty
  | .ok (.answer (.type t)) => some t
  | _ => none

theorem Outcome.eq_of_type? {outcome : Except AliasError Outcome} {t : Ty}
    (h : Outcome.type? outcome = some t) : outcome = .ok (.answer (.type t)) := by
  rcases outcome with error | number | a | e | u | f <;> cases h
  rfl

/-- A function is applied with success, and then a name that is pending and one that is missing are
used: what came of the first use comes about again. -/
theorem tuple_stays_available :
    let int : Ty := ⟨0, .primitive .int⟩
    let tuple : Generator := .mk [] fun types => .finish (.sequence (types.map .leaf))
    let session : List Operation :=
      [.newType int.validator, .addSpace "main" { memoize := true },
        .bind 0 "Tuple" (.generator tuple), .use .apply ⟨0, "Tuple", 0⟩ [.leaf int, .leaf int],
        .declareForward 0 "Later", .use .get ⟨0, "Later", 0⟩ [], .use .get ⟨0, "Missing", 0⟩ []]
    ∃ steps, ∃ t : Ty, Registry.performAll 1 session {} = some steps ∧
      t.describe = "Tuple[Int, Int]" ∧
      ∃ needed, ∀ fuel, needed ≤ fuel →
        ∃ u r', Accessor.use fuel .apply [.leaf int, .leaf int] ⟨0, "Tuple", 0⟩
          (Registry.after {} steps) = some (.ok (.type u), r') ∧ t.Alike u := by
  intro int tuple session
  obtain ⟨steps, hrun, hfourth⟩ : ∃ steps, Registry.performAll 1 session {} = some steps ∧
      (steps[3]?.bind fun step => Outcome.type? step.1).map Ty.describe = some "Tuple[Int, Int]" :=
    Option.map_eq_some_iff.1 (by decide +kernel)
  obtain ⟨t, hfourth, hdescribe⟩ := Option.map_eq_some_iff.1 hfourth
  obtain ⟨⟨outcome, r⟩, hstep, htype⟩ := Option.bind_eq_some_iff.1 hfourth
  obtain rfl := Outcome.eq_of_type? htype
  have huse : (.use .apply ⟨0, "Tuple", 0⟩ [.leaf int, .leaf int], .ok (.answer (.type t)), r) ∈
      session.zip steps :=
    List.mem_of_getElem? (List.getElem?_zip_eq_some.2 ⟨rfl, hstep⟩)
  have hint : (Registry.after {} steps).Made int := by
    obtain ⟨log, hlog⟩ := Registry.exists_history hrun
    exact hlog.made_newType
  have hleaves : List.Forall₂ TypeExpr.Alike [.leaf int, .leaf int] [.leaf int, .leaf int] :=
    .cons (.leaf (Validator.Alike.refl _)) (.cons (.leaf (Validator.Alike.refl _)) .nil)
  have htuple : tuple.Alike tuple :=
    .mk .nil fun ts us h => .finish (.sequence (Expr.alike_leaves h))
  have halike : List.Forall₂ Operation.Alike session session :=
    .cons (.newType (Validator.Alike.refl _)) (.cons .addSpace
      (.cons (.bind (.generator htuple)) (.cons (.use hleaves)
        (.cons .declareForward (.cons (.use .nil) (.cons (.use .nil) .nil))))))
  have hover : ∀ op ∈ session, (Registry.after {} steps).Lasting fun K => op.Over K := by
    intro op hop K hK
    have hknown : K int := hK int hint
    have htuple : tuple.Over K :=
      .mk (List.forall_mem_nil _) fun ts hts => .finish (.sequence (Expr.over_leaves hts))
    simp only [session, List.mem_cons, List.not_mem_nil, or_false] at hop
    rcases hop with rfl | rfl | rfl | rfl | rfl | rfl | rfl
    · trivial
    · trivial
    · exact .generator htuple
    · intro e he
      obtain rfl : e = .leaf int := by simpa using he
      exact .leaf hknown
    · trivial
    · exact List.forall_mem_nil _
    · exact List.forall_mem_nil _
  have hstrict : tuple.Strict := .mk (List.forall_mem_nil _) fun _ => .finish
  have hpasses (log : List Visit) (hlog : Registry.History 1 session {} log steps) :
      PassesOn log := by
    refine hlog.passesOn ?_
    simp only [session, List.forall_mem_cons]
    exact ⟨trivial, trivial, TypeExpr.strict_generator hstrict, trivial, trivial, trivial, trivial,
      List.forall_mem_nil _⟩
  obtain ⟨⟨log, hlog⟩, hpermanent⟩ :=
    success_permanent hrun (List.forall₂_same.1 halike) hover hpasses
  exact ⟨steps, t, hrun, hdescribe, (hpermanent log hlog).uses .apply _ _ t r huse⟩

end NamedTypes
