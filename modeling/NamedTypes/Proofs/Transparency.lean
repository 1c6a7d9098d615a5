import NamedTypes.Proofs.Matching
import NamedTypes.Proofs.StrictSessions

/-! # Remembering results is transparent
Whether type functions remember results makes no difference to users: sessions of alike operations
have alike outcomes and leave namespaces that look alike, whatever their configurations
(`memo_transparent`). A function that is not run again answers with the result of an earlier run,
made when fewer names were defined, and with types that another run would have made anew. The result
is still right since no access of that run failed. -/

namespace NamedTypes

/-! ## Alike sessions -/

/-- Alike operations: the same operation of the same names, with alike types, expressions and
functions. Namespaces may be added with different configurations. -/
inductive Operation.Alike : Operation → Operation → Prop
  | addSpace {name : String} {config config' : Config} :
    Alike (.addSpace name config) (.addSpace name config')
  | newType {v w : Validator} (validators : v.Alike w) : Alike (.newType v) (.newType w)
  | normalize {e e' : TypeExpr} (expressions : e.Alike e') : Alike (.normalize e) (.normalize e')
  | declareForward {space : Nat} {name : String} :
    Alike (.declareForward space name) (.declareForward space name)
  | bind {space : Nat} {name : String} {source source' : TypeExpr}
    (sources : source.Alike source') : Alike (.bind space name source) (.bind space name source')
  | bindLiteral {space : Nat} {name : String} {literal : Json.Value} {prelude prelude' : Prelude}
    (preludes : prelude.Alike prelude') :
    Alike (.bindLiteral space name literal prelude) (.bindLiteral space name literal prelude')
  | readLiteral {space : Nat} {literal : Json.Value} {prelude prelude' : Prelude}
    (preludes : prelude.Alike prelude') :
    Alike (.readLiteral space literal prelude) (.readLiteral space literal prelude')
  | lookup {space : Nat} {name : String} : Alike (.lookup space name) (.lookup space name)
  | use {kind : AccessKind} {a : Accessor} {arguments arguments' : List TypeExpr}
    (parameters : List.Forall₂ TypeExpr.Alike arguments arguments') :
    Alike (.use kind a arguments) (.use kind a arguments')
  | call {f g : Generator} {arguments arguments' : List TypeExpr} (functions : f.Alike g)
    (parameters : List.Forall₂ TypeExpr.Alike arguments arguments') :
    Alike (.call f arguments) (.call g arguments')

/-- Alike results: the same numbers and accessors, and alike types, expressions and functions. -/
inductive Outcome.Alike : Outcome → Outcome → Prop
  | space {number : Nat} : Alike (.space number) (.space number)
  | accessor {a : Accessor} : Alike (.accessor a) (.accessor a)
  | expression {e e' : TypeExpr} (expressions : e.Alike e') : Alike (.expression e) (.expression e')
  | answer {x y : Normalized Generator} (answers : Normalized.Alike Generator.Alike x y) :
    Alike (.answer x) (.answer y)

/-- Uses with alike arguments give the alias alike arguments. -/
theorem AccessKind.alike_given {R : Generator → Generator → Prop}
    {arguments arguments' : List TypeExpr} (h : List.Forall₂ (Expr.Alike R) arguments arguments')
    (kind : AccessKind) :
    List.Forall₂ (Expr.Alike R) (kind.given arguments) (kind.given arguments') := by
  cases kind with
  | get => exact .nil
  | apply => exact .cons (.sequence h) .nil
  | call | resolve => exact h

/-- What is asked of the accesses of a session: a body that made a failing access comes to a failure
as well, and types passed as parameters are told apart by their identities. -/
structure Lawful (log : List Visit) : Prop where
  passesOn : PassesOn log
  toldApart : ToldApart fun t => ∃ v ∈ log, v.Given t

namespace Registry

/-- Registries with the same names, which stand for the same slots, of which each has come equally
far, and with the same numbers of names declared ahead, definitions bound, plain aliases compiled and
failures reported. -/
structure Agree (r₁ r₂ : Registry) : Prop where
  names_eq : r₁.perSpace Namespace.names = r₂.perSpace Namespace.names
  accessor?_eq : ∀ space name, r₁.accessor? space name = r₂.accessor? space name
  state_eq : ∀ a, r₁.state a = r₂.state a
  counted_eq : ∀ space,
    ∀ counter ∈ [Counter.forwardDeclarations, .bindings, .normalizations, .errors],
      r₁.counted space counter = r₂.counted space counter

variable {K₁ K₂ : Ty → Prop} {r₁ r₂ r₁' r₂' : Registry}

/-- Matching registries agree. -/
theorem Matches.agree (h : Matches K₁ K₂ r₁ r₂) : Agree r₁ r₂ := by
  refine ⟨List.ext_getElem? fun space => ?_, h.accessor?_eq, h.state_eq,
    fun space counter hcounter => ?_⟩
  · rw [getElem?_perSpace, getElem?_perSpace]
    have hspace := h.isSome_space?_eq space
    cases h₁ : r₁.space? space with
    | none =>
      cases h₂ : r₂.space? space with
      | none => rfl
      | some n₂ => rw [h₁, h₂] at hspace; cases hspace
    | some n₁ =>
      cases h₂ : r₂.space? space with
      | none => rw [h₁, h₂] at hspace; cases hspace
      | some n₂ =>
        refine congrArg some (n₁.slots.ascending.keys_eq n₂.slots.ascending fun name => ?_)
        have hname := h.isSome_alias?_eq space name
        rw [alias?_accessor, alias?_accessor, Option.isSome_map, Option.isSome_map, slots?, slots?,
          h₁, h₂] at hname
        exact hname
  · by_cases hnormalizations : counter = .normalizations
    · subst hnormalizations
      exact h.normalizations_eq space
    · have hreported : counter ∈ reported := by
        simp only [List.mem_cons, List.not_mem_nil, or_false] at hcounter
        rcases hcounter with rfl | rfl | rfl | rfl
        · decide
        · decide
        · exact absurd rfl hnormalizations
        · decide
      rw [counted_eq, counted_eq, h.tallies_eq counter hreported]

/-! ## Operations in lockstep -/

theorem alike_accessor (a b : Accessor) (h : a = b) :
    Outcome.Alike (.accessor a) (.accessor b) := by
  rw [h]
  exact .accessor

/-- Alike operations that access no alias have alike outcomes on matching registries. -/
theorem lockstep_of_direct (hK₁ : ToldApart K₁) (hK₂ : ToldApart K₂) (h : Matches K₁ K₂ r₁ r₂)
    {op₁ op₂ : Operation} (hop : op₁.Alike op₂) (isDirect : op₁.isDirect = true)
    {fuel₁ fuel₂ : Nat} {o₁ o₂ : Except AliasError Outcome}
    (h₁ : perform fuel₁ op₁ r₁ = some (o₁, r₁')) (h₂ : perform fuel₂ op₂ r₂ = some (o₂, r₂')) :
    Likewise Outcome.Alike o₁ o₂ ∧ Matches K₁ K₂ r₁' r₂' := by
  have isDirect' : op₂.isDirect = true := by cases hop <;> exact isDirect
  have hdoes₁ := performsDirectly_of isDirect h₁
  have hdoes₂ := performsDirectly_of isDirect' h₂
  cases hop with
  | addSpace =>
    cases hdoes₁
    cases hdoes₂
    have hsize : r₁.spaces.size = r₂.spaces.size := by
      have hlength := congrArg List.length (h.tallies_eq .errors (by decide))
      simpa only [tallies, perSpace, List.length_map, Array.length_toList] using hlength
    refine ⟨.ok ?_, h.addSpace ..⟩
    change Outcome.Alike (.space r₁.spaces.size) (.space r₂.spaces.size)
    rw [hsize]
    exact .space
  | newType validators =>
    cases hdoes₁
    cases hdoes₂
    exact ⟨.ok (.answer (.type validators)), h.newType ..⟩
  | normalize expressions =>
    cases hdoes₁ with
    | normalize normalizes₁ =>
      cases hdoes₂ with
      | normalize normalizes₂ =>
        obtain ⟨houtcome, h'⟩ := (lockstep_world hK₁ hK₂ fuel₁ fuel₂).normalizes h expressions
          normalizes₁ normalizes₂
        exact ⟨houtcome.map fun _ _ => .answer, h'⟩
  | declareForward =>
    cases hdoes₁ with
    | declareForward declares₁ =>
      cases hdoes₂ with
      | declareForward declares₂ =>
        obtain ⟨houtcome, h'⟩ := declares₁.lockstep h declares₂
        exact ⟨houtcome.map alike_accessor, h'⟩
  | bind sources =>
    cases hdoes₁ with
    | bind binds₁ =>
      cases hdoes₂ with
      | bind binds₂ =>
        obtain ⟨houtcome, h'⟩ := binds₁.lockstep h sources binds₂
        exact ⟨houtcome.map alike_accessor, h'⟩
  | lookup =>
    cases hdoes₁ with
    | lookup looksUp₁ =>
      cases hdoes₂ with
      | lookup looksUp₂ =>
        obtain ⟨houtcome, h'⟩ := looksUp₁.lockstep h looksUp₂
        exact ⟨houtcome.map alike_accessor, h'⟩
  | bindLiteral | readLiteral | use | call => cases isDirect

/-- What accesses no alias has an empty log. -/
theorem Performs.perform_eq {fuel : Nat} {r r' : Registry} {op : Operation} {log : List Visit}
    {outcome : Except AliasError Outcome} (h : Performs fuel r op log outcome r')
    (isDirect : op.isDirect = true) : perform fuel op r = some (outcome, r') := by
  cases h with
  | direct _ performed => exact performed
  | _ => cases isDirect

/-- **Alike operations on matching registries have alike outcomes.** -/
theorem Performs.lockstep (hK₁ : ToldApart K₁) (hK₂ : ToldApart K₂) (h : Matches K₁ K₂ r₁ r₂)
    {op₁ op₂ : Operation} (hop : op₁.Alike op₂) {fuel₁ fuel₂ : Nat} {log₁ log₂ : List Visit}
    (hlog₁ : Regular K₁ log₁) (hlog₂ : Regular K₂ log₂) {o₁ o₂ : Except AliasError Outcome}
    (h₁ : Performs fuel₁ r₁ op₁ log₁ o₁ r₁') (h₂ : Performs fuel₂ r₂ op₂ log₂ o₂ r₂') :
    Likewise Outcome.Alike o₁ o₂ ∧ Matches K₁ K₂ r₁' r₂' := by
  by_cases hdirect : op₁.isDirect = true
  · -- without accesses, operations are functions of the registry
    have hdirect' : op₂.isDirect = true := by cases hop <;> exact hdirect
    exact lockstep_of_direct hK₁ hK₂ h hop hdirect (h₁.perform_eq hdirect) (h₂.perform_eq hdirect')
  cases hop with
  | addSpace | newType | normalize | declareForward | bind | lookup => exact absurd rfl hdirect
  | readLiteral preludes =>
    cases h₁ with
    | direct isDirect => cases isDirect
    | readLiteral reads₁ =>
      cases h₂ with
      | direct isDirect => cases isDirect
      | readLiteral reads₂ =>
        obtain ⟨houtcome, h'⟩ := reads₁.lockstep hK₁ hK₂ preludes h hlog₁ hlog₂ reads₂
        exact ⟨houtcome.map fun _ _ => .expression, h'⟩
  | bindLiteral preludes =>
    obtain ⟨_, _, _, reads₁, binds₁, rfl⟩ | ⟨_, _, reads₁, rfl, rfl⟩ := h₁.bindLiteral_cases
    · obtain ⟨_, _, _, reads₂, binds₂, rfl⟩ | ⟨_, _, reads₂, rfl, rfl⟩ := h₂.bindLiteral_cases
      · obtain ⟨⟨sources⟩, h'⟩ := reads₁.lockstep hK₁ hK₂ preludes h hlog₁ hlog₂ reads₂
        obtain ⟨houtcome, h''⟩ := binds₁.lockstep h' sources binds₂
        exact ⟨houtcome.map alike_accessor, h''⟩
      · obtain ⟨⟨⟩, -⟩ := reads₁.lockstep hK₁ hK₂ preludes h hlog₁ hlog₂ reads₂
    · obtain ⟨_, _, _, reads₂, -, rfl⟩ | ⟨_, _, reads₂, rfl, rfl⟩ := h₂.bindLiteral_cases
      · obtain ⟨⟨⟩, -⟩ := reads₁.lockstep hK₁ hK₂ preludes h hlog₁ hlog₂ reads₂
      · -- both literals are refused with the same error, so it is noted for both or for neither
        obtain ⟨⟨⟩, h'⟩ := reads₁.lockstep hK₁ hK₂ preludes h hlog₁ hlog₂ reads₂
        refine ⟨.error, ?_⟩
        split
        · exact h'.noteFailure ..
        · exact h'
  | use parameters =>
    cases h₁ with
    | direct isDirect => cases isDirect
    | use accesses₁ =>
      cases h₂ with
      | direct isDirect => cases isDirect
      | use accesses₂ =>
        obtain ⟨hanswer, h'⟩ := h.accesses hK₁ hK₂ (AccessKind.alike_given parameters _)
          hlog₁ hlog₂ accesses₁ accesses₂
        exact ⟨hanswer.map fun _ _ => .answer, h'⟩
  | call functions parameters =>
    cases h₁ with
    | direct isDirect => cases isDirect
    | call calls₁ =>
      cases h₂ with
      | direct isDirect => cases isDirect
      | call calls₂ =>
        obtain ⟨hanswer, h', -⟩ := (lockstep_world hK₁ hK₂ fuel₁ fuel₂).callsFunction h functions
          parameters calls₁ calls₂ ⟨hlog₁, hlog₂⟩
        exact ⟨hanswer.map fun _ _ => .answer, h'⟩

/-- Alike sessions on matching registries have alike outcomes, step by step. -/
theorem History.lockstep (hK₁ : ToldApart K₁) (hK₂ : ToldApart K₂) {ops₁ ops₂ : List Operation}
    (hops : List.Forall₂ Operation.Alike ops₁ ops₂) {fuel₁ fuel₂ : Nat} (h : Matches K₁ K₂ r₁ r₂)
    {log₁ log₂ : List Visit} (hlog₁ : Regular K₁ log₁) (hlog₂ : Regular K₂ log₂)
    {steps₁ steps₂ : List (Except AliasError Outcome × Registry)}
    (h₁ : History fuel₁ ops₁ r₁ log₁ steps₁) (h₂ : History fuel₂ ops₂ r₂ log₂ steps₂) :
    List.Forall₂ (fun step₁ step₂ => Likewise Outcome.Alike step₁.1 step₂.1 ∧
      Agree step₁.2 step₂.2) steps₁ steps₂ := by
  induction hops generalizing r₁ r₂ log₁ log₂ steps₁ steps₂ with
  | nil =>
    cases h₁
    cases h₂
    exact .nil
  | cons hop _ ih =>
    cases h₁ with
    | cons first₁ others₁ =>
      cases h₂ with
      | cons first₂ others₂ =>
        obtain ⟨hfirst₁, hrest₁⟩ := hlog₁.of_append
        obtain ⟨hfirst₂, hrest₂⟩ := hlog₂.of_append
        obtain ⟨houtcome, h'⟩ := first₁.lockstep hK₁ hK₂ h hop hfirst₁ hfirst₂ first₂
        exact .cons ⟨houtcome, h'.agree⟩ (ih h' hrest₁ hrest₂ others₁ others₂)

/-! ## Lawful sessions -/

/-- **Sessions of strict functions are lawful** if their users have no types but those that were
made. -/
theorem History.lawful {fuel : Nat} {ops : List Operation} {log : List Visit}
    {steps : List (Except AliasError Outcome × Registry)} (h : History fuel ops {} log steps)
    (hstrict : ∀ op ∈ ops, op.Strict) (hover : ∀ op ∈ ops, op.Over (after {} steps).Made) :
    Lawful log := by
  have hregular := regular_of_over (h.passesOn hstrict) (h.yields (.empty _) hover le_rfl).2
  exact ⟨hregular.passesOn, fun t u ⟨v, hv, ht⟩ ⟨w, hw, hu⟩ =>
    toldApart_made _ t u (hregular.given v hv t ht) (hregular.given w hw u hu)⟩

/-- Nothing has happened in the empty registry. -/
theorem matches_empty : Matches K₁ K₂ {} {} := by
  have hnone (a : Accessor) : ({} : Registry).alias? a = none := rfl
  exact ⟨rfl, rfl, fun _ _ => rfl, fun a => .none, rfl, fun _ _ => rfl, .of_none hnone,
    .of_none hnone⟩

end Registry

/-- **The memo is transparent.** Let two sessions perform alike operations, where the namespaces that
they add may be configured to remember results or not, and let both be lawful, as sessions of strict
functions are (`Registry.History.lawful`). Then the outcomes of every operation are the same error or
alike results, and the registries agree after it. Type functions among the results are alike too, so
this applies to whatever is done with them later. -/
theorem memo_transparent {fuel₁ fuel₂ : Nat} {ops₁ ops₂ : List Operation}
    {steps₁ steps₂ : List (Except AliasError Outcome × Registry)}
    (hops : List.Forall₂ Operation.Alike ops₁ ops₂)
    (hrun₁ : Registry.performAll fuel₁ ops₁ {} = some steps₁)
    (hrun₂ : Registry.performAll fuel₂ ops₂ {} = some steps₂)
    (lawful₁ : ∀ log, Registry.History fuel₁ ops₁ {} log steps₁ → Lawful log)
    (lawful₂ : ∀ log, Registry.History fuel₂ ops₂ {} log steps₂ → Lawful log) :
    List.Forall₂ (fun step₁ step₂ => Likewise Outcome.Alike step₁.1 step₂.1 ∧
      Registry.Agree step₁.2 step₂.2) steps₁ steps₂ := by
  obtain ⟨log₁, hlog₁⟩ := Registry.exists_history hrun₁
  obtain ⟨log₂, hlog₂⟩ := Registry.exists_history hrun₂
  obtain ⟨hpass₁, hK₁⟩ := lawful₁ log₁ hlog₁
  obtain ⟨hpass₂, hK₂⟩ := lawful₂ log₂ hlog₂
  have hregular₁ : Regular (fun t => ∃ v ∈ log₁, v.Given t) log₁ :=
    ⟨hpass₁, fun v hv t ht => ⟨v, hv, ht⟩⟩
  have hregular₂ : Regular (fun t => ∃ v ∈ log₂, v.Given t) log₂ :=
    ⟨hpass₂, fun v hv t ht => ⟨v, hv, ht⟩⟩
  exact hlog₁.lockstep hK₁ hK₂ hops Registry.matches_empty hregular₁ hregular₂ hlog₂

/-- A function of one parameter is applied twice, after it was used too early: where results are
remembered, it runs once, and otherwise twice. -/
theorem pair_remembered_or_not :
    let int : Ty := ⟨0, .primitive .int⟩
    let pair : Generator := .mk [] fun types => .finish (.sequence ((types ++ types).map .leaf))
    let a : Accessor := ⟨0, "Pair", 0⟩
    let session (memoize : Bool) : List Operation :=
      [.newType int.validator, .addSpace "main" { memoize }, .declareForward 0 "Pair",
        .use .apply a [.leaf int], .bind 0 "Pair" (.generator pair), .use .apply a [.leaf int],
        .use .apply a [.leaf int]]
    ∃ steps₁ steps₂, Registry.performAll 1 (session true) {} = some steps₁ ∧
      Registry.performAll 1 (session false) {} = some steps₂ ∧
      steps₁.map (fun step => step.2.counted 0 .functionInvocations) = [0, 0, 0, 0, 0, 1, 1] ∧
      steps₂.map (fun step => step.2.counted 0 .functionInvocations) = [0, 0, 0, 0, 0, 1, 2] ∧
      List.Forall₂ (fun step₁ step₂ => Likewise Outcome.Alike step₁.1 step₂.1 ∧
        Registry.Agree step₁.2 step₂.2) steps₁ steps₂ := by
  intro int pair a session
  have hrun (memoize : Bool) (counts : List Nat)
      (h : (Registry.performAll 1 (session memoize) {}).map
        (fun steps => steps.map fun step => step.2.counted 0 .functionInvocations) = some counts) :
      ∃ steps, Registry.performAll 1 (session memoize) {} = some steps ∧
        steps.map (fun step => step.2.counted 0 .functionInvocations) = counts :=
    Option.map_eq_some_iff.1 h
  obtain ⟨steps₁, hrun₁, hcounts₁⟩ := hrun true [0, 0, 0, 0, 0, 1, 1] (by decide +kernel)
  obtain ⟨steps₂, hrun₂, hcounts₂⟩ := hrun false [0, 0, 0, 0, 0, 1, 2] (by decide +kernel)
  have hint : List.Forall₂ TypeExpr.Alike [.leaf int] [.leaf int] :=
    .cons (.leaf (Validator.Alike.refl _)) .nil
  have hpair : pair.Alike pair :=
    .mk .nil fun ts us h => .finish (.sequence (Expr.alike_leaves (List.rel_append h h)))
  have hops : List.Forall₂ Operation.Alike (session true) (session false) :=
    .cons (.newType (Validator.Alike.refl _)) (.cons .addSpace (.cons .declareForward
      (.cons (.use hint) (.cons (.bind (.generator hpair)) (.cons (.use hint)
        (.cons (.use hint) .nil))))))
  have hlawful (memoize : Bool) (log : List Visit) (steps)
      (h : Registry.History 1 (session memoize) {} log steps) : Lawful log := by
    have hleaf : ∀ e ∈ [Expr.leaf int], TypeExpr.Over (Registry.after {} steps).Made e :=
      List.forall_mem_singleton.2 (.leaf h.made_newType)
    have hover : pair.Over (Registry.after {} steps).Made :=
      .mk (List.forall_mem_nil _) fun ts hts =>
        .finish (.sequence (Expr.over_leaves (List.forall_mem_append.2 ⟨hts, hts⟩)))
    have hstrict : pair.Strict := .mk (List.forall_mem_nil _) fun _ => .finish
    refine h.lawful ?_ ?_
    · simp only [session, List.forall_mem_cons]
      exact ⟨trivial, trivial, trivial, trivial, TypeExpr.strict_generator hstrict, trivial, trivial,
        List.forall_mem_nil _⟩
    · simp only [session, List.forall_mem_cons]
      exact ⟨trivial, trivial, trivial, hleaf, .generator hover, hleaf, hleaf,
        List.forall_mem_nil _⟩
  exact ⟨steps₁, steps₂, hrun₁, hrun₂, hcounts₁, hcounts₂, memo_transparent hops hrun₁ hrun₂
    (fun log => hlawful true log steps₁) fun log => hlawful false log steps₂⟩

end NamedTypes
