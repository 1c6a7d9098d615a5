import NamedTypes.Proofs.Lockstep
import NamedTypes.Proofs.Readings

/-! # What accesses mean
What an access comes to depends on definitions alone, and not on what aliases keep and remember. The
**meaning** of accesses (`meaning`) is the world of definitions in which nothing is kept: every call
of a type function runs it, and every access to a plain alias compiles it.

Alike definitions mean alike things, whatever instances are made on the way
(`lockstep_meaning`), and where no access failed, further definitions change nothing
(`within_of_grows`). -/

namespace NamedTypes

/-- What names stand for. -/
abbrev Definitions : Type := Accessor → Option Definition

/-- Alike definitions. -/
inductive Definition.Alike : Definition → Definition → Prop
  | pending : Alike .pending .pending
  | plain {source source' : TypeExpr} (sources : source.Alike source') :
    Alike (.plain source) (.plain source')
  | function {f g : Generator} (functions : f.Alike g) : Alike (.function f) (.function g)

/-- What is worth noting of an access. -/
inductive Mark
  /-- A plain alias was accessed without arguments. -/
  | touched (a : Accessor)
  /-- An access failed. -/
  | failed

/-! ## The rules of meanings -/

/-- What a plain alias means when it is invoked with a raw argument list. -/
inductive MeansPlain (a : Accessor) (source : TypeExpr) (arguments : List TypeExpr) :
    List Mark → Except AliasError (Normalized Generator) → Prop
  | overApplied (arguments_ne_nil : arguments ≠ []) :
    MeansPlain a source arguments [] (.error (.takesNoParameters a.name))
  | compiled {outcome : Except AliasError Ty} (arguments_eq_nil : arguments = [])
    (validator_eq : source.validator = Ty.validator <$> outcome) :
    MeansPlain a source arguments [.touched a] (.type <$> outcome)

/-- What a type function means when it is invoked with a raw argument list. -/
inductive MeansCall (W : World Unit Mark) (function : Generator) (arguments : List TypeExpr) :
    List Mark → Except AliasError (Normalized Generator) → Prop
  | misapplied {error : AliasError} (invocation : Invocation.ofArguments arguments = .error error) :
    MeansCall W function arguments [] (.error error)
  | faultyParameter {call : Invocation Generator} {error : AliasError}
    (invocation : Invocation.ofArguments arguments = .ok call)
    (validators_eq : Expr.validators call.parameters = .error error) :
    MeansCall W function arguments [] (.error error)
  | ran {call : Invocation Generator} {types : List Ty} {log : List Mark}
    {outcome : Except AliasError (Normalized Generator)}
    (invocation : Invocation.ofArguments arguments = .ok call)
    (validators_eq : Expr.validators call.parameters = .ok (types.map Ty.validator))
    (applies : W.Applies function types () log outcome ()) :
    MeansCall W function arguments log outcome

/-- What an alias means when it is invoked with a raw argument list. -/
inductive Means (D : Definitions) (W : World Unit Mark) (a : Accessor) (arguments : List TypeExpr) :
    List Mark → Except AliasError (Normalized Generator) → Prop
  | undefined (undefined : ∀ d, D a = some d → d = .pending) :
    Means D W a arguments [] (.error (.undefinedAlias a.name))
  | plain {source : TypeExpr} {log : List Mark} {outcome : Except AliasError (Normalized Generator)}
    (definition : D a = some (.plain source)) (means : MeansPlain a source arguments log outcome) :
    Means D W a arguments log outcome
  | function {f : Generator} {log : List Mark} {outcome : Except AliasError (Normalized Generator)}
    (definition : D a = some (.function f)) (means : MeansCall W f arguments log outcome) :
    Means D W a arguments log outcome

/-- The meaning of an access: the demand is made of what the alias means, and failures are marked. -/
inductive Answers (D : Definitions) (W : World Unit Mark) (a : Accessor) (demand : Demand)
    (arguments : List TypeExpr) : List Mark → Except AliasError (Normalized Generator) → Prop
  | answered {log : List Mark} {resolved : Except AliasError (Normalized Generator)}
    {answer : Normalized Generator} (means : Means D W a arguments log resolved)
    (answer_eq : resolved >>= demand.require = .ok answer) :
    Answers D W a demand arguments log (.ok answer)
  | failed {log : List Mark} {resolved : Except AliasError (Normalized Generator)}
    {error : AliasError} (means : Means D W a arguments log resolved)
    (answer_eq : resolved >>= demand.require = .error error) :
    Answers D W a demand arguments (log ++ [.failed]) (.error error)

/-- What definitions make of requests, where accesses and calls run inside each other as deeply as
the fuel tells. -/
def meaning (D : Definitions) : Nat → World Unit Mark
  | 0 =>
    { makes := fun validator _ t _ => t.validator = validator
      accesses := fun _ _ _ _ _ _ _ => False
      calls := fun _ _ _ _ _ _ => False }
  | fuel + 1 =>
    { makes := fun validator _ t _ => t.validator = validator
      accesses := fun a demand arguments _ log answer _ =>
        Answers D (meaning D fuel) a demand arguments log answer
      calls := (meaning D fuel).Calls }

variable {D D' : Definitions}

@[simp] theorem makes_meaning (D : Definitions) (fuel : Nat) (v : Validator) (s s' : Unit) (t : Ty) :
    (meaning D fuel).makes v s t s' ↔ t.validator = v := by
  cases fuel <;> rfl

theorem faithful_meaning (D : Definitions) (fuel : Nat) : (meaning D fuel).Faithful :=
  fun h => (makes_meaning ..).1 h

/-! ## More fuel -/

/-- What a world answers to an access, one that answers more does as well. -/
theorem Answers.within {W W' : World Unit Mark} (h : W.Within (fun _ => True) W') {a : Accessor}
    {demand : Demand} {arguments : List TypeExpr} {log : List Mark}
    {answer : Except AliasError (Normalized Generator)}
    (hanswers : Answers D W a demand arguments log answer) :
    Answers D W' a demand arguments log answer := by
  have hmeans {log outcome} (h' : Means D W a arguments log outcome) :
      Means D W' a arguments log outcome := by
    cases h' with
    | undefined undefined => exact .undefined undefined
    | plain definition means => exact .plain definition means
    | function definition means =>
      refine .function definition ?_
      cases means with
      | misapplied invocation => exact .misapplied invocation
      | faultyParameter invocation faulty => exact .faultyParameter invocation faulty
      | ran invocation compiled applies =>
        exact .ran invocation compiled (h.applies applies fun _ _ => trivial)
  cases hanswers with
  | answered means answer_eq => exact .answered (hmeans means) answer_eq
  | failed means answer_eq => exact .failed (hmeans means) answer_eq

/-- Whatever has a meaning with some fuel has it with more. -/
theorem within_succ (D : Definitions) (fuel : Nat) :
    (meaning D fuel).Within (fun _ => True) (meaning D (fuel + 1)) := by
  induction fuel with
  | zero => exact ⟨id, nofun, nofun⟩
  | succ fuel ih =>
    exact ⟨id, fun _ h => Answers.within ih h, fun hlog h => ih.callsFunction h hlog⟩

theorem within_of_le (D : Definitions) {fuel fuel' : Nat} (h : fuel ≤ fuel') :
    (meaning D fuel).Within (fun _ => True) (meaning D fuel') := by
  induction h with
  | refl => exact .refl _ _
  | step _ ih => exact ih.trans (within_succ D _)

/-! ## More definitions -/

/-- What is defined stays defined as it is. -/
def Grows (D D' : Definitions) : Prop := ∀ a d, D a = some d → d ≠ .pending → D' a = some d

/-- **Where no access failed, further definitions change nothing.** -/
theorem within_of_grows (h : Grows D D') (fuel : Nat) :
    (meaning D fuel).Within (· ≠ .failed) (meaning D' fuel) := by
  induction fuel with
  | zero => exact ⟨id, nofun, nofun⟩
  | succ fuel ih =>
    refine ⟨id, fun hlog hanswers => ?_, fun hlog hcalls => ih.callsFunction hcalls hlog⟩
    cases hanswers with
    | failed => exact absurd rfl (hlog .failed (List.mem_append_right _ List.mem_cons_self))
    | answered means answer_eq =>
      refine .answered ?_ answer_eq
      cases means with
      | undefined => cases answer_eq
      | plain definition means => exact .plain (h _ _ definition nofun) means
      | function definition means =>
        refine .function (h _ _ definition nofun) ?_
        cases means with
        | misapplied => cases answer_eq
        | faultyParameter => cases answer_eq
        | ran invocation compiled applies =>
          exact .ran invocation compiled (ih.applies applies hlog)

/-! ## Alike definitions -/

/-- Alike answers meet a demand alike. -/
theorem Demand.likewise_require (demand : Demand) {x y : Normalized Generator}
    (h : Normalized.Alike Generator.Alike x y) :
    Answer.Alike (demand.require x) (demand.require y) := by
  cases demand with
  | any => exact .ok h
  | type =>
    cases h with
    | type alike => exact .ok (.type alike)
    | function => exact .error

/-- Types with alike validators are alike. -/
theorem alike_types {ts us : List Ty} (h : List.Forall₂ Validator.Alike (ts.map Ty.validator)
    (us.map Ty.validator)) : List.Forall₂ Ty.Alike ts us := by
  rwa [List.forall₂_map_left_iff, List.forall₂_map_right_iff] at h

section Lockstep

variable {W W' : World Unit Mark} {a : Accessor} {arguments arguments' : List TypeExpr}
  {log log' : List Mark} {o o' : Except AliasError (Normalized Generator)}

theorem MeansPlain.lockstep {source source' : TypeExpr} (hsource : source.Alike source')
    (harguments : List.Forall₂ TypeExpr.Alike arguments arguments')
    (h : MeansPlain a source arguments log o) (h' : MeansPlain a source' arguments' log' o') :
    Answer.Alike o o' ∧ log = log' := by
  cases h with
  | overApplied hne =>
    cases h' with
    | overApplied => exact ⟨.error, rfl⟩
    | compiled hnil =>
      subst hnil
      exact absurd (List.forall₂_nil_right_iff.1 harguments) hne
  | compiled hnil validator_eq =>
    cases h' with
    | overApplied hne =>
      subst hnil
      exact absurd (List.forall₂_nil_left_iff.1 harguments) hne
    | compiled _ validator_eq' =>
      have hvalidator := hsource.validator
      rw [validator_eq, validator_eq'] at hvalidator
      have htypes : Likewise Ty.Alike _ _ := hvalidator.of_map fun _ _ => id
      exact ⟨htypes.map fun _ _ => .type, rfl⟩

theorem MeansCall.lockstep {f g : Generator} (hfg : f.Alike g)
    (harguments : List.Forall₂ TypeExpr.Alike arguments arguments')
    (hW : W.Lockstep W' (fun _ _ => True) (fun _ _ => True) Eq)
    (h : MeansCall W f arguments log o) (h' : MeansCall W' g arguments' log' o') :
    Answer.Alike o o' ∧ log = log' := by
  have hinvocation := Invocation.likewise_ofArguments harguments
  have hvalidators {call call'} (hcall : Invocation.ofArguments arguments = .ok call)
      (hcall' : Invocation.ofArguments arguments' = .ok call') :
      Likewise (List.Forall₂ Validator.Alike) (Expr.validators call.parameters)
        (Expr.validators call'.parameters) := by
    rw [hcall, hcall'] at hinvocation
    obtain ⟨⟨⟩ | ⟨parameters⟩⟩ := hinvocation
    · exact .ok .nil
    · exact Expr.likewise_validators parameters fun e _ e' he => he.validator
  -- arguments alone decide how far each call gets, so alike calls get equally far
  cases h with
  | misapplied invocation =>
    cases h' with
    | misapplied invocation' =>
      rw [invocation, invocation'] at hinvocation
      cases hinvocation
      exact ⟨.error, rfl⟩
    | faultyParameter invocation' | ran invocation' =>
      rw [invocation, invocation'] at hinvocation
      cases hinvocation
  | faultyParameter invocation faulty =>
    cases h' with
    | misapplied invocation' =>
      rw [invocation, invocation'] at hinvocation
      cases hinvocation
    | faultyParameter invocation' faulty' =>
      have hboth := hvalidators invocation invocation'
      rw [faulty, faulty'] at hboth
      cases hboth
      exact ⟨.error, rfl⟩
    | ran invocation' compiled' =>
      have hboth := hvalidators invocation invocation'
      rw [faulty, compiled'] at hboth
      cases hboth
  | ran invocation compiled applies =>
    cases h' with
    | misapplied invocation' =>
      rw [invocation, invocation'] at hinvocation
      cases hinvocation
    | faultyParameter invocation' faulty' =>
      have hboth := hvalidators invocation invocation'
      rw [compiled, faulty'] at hboth
      cases hboth
    | ran invocation' compiled' applies' =>
      have hboth := hvalidators invocation invocation'
      rw [compiled, compiled'] at hboth
      obtain ⟨hboth⟩ := hboth
      obtain ⟨houtcome, -, hlog⟩ :=
        hW.applies trivial hfg (alike_types hboth) applies applies' trivial
      exact ⟨houtcome, hlog⟩

theorem Means.lockstep (hD : ∀ a, Option.Rel Definition.Alike (D a) (D' a))
    (harguments : List.Forall₂ TypeExpr.Alike arguments arguments')
    (hW : W.Lockstep W' (fun _ _ => True) (fun _ _ => True) Eq)
    (h : Means D W a arguments log o) (h' : Means D' W' a arguments' log' o') :
    Answer.Alike o o' ∧ log = log' := by
  -- both aliases are undefined, both plain or both functions
  have ha := hD a
  cases h with
  | undefined undefined =>
    cases h' with
    | undefined => exact ⟨.error, rfl⟩
    | plain definition' | function definition' =>
      rw [definition'] at ha
      generalize hd : D a = d at ha
      cases ha with
      | some alike => cases undefined _ hd; cases alike
  | plain definition means =>
    rw [definition] at ha
    cases h' with
    | undefined undefined' =>
      generalize hd : D' a = d at ha
      cases ha with
      | some alike => cases undefined' _ hd; cases alike
    | plain definition' means' =>
      rw [definition'] at ha
      obtain ⟨_ | ⟨sources⟩⟩ := ha
      exact means.lockstep sources harguments means'
    | function definition' =>
      rw [definition'] at ha
      obtain ⟨⟨⟩⟩ := ha
  | function definition means =>
    rw [definition] at ha
    cases h' with
    | undefined undefined' =>
      generalize hd : D' a = d at ha
      cases ha with
      | some alike => cases undefined' _ hd; cases alike
    | plain definition' =>
      rw [definition'] at ha
      obtain ⟨⟨⟩⟩ := ha
    | function definition' means' =>
      rw [definition'] at ha
      obtain ⟨_ | _ | ⟨functions⟩⟩ := ha
      exact means.lockstep functions harguments hW means'

theorem Answers.lockstep {demand : Demand} (hD : ∀ a, Option.Rel Definition.Alike (D a) (D' a))
    (harguments : List.Forall₂ TypeExpr.Alike arguments arguments')
    (hW : W.Lockstep W' (fun _ _ => True) (fun _ _ => True) Eq)
    (h : Answers D W a demand arguments log o) (h' : Answers D' W' a demand arguments' log' o') :
    Answer.Alike o o' ∧ log = log' := by
  cases h with
  | answered means answer_eq =>
    cases h' with
    | answered means' answer_eq' =>
      obtain ⟨hresolved, rfl⟩ := means.lockstep hD harguments hW means'
      have hanswer := hresolved.bind fun _ _ => demand.likewise_require
      rw [answer_eq, answer_eq'] at hanswer
      exact ⟨hanswer, rfl⟩
    | failed means' answer_eq' =>
      obtain ⟨hresolved, rfl⟩ := means.lockstep hD harguments hW means'
      have hanswer := hresolved.bind fun _ _ => demand.likewise_require
      rw [answer_eq, answer_eq'] at hanswer
      cases hanswer
  | failed means answer_eq =>
    cases h' with
    | answered means' answer_eq' =>
      obtain ⟨hresolved, rfl⟩ := means.lockstep hD harguments hW means'
      have hanswer := hresolved.bind fun _ _ => demand.likewise_require
      rw [answer_eq, answer_eq'] at hanswer
      cases hanswer
    | failed means' answer_eq' =>
      obtain ⟨hresolved, rfl⟩ := means.lockstep hD harguments hW means'
      have hanswer := hresolved.bind fun _ _ => demand.likewise_require
      rw [answer_eq, answer_eq'] at hanswer
      exact ⟨hanswer, rfl⟩

end Lockstep

/-- **Alike definitions mean alike things**, and the same marks are made on the way. -/
theorem lockstep_meaning (hD : ∀ a, Option.Rel Definition.Alike (D a) (D' a)) (fuel fuel' : Nat) :
    (meaning D fuel).Lockstep (meaning D' fuel') (fun _ _ => True) (fun _ _ => True) Eq := by
  induction fuel generalizing fuel' with
  | zero =>
    refine ⟨fun _ => ⟨trivial, trivial⟩, rfl, fun h h' => by rw [h, h'], fun _ h h' => ?_,
      nofun, nofun⟩
    exact ⟨(makes_meaning ..).1 h, (makes_meaning ..).1 h', trivial⟩
  | succ fuel ih =>
    refine ⟨fun _ => ⟨trivial, trivial⟩, rfl, fun h h' => by rw [h, h'], fun _ h h' => ?_,
      fun _ harguments h h' _ => ?_, fun _ hfg harguments h h' _ => ?_⟩
    · exact ⟨(makes_meaning ..).1 h, (makes_meaning ..).1 h', trivial⟩
    · cases fuel' with
      | zero => exact h'.elim
      | succ fuel' =>
        obtain ⟨hanswer, hlog⟩ := h.lockstep hD harguments (ih fuel') h'
        exact ⟨hanswer, trivial, hlog⟩
    · cases fuel' with
      | zero => exact h'.elim
      | succ fuel' => exact (ih fuel').callsFunction trivial hfg harguments h h' trivial

/-! ## Plain aliases that were touched -/

/-- Whether a name stands for an expression that describes a type. -/
def Definitions.compiles (D : Definitions) (a : Accessor) : Bool :=
  match D a with
  | some (.plain source) => source.validator.isOk
  | _ => false

theorem Definitions.compiles_of_plain {D : Definitions} {a : Accessor} {source : TypeExpr}
    (h : D a = some (.plain source)) : D.compiles a = source.validator.isOk := by
  rw [compiles, h]

/-- Where no access failed, the plain aliases that were accessed describe types. -/
theorem keeps_touched (D : Definitions) (fuel : Nat) :
    (meaning D fuel).Keeps fun _ log _ =>
      .failed ∉ log → ∀ a, .touched a ∈ log → D.compiles a = true := by
  have htrans {log log' : List Mark}
      (h : .failed ∉ log → ∀ a, .touched a ∈ log → D.compiles a = true)
      (h' : .failed ∉ log' → ∀ a, .touched a ∈ log' → D.compiles a = true) :
      .failed ∉ log ++ log' → ∀ a, .touched a ∈ log ++ log' → D.compiles a = true := by
    intro hclean a ha
    rw [List.mem_append, not_or] at hclean
    exact (List.mem_append.1 ha).elim (h hclean.1 a) (h' hclean.2 a)
  induction fuel with
  | zero => exact ⟨fun _ _ => nofun, htrans, fun _ _ => nofun, nofun, nofun⟩
  | succ fuel ih =>
    refine ⟨fun _ _ => nofun, htrans, fun _ _ => nofun, fun h => ?_, ih.callsFunction⟩
    intro hclean
    cases h with
    | failed => exact absurd (List.mem_append_right _ List.mem_cons_self) hclean
    | answered means answer_eq =>
      cases means with
      | undefined => nofun
      | plain definition means =>
        cases means with
        | overApplied => nofun
        | compiled _ validator_eq =>
          -- the mark is of this alias, and its access did not fail
          intro b hb
          cases List.mem_singleton.1 hb
          rename_i outcome _
          rcases outcome with error | t
          · cases answer_eq
          · rw [Definitions.compiles_of_plain definition, validator_eq]
            rfl
      | function definition means =>
        cases means with
        | misapplied => nofun
        | faultyParameter => nofun
        | ran _ _ applies => exact ih.applies applies hclean

end NamedTypes
