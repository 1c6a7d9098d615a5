import NamedTypes.Proofs.Alike
import NamedTypes.Proofs.World

/-! # Lockstep
Bodies are **alike** if they do alike things for as long as their requests are answered alike
(`Body.Alike`). Where two worlds answer alike requests alike, alike bodies run in lockstep to alike
ends (`World.Lockstep.runs`), and so do calls of alike type functions. -/

namespace NamedTypes

/-! ## Alike type functions -/

/-- Results that are alike types or related type functions. -/
inductive Normalized.Alike {F G : Type} (R : F → G → Prop) : Normalized F → Normalized G → Prop
  | type {t u : Ty} (alike : t.Alike u) : Alike R (.type t) (.type u)
  | function {f : F} {g : G} (related : R f g) : Alike R (.function f) (.function g)

/-- Bodies that make alike requests, in the same order and of the same aliases and functions, as
long as all answers are alike, and that end alike. What a body does is determined by the structure
of its arguments and by the answers that it gets if the body is alike for alike arguments. -/
inductive Body.Alike : Body → Body → Prop
  | finish {e e' : Expr Nat} (result : e.Alike Eq e') : Alike (.finish e) (.finish e')
  | fail {error : AliasError} : Alike (.fail error) (.fail error)
  | create {v w : Validator} {next next' : Ty → Body} (validator : v.Alike w)
    (rest : ∀ t u : Ty, t.validator = v → u.validator = w → Alike (next t) (next' u)) :
    Alike (.create v next) (.create w next')
  | access {a : Accessor} {demand : Demand} {es es' : List (Expr Nat)}
    {next next' : Except AliasError (Normalized Nat) → Body}
    (arguments : List.Forall₂ (Expr.Alike Eq) es es')
    (rest : ∀ answer answer', Likewise (Normalized.Alike Eq) answer answer' →
      Alike (next answer) (next' answer')) :
    Alike (.access a demand es next) (.access a demand es' next')
  | call {position : Nat} {es es' : List (Expr Nat)}
    {next next' : Except AliasError (Normalized Nat) → Body}
    (arguments : List.Forall₂ (Expr.Alike Eq) es es')
    (rest : ∀ answer answer', Likewise (Normalized.Alike Eq) answer answer' →
      Alike (next answer) (next' answer')) :
    Alike (.call position es next) (.call position es' next')
  | build {captured : List Nat} {function function' : List Ty → Body} {next next' : Nat → Body}
    (built : ∀ ts us, List.Forall₂ Ty.Alike ts us → Alike (function ts) (function' us))
    (rest : ∀ position, Alike (next position) (next' position)) :
    Alike (.build captured function next) (.build captured function' next')

/-- Type functions that captured alike functions and run alike bodies on alike arguments. -/
inductive Generator.Alike : Generator → Generator → Prop
  | mk {captured captured' : List Generator} {function function' : List Ty → Body}
    (captures : List.Forall₂ Alike captured captured')
    (bodies : ∀ ts us, List.Forall₂ Ty.Alike ts us → (function ts).Alike (function' us)) :
    Alike (.mk captured function) (.mk captured' function')

/-- Expressions of one shape over alike types and alike type functions. -/
abbrev TypeExpr.Alike : TypeExpr → TypeExpr → Prop := Expr.Alike Generator.Alike

/-- Answers that are alike types, alike type functions, or the same error. -/
abbrev Answer.Alike : Except AliasError (Normalized Generator) →
    Except AliasError (Normalized Generator) → Prop :=
  Likewise (Normalized.Alike Generator.Alike)

/-! ## Alike frames -/

namespace Frame

variable {frame frame' : Frame}

/-- Frames that keep alike functions have alike functions at every position. -/
theorem alike_get (h : List.Forall₂ Generator.Alike frame frame') (position : Nat) :
    (frame.get position).Alike (frame'.get position) := by
  induction h generalizing position with
  | nil => exact .mk .nil fun _ _ _ => .fail
  | cons first _ ih =>
    cases position with
    | zero => exact first
    | succ position => exact ih position

theorem alike_close (h : List.Forall₂ Generator.Alike frame frame') {e e' : Expr Nat}
    (he : e.Alike Eq e') : (frame.close e).Alike (frame'.close e') := by
  refine he.map fun position _ heq => ?_
  subst heq
  exact alike_get h position

theorem alike_arguments (h : List.Forall₂ Generator.Alike frame frame') {es es' : List (Expr Nat)}
    (hes : List.Forall₂ (Expr.Alike Eq) es es') :
    List.Forall₂ TypeExpr.Alike (es.map frame.close) (es'.map frame'.close) := by
  rw [List.forall₂_map_left_iff, List.forall₂_map_right_iff]
  exact hes.imp fun _ _ => alike_close h

/-- Runs with alike frames get alike answers alike, and their frames stay alike. -/
theorem alike_receive (h : List.Forall₂ Generator.Alike frame frame')
    {answer answer' : Except AliasError (Normalized Generator)}
    (hanswer : Answer.Alike answer answer') :
    Likewise (Normalized.Alike Eq) (frame.receive answer).1 (frame'.receive answer').1 ∧
      List.Forall₂ Generator.Alike (frame.receive answer).2 (frame'.receive answer').2 := by
  cases hanswer with
  | error => exact ⟨.error, h⟩
  | ok related =>
    cases related with
    | type alike => exact ⟨.ok (.type alike), h⟩
    | function related =>
      exact ⟨.ok (.function h.length_eq), List.rel_append h (.cons related .nil)⟩

theorem alike_build (h : List.Forall₂ Generator.Alike frame frame') (captured : List Nat)
    {function function' : List Ty → Body}
    (hbuilt : ∀ ts us, List.Forall₂ Ty.Alike ts us → (function ts).Alike (function' us)) :
    List.Forall₂ Generator.Alike (frame.build captured function)
      (frame'.build captured function') := by
  refine List.rel_append h (.cons (.mk ?_ hbuilt) .nil)
  rw [List.forall₂_map_left_iff, List.forall₂_map_right_iff]
  exact List.forall₂_same.2 fun position _ => alike_get h position

end Frame

/-! ## Worlds that answer alike -/

namespace World

variable {σ₁ σ₂ τ₁ τ₂ : Type}

/-- Two worlds answer alike requests alike. From states that are related by `S` they come to states
that are related again; this is asked of answers with logs that are related by `pre`, and their
logs are then related by `post`. -/
structure Lockstep (W₁ : World σ₁ τ₁) (W₂ : World σ₂ τ₂) (S : σ₁ → σ₂ → Prop)
    (pre post : List τ₁ → List τ₂ → Prop) : Prop where
  /-- The parts of logs are related if the whole logs are. -/
  split : ∀ {l₁ l₁' l₂ l₂'}, pre (l₁ ++ l₁') (l₂ ++ l₂') → pre l₁ l₂ ∧ pre l₁' l₂'
  nil : post [] []
  append : ∀ {l₁ l₁' l₂ l₂'}, post l₁ l₂ → post l₁' l₂' → post (l₁ ++ l₁') (l₂ ++ l₂')
  makes : ∀ {v w s₁ s₂ t u s₁' s₂'}, S s₁ s₂ → W₁.makes v s₁ t s₁' → W₂.makes w s₂ u s₂' →
    t.validator = v ∧ u.validator = w ∧ S s₁' s₂'
  accesses : ∀ {a demand es es' s₁ s₂ l₁ l₂ answer answer' s₁' s₂'}, S s₁ s₂ →
    List.Forall₂ TypeExpr.Alike es es' → W₁.accesses a demand es s₁ l₁ answer s₁' →
    W₂.accesses a demand es' s₂ l₂ answer' s₂' → pre l₁ l₂ →
    Answer.Alike answer answer' ∧ S s₁' s₂' ∧ post l₁ l₂
  calls : ∀ {f g es es' s₁ s₂ l₁ l₂ answer answer' s₁' s₂'}, S s₁ s₂ → f.Alike g →
    List.Forall₂ TypeExpr.Alike es es' → W₁.calls f es s₁ l₁ answer s₁' →
    W₂.calls g es' s₂ l₂ answer' s₂' → pre l₁ l₂ →
    Answer.Alike answer answer' ∧ S s₁' s₂' ∧ post l₁ l₂

namespace Lockstep

variable {W₁ : World σ₁ τ₁} {W₂ : World σ₂ τ₂} {S : σ₁ → σ₂ → Prop}
  {pre post : List τ₁ → List τ₂ → Prop} {s₁ s₁' : σ₁} {s₂ s₂' : σ₂} {l₁ : List τ₁} {l₂ : List τ₂}

/-- Alike expressions come to alike types. -/
theorem compiles (h : Lockstep W₁ W₂ S pre post) (hs : S s₁ s₂) {e e' : TypeExpr}
    (he : TypeExpr.Alike e e') {o₁ o₂ : Except AliasError Ty} (h₁ : W₁.Compiles e s₁ o₁ s₁')
    (h₂ : W₂.Compiles e' s₂ o₂ s₂') : Likewise Ty.Alike o₁ o₂ ∧ S s₁' s₂' := by
  have hcompile := he.compile
  -- Alike expressions are existing types, new types or faulty together, so the runs cannot follow
  -- different rules.
  cases h₁ with
  | existing compiled₁ =>
    cases h₂ with
    | existing compiled₂ =>
      rw [compiled₁, compiled₂] at hcompile
      obtain ⟨⟨alike⟩⟩ := hcompile
      exact ⟨.ok alike, hs⟩
    | made compiled₂ => rw [compiled₁, compiled₂] at hcompile; obtain ⟨⟨⟩⟩ := hcompile
    | faulty compiled₂ => rw [compiled₁, compiled₂] at hcompile; cases hcompile
  | made compiled₁ makes₁ =>
    cases h₂ with
    | existing compiled₂ => rw [compiled₁, compiled₂] at hcompile; obtain ⟨⟨⟩⟩ := hcompile
    | made compiled₂ makes₂ =>
      rw [compiled₁, compiled₂] at hcompile
      obtain ⟨_ | ⟨alike⟩⟩ := hcompile
      obtain ⟨rfl, rfl, hs'⟩ := h.makes hs makes₁ makes₂
      exact ⟨.ok alike, hs'⟩
    | faulty compiled₂ => rw [compiled₁, compiled₂] at hcompile; cases hcompile
  | faulty compiled₁ =>
    cases h₂ with
    | existing compiled₂ => rw [compiled₁, compiled₂] at hcompile; cases hcompile
    | made compiled₂ => rw [compiled₁, compiled₂] at hcompile; cases hcompile
    | faulty compiled₂ =>
      rw [compiled₁, compiled₂] at hcompile
      cases hcompile
      exact ⟨.error, hs⟩

theorem compilesAll (h : Lockstep W₁ W₂ S pre post) (hs : S s₁ s₂) {es es' : List TypeExpr}
    (hes : List.Forall₂ TypeExpr.Alike es es') {o₁ o₂ : Except AliasError (List Ty)}
    (h₁ : W₁.CompilesAll es s₁ o₁ s₁') (h₂ : W₂.CompilesAll es' s₂ o₂ s₂') :
    Likewise (List.Forall₂ Ty.Alike) o₁ o₂ ∧ S s₁' s₂' := by
  induction h₁ generalizing es' s₂ o₂ s₂' with
  | nil =>
    cases hes
    cases h₂
    exact ⟨.ok .nil, hs⟩
  | cons first₁ _ ih =>
    obtain _ | ⟨hfirst, hrest⟩ := hes
    cases h₂ with
    | cons first₂ rest₂ =>
      obtain ⟨⟨alike⟩, hs'⟩ := h.compiles hs hfirst first₁ first₂
      obtain ⟨⟨alikes⟩, hs''⟩ := ih hs' hrest rest₂
      exact ⟨.ok (.cons alike alikes), hs''⟩
    | faultyFirst first₂ => obtain ⟨⟨⟩, -⟩ := h.compiles hs hfirst first₁ first₂
    | faultyRest first₂ rest₂ =>
      obtain ⟨-, hs'⟩ := h.compiles hs hfirst first₁ first₂
      obtain ⟨⟨⟩, -⟩ := ih hs' hrest rest₂
  | faultyFirst first₁ =>
    obtain _ | ⟨hfirst, -⟩ := hes
    cases h₂ with
    | cons first₂ => obtain ⟨⟨⟩, -⟩ := h.compiles hs hfirst first₁ first₂
    | faultyFirst first₂ =>
      obtain ⟨⟨⟩, hs'⟩ := h.compiles hs hfirst first₁ first₂
      exact ⟨.error, hs'⟩
    | faultyRest first₂ => obtain ⟨⟨⟩, -⟩ := h.compiles hs hfirst first₁ first₂
  | faultyRest first₁ _ ih =>
    obtain _ | ⟨hfirst, hrest⟩ := hes
    cases h₂ with
    | cons first₂ rest₂ =>
      obtain ⟨-, hs'⟩ := h.compiles hs hfirst first₁ first₂
      obtain ⟨⟨⟩, -⟩ := ih hs' hrest rest₂
    | faultyFirst first₂ => obtain ⟨⟨⟩, -⟩ := h.compiles hs hfirst first₁ first₂
    | faultyRest first₂ rest₂ =>
      obtain ⟨-, hs'⟩ := h.compiles hs hfirst first₁ first₂
      obtain ⟨⟨⟩, hs''⟩ := ih hs' hrest rest₂
      exact ⟨.error, hs''⟩

theorem normalizes (h : Lockstep W₁ W₂ S pre post) (hs : S s₁ s₂) {e e' : TypeExpr}
    (he : TypeExpr.Alike e e') {o₁ o₂ : Except AliasError (Normalized Generator)}
    (h₁ : W₁.Normalizes e s₁ o₁ s₁') (h₂ : W₂.Normalizes e' s₂ o₂ s₂') :
    Answer.Alike o₁ o₂ ∧ S s₁' s₂' := by
  cases h₁ with
  | function =>
    obtain _ | _ | _ | ⟨related⟩ | _ := he
    cases h₂ with
    | function => exact ⟨.ok (.function related), hs⟩
    | type noFunction => exact absurd rfl (noFunction _)
  | type noFunction compiles₁ =>
    cases h₂ with
    | function =>
      obtain _ | _ | _ | ⟨related⟩ | _ := he
      exact absurd rfl (noFunction _)
    | type _ compiles₂ =>
      obtain ⟨houtcome, hs'⟩ := h.compiles hs he compiles₁ compiles₂
      exact ⟨houtcome.map fun _ _ => .type, hs'⟩

/-- **Alike bodies run in lockstep.** -/
theorem runs (h : Lockstep W₁ W₂ S pre post) (hs : S s₁ s₂) {b b' : Body} (hb : b.Alike b')
    {frame frame' : Frame} (hframe : List.Forall₂ Generator.Alike frame frame')
    {o₁ o₂ : Except AliasError TypeExpr} (h₁ : W₁.Runs b frame s₁ l₁ o₁ s₁')
    (h₂ : W₂.Runs b' frame' s₂ l₂ o₂ s₂') (hpre : pre l₁ l₂) :
    Likewise TypeExpr.Alike o₁ o₂ ∧ S s₁' s₂' ∧ post l₁ l₂ := by
  -- alike answers lead to alike continuations, and what was received stays alike in the frames
  induction h₁ generalizing b' frame' s₂ l₂ with
  | finish =>
    obtain ⟨result⟩ := hb
    cases h₂
    exact ⟨.ok (Frame.alike_close hframe result), hs, h.nil⟩
  | fail =>
    obtain _ | _ := hb
    cases h₂
    exact ⟨.error, hs, h.nil⟩
  | create makes₁ _ ih =>
    obtain _ | _ | ⟨-, rest⟩ := hb
    cases h₂ with
    | create makes₂ rest₂ =>
      obtain ⟨ht, hu, hs'⟩ := h.makes hs makes₁ makes₂
      exact ih hs' (rest _ _ ht hu) hframe rest₂ hpre
  | access accesses₁ _ ih =>
    obtain _ | _ | _ | ⟨arguments, rest⟩ := hb
    cases h₂ with
    | access accesses₂ rest₂ =>
      obtain ⟨hfirst, hlast⟩ := h.split hpre
      obtain ⟨hanswer, hs', hpost⟩ := h.accesses hs (Frame.alike_arguments hframe arguments)
        accesses₁ accesses₂ hfirst
      obtain ⟨hreceived, hframe'⟩ := Frame.alike_receive hframe hanswer
      obtain ⟨houtcome, hs'', hpost'⟩ := ih hs' (rest _ _ hreceived) hframe' rest₂ hlast
      exact ⟨houtcome, hs'', h.append hpost hpost'⟩
  | call calls₁ _ ih =>
    obtain _ | _ | _ | _ | ⟨arguments, rest⟩ := hb
    cases h₂ with
    | call calls₂ rest₂ =>
      obtain ⟨hfirst, hlast⟩ := h.split hpre
      obtain ⟨hanswer, hs', hpost⟩ := h.calls hs (Frame.alike_get hframe _)
        (Frame.alike_arguments hframe arguments) calls₁ calls₂ hfirst
      obtain ⟨hreceived, hframe'⟩ := Frame.alike_receive hframe hanswer
      obtain ⟨houtcome, hs'', hpost'⟩ := ih hs' (rest _ _ hreceived) hframe' rest₂ hlast
      exact ⟨houtcome, hs'', h.append hpost hpost'⟩
  | build _ ih =>
    obtain _ | _ | _ | _ | _ | ⟨built, rest⟩ := hb
    cases h₂ with
    | build rest₂ =>
      rw [← hframe.length_eq] at rest₂
      exact ih hs (rest _) (Frame.alike_build hframe _ built) rest₂ hpre

/-- Alike type functions do alike things with alike types. -/
theorem applies (h : Lockstep W₁ W₂ S pre post) (hs : S s₁ s₂) {f g : Generator} (hfg : f.Alike g)
    {ts us : List Ty} (hts : List.Forall₂ Ty.Alike ts us)
    {o₁ o₂ : Except AliasError (Normalized Generator)} (h₁ : W₁.Applies f ts s₁ l₁ o₁ s₁')
    (h₂ : W₂.Applies g us s₂ l₂ o₂ s₂') (hpre : pre l₁ l₂) :
    Answer.Alike o₁ o₂ ∧ S s₁' s₂' ∧ post l₁ l₂ := by
  obtain ⟨captures, bodies⟩ := hfg
  have hbody := bodies ts us hts
  cases h₁ with
  | produced runs₁ normalizes₁ =>
    cases h₂ with
    | produced runs₂ normalizes₂ =>
      obtain ⟨⟨alike⟩, hs', hpost⟩ := h.runs hs hbody captures runs₁ runs₂ hpre
      obtain ⟨houtcome, hs''⟩ := h.normalizes hs' alike normalizes₁ normalizes₂
      exact ⟨houtcome, hs'', hpost⟩
    | failed runs₂ => obtain ⟨⟨⟩, -⟩ := h.runs hs hbody captures runs₁ runs₂ hpre
  | failed runs₁ =>
    cases h₂ with
    | produced runs₂ => obtain ⟨⟨⟩, -⟩ := h.runs hs hbody captures runs₁ runs₂ hpre
    | failed runs₂ =>
      obtain ⟨⟨⟩, hs', hpost⟩ := h.runs hs hbody captures runs₁ runs₂ hpre
      exact ⟨.error, hs', hpost⟩

/-- Calls of alike type functions with alike arguments go in lockstep. -/
theorem callsFunction (h : Lockstep W₁ W₂ S pre post) (hs : S s₁ s₂) {f g : Generator}
    (hfg : f.Alike g) {es es' : List TypeExpr} (hes : List.Forall₂ TypeExpr.Alike es es')
    {o₁ o₂ : Except AliasError (Normalized Generator)} (h₁ : W₁.Calls f es s₁ l₁ o₁ s₁')
    (h₂ : W₂.Calls g es' s₂ l₂ o₂ s₂') (hpre : pre l₁ l₂) :
    Answer.Alike o₁ o₂ ∧ S s₁' s₂' ∧ post l₁ l₂ := by
  cases h₁ with
  | applied compiles₁ applies₁ =>
    cases h₂ with
    | applied compiles₂ applies₂ =>
      obtain ⟨⟨alikes⟩, hs'⟩ := h.compilesAll hs hes compiles₁ compiles₂
      exact h.applies hs' hfg alikes applies₁ applies₂ hpre
    | faulty compiles₂ => obtain ⟨⟨⟩, -⟩ := h.compilesAll hs hes compiles₁ compiles₂
  | faulty compiles₁ =>
    cases h₂ with
    | applied compiles₂ => obtain ⟨⟨⟩, -⟩ := h.compilesAll hs hes compiles₁ compiles₂
    | faulty compiles₂ =>
      obtain ⟨⟨⟩, hs'⟩ := h.compilesAll hs hes compiles₁ compiles₂
      exact ⟨.error, hs', h.nil⟩

end Lockstep

end World

end NamedTypes
