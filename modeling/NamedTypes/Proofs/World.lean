import NamedTypes.Body

/-! # Worlds
What a type function does with its arguments is fixed by its body except for the answers to the
body's requests. A **world** (`World`) gives these answers, as relations between a state before, a
state after, and a **log** of what happened meanwhile. Everything else follows the program step by
step: how expressions are compiled (`World.Compiles`), how bodies run (`World.Runs`), and how type
functions are applied to types and called with raw arguments (`World.Applies`, `World.Calls`).

A relation that the answers of a world keep, from each state to the next, is kept by whole runs and
calls (`World.Keeps`). Where a world answers whatever another one does, it has all runs and calls of
the other (`World.Within`). -/

namespace NamedTypes

/-- How requests of bodies are answered, with states `σ` and entries `τ` of logs. -/
structure World (σ τ : Type) where
  /-- Making a type. -/
  makes : Validator → σ → Ty → σ → Prop
  /-- Invoking an alias. -/
  accesses : Accessor → Demand → List TypeExpr → σ → List τ →
    Except AliasError (Normalized Generator) → σ → Prop
  /-- Calling a type function. -/
  calls : Generator → List TypeExpr → σ → List τ →
    Except AliasError (Normalized Generator) → σ → Prop

namespace World

variable {σ τ : Type} (W : World σ τ)

/-! ## Compiling -/

/-- The type that an expression comes to. -/
inductive Compiles (e : TypeExpr) (s : σ) : Except AliasError Ty → σ → Prop
  | existing {t : Ty} (compiled : e.compile = .ok (.existing t)) : Compiles e s (.ok t) s
  | made {v : Validator} {t : Ty} {s' : σ} (compiled : e.compile = .ok (.new v))
    (makes : W.makes v s t s') : Compiles e s (.ok t) s'
  | faulty {error : AliasError} (compiled : e.compile = .error error) :
    Compiles e s (.error error) s

/-- The types that expressions come to, from left to right, or the first fault. -/
inductive CompilesAll : List TypeExpr → σ → Except AliasError (List Ty) → σ → Prop
  | nil {s : σ} : CompilesAll [] s (.ok []) s
  | cons {e : TypeExpr} {es : List TypeExpr} {t : Ty} {ts : List Ty} {s s₁ s₂ : σ}
    (first : W.Compiles e s (.ok t) s₁) (rest : CompilesAll es s₁ (.ok ts) s₂) :
    CompilesAll (e :: es) s (.ok (t :: ts)) s₂
  | faultyFirst {e : TypeExpr} {es : List TypeExpr} {error : AliasError} {s s₁ : σ}
    (first : W.Compiles e s (.error error) s₁) : CompilesAll (e :: es) s (.error error) s₁
  | faultyRest {e : TypeExpr} {es : List TypeExpr} {t : Ty} {error : AliasError} {s s₁ s₂ : σ}
    (first : W.Compiles e s (.ok t) s₁) (rest : CompilesAll es s₁ (.error error) s₂) :
    CompilesAll (e :: es) s (.error error) s₂

/-- The type or type function that an expression comes to. -/
inductive Normalizes : TypeExpr → σ → Except AliasError (Normalized Generator) → σ → Prop
  | function {f : Generator} {s : σ} : Normalizes (.generator f) s (.ok (.function f)) s
  | type {e : TypeExpr} {s s' : σ} {outcome : Except AliasError Ty}
    (noFunction : ∀ f, e ≠ .generator f) (compiles : W.Compiles e s outcome s') :
    Normalizes e s (.type <$> outcome) s'

/-! ## Running -/

/-- The run of a body with a frame. -/
inductive Runs : Body → Frame → σ → List τ → Except AliasError TypeExpr → σ → Prop
  | finish {e : Expr Nat} {frame : Frame} {s : σ} :
    Runs (.finish e) frame s [] (.ok (frame.close e)) s
  | fail {error : AliasError} {frame : Frame} {s : σ} :
    Runs (.fail error) frame s [] (.error error) s
  | create {v : Validator} {next : Ty → Body} {frame : Frame} {s s₁ s₂ : σ} {t : Ty}
    {log : List τ} {outcome : Except AliasError TypeExpr} (makes : W.makes v s t s₁)
    (rest : Runs (next t) frame s₁ log outcome s₂) : Runs (.create v next) frame s log outcome s₂
  | access {a : Accessor} {demand : Demand} {arguments : List (Expr Nat)}
    {next : Except AliasError (Normalized Nat) → Body} {frame : Frame} {s s₁ s₂ : σ}
    {log log' : List τ} {answer : Except AliasError (Normalized Generator)}
    {outcome : Except AliasError TypeExpr}
    (accesses : W.accesses a demand (arguments.map frame.close) s log answer s₁)
    (rest : Runs (next (frame.receive answer).1) (frame.receive answer).2 s₁ log' outcome s₂) :
    Runs (.access a demand arguments next) frame s (log ++ log') outcome s₂
  | call {function : Nat} {arguments : List (Expr Nat)}
    {next : Except AliasError (Normalized Nat) → Body} {frame : Frame} {s s₁ s₂ : σ}
    {log log' : List τ} {answer : Except AliasError (Normalized Generator)}
    {outcome : Except AliasError TypeExpr}
    (calls : W.calls (frame.get function) (arguments.map frame.close) s log answer s₁)
    (rest : Runs (next (frame.receive answer).1) (frame.receive answer).2 s₁ log' outcome s₂) :
    Runs (.call function arguments next) frame s (log ++ log') outcome s₂
  | build {captured : List Nat} {function : List Ty → Body} {next : Nat → Body} {frame : Frame}
    {s s' : σ} {log : List τ} {outcome : Except AliasError TypeExpr}
    (rest : Runs (next frame.length) (frame.build captured function) s log outcome s') :
    Runs (.build captured function next) frame s log outcome s'

/-- A type function on types: its body runs, and the expression that it ends with is compiled. -/
inductive Applies (function : Generator) (types : List Ty) (s : σ) :
    List τ → Except AliasError (Normalized Generator) → σ → Prop
  | produced {e : TypeExpr} {s₁ s₂ : σ} {log : List τ}
    {outcome : Except AliasError (Normalized Generator)}
    (runs : W.Runs (function.body types) function.captured s log (.ok e) s₁)
    (normalizes : W.Normalizes e s₁ outcome s₂) : Applies function types s log outcome s₂
  | failed {error : AliasError} {s₁ : σ} {log : List τ}
    (runs : W.Runs (function.body types) function.captured s log (.error error) s₁) :
    Applies function types s log (.error error) s₁

/-- A type function on raw arguments, which are compiled first. -/
inductive Calls (function : Generator) (arguments : List TypeExpr) (s : σ) :
    List τ → Except AliasError (Normalized Generator) → σ → Prop
  | applied {types : List Ty} {s₁ s₂ : σ} {log : List τ}
    {outcome : Except AliasError (Normalized Generator)}
    (compiles : W.CompilesAll arguments s (.ok types) s₁)
    (applies : W.Applies function types s₁ log outcome s₂) :
    Calls function arguments s log outcome s₂
  | faulty {error : AliasError} {s₁ : σ} (compiles : W.CompilesAll arguments s (.error error) s₁) :
    Calls function arguments s [] (.error error) s₁

/-! ## What compiling gives -/

/-- Types that are made hold the validators that they are made of. -/
def Faithful : Prop := ∀ {v s t s'}, W.makes v s t s' → t.validator = v

variable {W}

/-- An expression comes to a type with its validator, or to its first fault. -/
theorem Compiles.validator_eq (hW : W.Faithful) {e : TypeExpr} {s s' : σ}
    {outcome : Except AliasError Ty} (h : W.Compiles e s outcome s') :
    e.validator = Ty.validator <$> outcome := by
  rw [← e.validator_compile]
  cases h with
  | existing compiled => rw [compiled]; rfl
  | made compiled makes =>
    rw [compiled, ← hW makes]
    rfl
  | faulty compiled => rw [compiled]; rfl

/-- Expressions come to types with their validators, or to their first fault. -/
theorem CompilesAll.validators_eq (hW : W.Faithful) {es : List TypeExpr} {s s' : σ}
    {outcome : Except AliasError (List Ty)} (h : W.CompilesAll es s outcome s') :
    Expr.validators es = List.map Ty.validator <$> outcome := by
  induction h with
  | nil => rfl
  | cons first _ ih => rw [Expr.validators, first.validator_eq hW, ih]; rfl
  | faultyFirst first => rw [Expr.validators, first.validator_eq hW]; rfl
  | faultyRest first _ ih => rw [Expr.validators, first.validator_eq hW, ih]; rfl

/-- An existing type stands for itself. -/
theorem Compiles.of_leaf {t : Ty} {s s' : σ} {outcome : Except AliasError Ty}
    (h : W.Compiles (.leaf t) s outcome s') : outcome = .ok t ∧ s' = s := by
  cases h with
  | existing compiled =>
    obtain rfl := Compiled.existing.inj (Except.ok.inj compiled)
    exact ⟨rfl, rfl⟩
  | made compiled => cases compiled
  | faulty compiled => cases compiled

/-- Existing types stand for themselves. -/
theorem CompilesAll.of_leaves {es : List TypeExpr} {types : List Ty} {s s' : σ}
    (hleaves : ∀ e ∈ es, e.isLeaf = true) (h : W.CompilesAll es s (.ok types) s') :
    es = types.map .leaf := by
  generalize houtcome : Except.ok types = outcome at h
  induction h generalizing types with
  | nil =>
    obtain rfl := Except.ok.inj houtcome
    rfl
  | @cons e es t ts _ _ _ first _ ih =>
    obtain rfl := Except.ok.inj houtcome
    have hleaf := hleaves e List.mem_cons_self
    cases e with
    | leaf l =>
      obtain ⟨ht, -⟩ := first.of_leaf
      obtain rfl := Except.ok.inj ht
      rw [List.map_cons, ← ih (fun e he => hleaves e (List.mem_cons_of_mem _ he)) rfl]
    | _ => cases hleaf
  | faultyFirst => cases houtcome
  | faultyRest => cases houtcome

variable (W)

/-! ## What runs keep -/

/-- A relation from states to later ones, along the log between them, that holds across whatever is
answered to a request. -/
structure Keeps (R : σ → List τ → σ → Prop) : Prop where
  refl : ∀ s, R s [] s
  trans : ∀ {s₁ s₂ s₃ log log'}, R s₁ log s₂ → R s₂ log' s₃ → R s₁ (log ++ log') s₃
  makes : ∀ {v s t s'}, W.makes v s t s' → R s [] s'
  accesses : ∀ {a demand arguments s log answer s'},
    W.accesses a demand arguments s log answer s' → R s log s'
  calls : ∀ {function arguments s log answer s'},
    W.calls function arguments s log answer s' → R s log s'

namespace Keeps

variable {W} {R : σ → List τ → σ → Prop} {s s' : σ} {log : List τ}

theorem compiles (hR : W.Keeps R) {e : TypeExpr} {outcome : Except AliasError Ty}
    (h : W.Compiles e s outcome s') : R s [] s' := by
  cases h with
  | existing => exact hR.refl s
  | made _ makes => exact hR.makes makes
  | faulty => exact hR.refl s

theorem compilesAll (hR : W.Keeps R) {es : List TypeExpr} {outcome : Except AliasError (List Ty)}
    (h : W.CompilesAll es s outcome s') : R s [] s' := by
  induction h with
  | nil => exact hR.refl _
  | cons first _ ih => exact hR.trans (hR.compiles first) ih
  | faultyFirst first => exact hR.compiles first
  | faultyRest first _ ih => exact hR.trans (hR.compiles first) ih

theorem normalizes (hR : W.Keeps R) {e : TypeExpr}
    {outcome : Except AliasError (Normalized Generator)} (h : W.Normalizes e s outcome s') :
    R s [] s' := by
  cases h with
  | function => exact hR.refl s
  | type _ compiles => exact hR.compiles compiles

/-- A run keeps what the answers to its requests keep. -/
theorem runs (hR : W.Keeps R) {b : Body} {frame : Frame} {outcome : Except AliasError TypeExpr}
    (h : W.Runs b frame s log outcome s') : R s log s' := by
  induction h with
  | finish => exact hR.refl _
  | fail => exact hR.refl _
  | create makes _ ih => exact hR.trans (hR.makes makes) ih
  | access accesses _ ih => exact hR.trans (hR.accesses accesses) ih
  | call calls _ ih => exact hR.trans (hR.calls calls) ih
  | build _ ih => exact ih

theorem applies (hR : W.Keeps R) {function : Generator} {types : List Ty}
    {outcome : Except AliasError (Normalized Generator)}
    (h : W.Applies function types s log outcome s') : R s log s' := by
  cases h with
  | produced runs normalizes =>
    rw [← List.append_nil log]
    exact hR.trans (hR.runs runs) (hR.normalizes normalizes)
  | failed runs => exact hR.runs runs

/-- A call keeps what the answers to the requests of its run keep. -/
theorem callsFunction (hR : W.Keeps R) {function : Generator} {arguments : List TypeExpr}
    {outcome : Except AliasError (Normalized Generator)}
    (h : W.Calls function arguments s log outcome s') : R s log s' := by
  cases h with
  | applied compiles applies => exact hR.trans (hR.compilesAll compiles) (hR.applies applies)
  | faulty compiles => exact hR.compilesAll compiles

end Keeps

/-! ## Worlds within worlds -/

/-- What one world answers with a log of entries in `P`, another one answers as well. -/
structure Within (P : τ → Prop) (W W' : World σ τ) : Prop where
  makes : ∀ {v s t s'}, W.makes v s t s' → W'.makes v s t s'
  accesses : ∀ {a demand arguments s log answer s'}, (∀ entry ∈ log, P entry) →
    W.accesses a demand arguments s log answer s' → W'.accesses a demand arguments s log answer s'
  calls : ∀ {function arguments s log answer s'}, (∀ entry ∈ log, P entry) →
    W.calls function arguments s log answer s' → W'.calls function arguments s log answer s'

namespace Within

variable {P : τ → Prop} {W W' : World σ τ} {s s' : σ} {log : List τ}

theorem refl (P : τ → Prop) (W : World σ τ) : Within P W W := ⟨id, fun _ => id, fun _ => id⟩

theorem trans {W'' : World σ τ} (h : Within P W W') (h' : Within P W' W'') : Within P W W'' where
  makes hmakes := h'.makes (h.makes hmakes)
  accesses hlog haccesses := h'.accesses hlog (h.accesses hlog haccesses)
  calls hlog hcalls := h'.calls hlog (h.calls hlog hcalls)

theorem compiles (h : Within P W W') {e : TypeExpr} {outcome : Except AliasError Ty}
    (hW : W.Compiles e s outcome s') : W'.Compiles e s outcome s' := by
  cases hW with
  | existing compiled => exact .existing compiled
  | made compiled makes => exact .made compiled (h.makes makes)
  | faulty compiled => exact .faulty compiled

theorem compilesAll (h : Within P W W') {es : List TypeExpr}
    {outcome : Except AliasError (List Ty)} (hW : W.CompilesAll es s outcome s') :
    W'.CompilesAll es s outcome s' := by
  induction hW with
  | nil => exact .nil
  | cons first _ ih => exact .cons (h.compiles first) ih
  | faultyFirst first => exact .faultyFirst (h.compiles first)
  | faultyRest first _ ih => exact .faultyRest (h.compiles first) ih

theorem normalizes (h : Within P W W') {e : TypeExpr}
    {outcome : Except AliasError (Normalized Generator)} (hW : W.Normalizes e s outcome s') :
    W'.Normalizes e s outcome s' := by
  cases hW with
  | function => exact .function
  | type noFunction compiles => exact .type noFunction (h.compiles compiles)

/-- A run of the one world is a run of the other. -/
theorem runs (h : Within P W W') {b : Body} {frame : Frame} {outcome : Except AliasError TypeExpr}
    (hW : W.Runs b frame s log outcome s') (hlog : ∀ entry ∈ log, P entry) :
    W'.Runs b frame s log outcome s' := by
  induction hW with
  | finish => exact .finish
  | fail => exact .fail
  | create makes _ ih => exact .create (h.makes makes) (ih hlog)
  | access accesses _ ih =>
    obtain ⟨hfirst, hlast⟩ := List.forall_mem_append.1 hlog
    exact .access (h.accesses hfirst accesses) (ih hlast)
  | call calls _ ih =>
    obtain ⟨hfirst, hlast⟩ := List.forall_mem_append.1 hlog
    exact .call (h.calls hfirst calls) (ih hlast)
  | build _ ih => exact .build (ih hlog)

theorem applies (h : Within P W W') {function : Generator} {types : List Ty}
    {outcome : Except AliasError (Normalized Generator)}
    (hW : W.Applies function types s log outcome s') (hlog : ∀ entry ∈ log, P entry) :
    W'.Applies function types s log outcome s' := by
  cases hW with
  | produced runs normalizes => exact .produced (h.runs runs hlog) (h.normalizes normalizes)
  | failed runs => exact .failed (h.runs runs hlog)

theorem callsFunction (h : Within P W W') {function : Generator} {arguments : List TypeExpr}
    {outcome : Except AliasError (Normalized Generator)}
    (hW : W.Calls function arguments s log outcome s') (hlog : ∀ entry ∈ log, P entry) :
    W'.Calls function arguments s log outcome s' := by
  cases hW with
  | applied compiles applies => exact .applied (h.compilesAll compiles) (h.applies applies hlog)
  | faulty compiles => exact .faulty (h.compilesAll compiles)

end Within

end World

end NamedTypes
