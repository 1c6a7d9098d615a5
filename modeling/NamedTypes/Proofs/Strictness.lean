import NamedTypes.Proofs.Provenance

/-! # Strict functions
A type function is **strict** if it passes on the failures that it meets: as soon as one of its
accesses or calls fails, it fails with the same error, and so do the functions that it captured or
builds (`Generator.Strict`). Where everything that is bound is strict, every function that comes of
an access is strict as well, and failures are passed on from each access to the one around it
(`Registry.disciplined_world`). -/

namespace NamedTypes

/-- Bodies that fail as soon as an access or a call fails, with the same error. -/
inductive Body.Strict : Body → Prop
  | finish {e : Expr Nat} : Strict (.finish e)
  | fail {error : AliasError} : Strict (.fail error)
  | create {v : Validator} {next : Ty → Body} (rest : ∀ t, Strict (next t)) :
    Strict (.create v next)
  | access {a : Accessor} {demand : Demand} {arguments : List (Expr Nat)}
    {next : Except AliasError (Normalized Nat) → Body} (rest : ∀ x, Strict (next (.ok x)))
    (fails : ∀ error, next (.error error) = .fail error) :
    Strict (.access a demand arguments next)
  | call {position : Nat} {arguments : List (Expr Nat)}
    {next : Except AliasError (Normalized Nat) → Body} (rest : ∀ x, Strict (next (.ok x)))
    (fails : ∀ error, next (.error error) = .fail error) : Strict (.call position arguments next)
  | build {captured : List Nat} {function : List Ty → Body} {next : Nat → Body}
    (built : ∀ types, Strict (function types)) (rest : ∀ position, Strict (next position)) :
    Strict (.build captured function next)

/-- Type functions that captured strict functions and run strict bodies. -/
inductive Generator.Strict : Generator → Prop
  | mk {captured : List Generator} {function : List Ty → Body}
    (captures : ∀ f ∈ captured, Strict f) (bodies : ∀ types, (function types).Strict) :
    Strict (.mk captured function)

/-- Types, and strict functions. -/
def Normalized.Strict (x : Normalized Generator) : Prop := ∀ f, x = .function f → f.Strict

/-- Expressions that describe types, and strict functions. -/
def TypeExpr.Strict (e : TypeExpr) : Prop := ∀ f, e = .generator f → f.Strict

theorem TypeExpr.strict_generator {f : Generator} (h : f.Strict) :
    TypeExpr.Strict (.generator f) :=
  fun _ hf => Expr.generator.inj hf ▸ h

/-! ## Frames -/

namespace Frame

variable {frame : Frame}

theorem strict_get (h : ∀ f ∈ frame, f.Strict) (position : Nat) : (frame.get position).Strict := by
  rw [get, List.getD_eq_getElem?_getD]
  cases hf : frame[position]? with
  | none => exact .mk (fun f hf => absurd hf List.not_mem_nil) fun _ => .fail
  | some f => exact h f (List.mem_of_getElem? hf)

theorem strict_close (h : ∀ f ∈ frame, f.Strict) (e : Expr Nat) :
    TypeExpr.Strict (frame.close e) := by
  intro f hf
  cases e with
  | generator position => exact Expr.generator.inj hf ▸ strict_get h position
  | leaf | sequence | record | data => simp [close, Expr.map] at hf

/-- A strict body goes on with a strict one, whatever it is answered. -/
theorem strict_receive {next : Except AliasError (Normalized Nat) → Body}
    (hrest : ∀ x, (next (.ok x)).Strict) (hfails : ∀ error, next (.error error) = .fail error)
    (h : ∀ f ∈ frame, f.Strict) {answer : Except AliasError (Normalized Generator)}
    (hanswer : ∀ x, answer = .ok x → x.Strict) :
    (next (frame.receive answer).1).Strict ∧ ∀ f ∈ (frame.receive answer).2, f.Strict := by
  rcases answer with error | t | g
  · exact ⟨(hfails error).symm ▸ .fail, h⟩
  · exact ⟨hrest _, h⟩
  · exact ⟨hrest _, List.forall_mem_append.2 ⟨h, List.forall_mem_singleton.2 (hanswer _ rfl g rfl)⟩⟩

theorem strict_build (h : ∀ f ∈ frame, f.Strict) (captured : List Nat) {function : List Ty → Body}
    (hbuilt : ∀ types, (function types).Strict) :
    ∀ f ∈ frame.build captured function, f.Strict := by
  refine List.forall_mem_append.2 ⟨h, List.forall_mem_singleton.2 (.mk (fun g hg => ?_) hbuilt)⟩
  obtain ⟨position, -, rfl⟩ := List.mem_map.1 hg
  exact strict_get h position

end Frame

/-! ## Registries -/

/-- Aliases of functions that are strict, as are the functions among the results that they
remember. -/
inductive Alias.Strict : Alias → Prop
  | pending : Strict .pending
  | plain {source : TypeExpr} {type : Option Ty} : Strict (.plain source type)
  | function {f : Generator} {memo : Option Memo} (function_strict : f.Strict)
    (remembered : ∀ m types x, memo = some m → m.get? types = some x → x.Strict) :
    Strict (.function f memo)

namespace Alias

theorem Strict.keep {entry : Alias} (h : entry.Strict) (t : Ty) : (entry.keep t).Strict := by
  cases h with
  | pending => exact .pending
  | plain => exact .plain
  | function function_strict remembered => exact .function function_strict remembered

theorem Strict.remember {entry : Alias} {types : List Ty} {x : Normalized Generator}
    (h : entry.Strict) (hx : x.Strict) : (entry.remember types x).Strict := by
  cases h with
  | pending => exact .pending
  | plain => exact .plain
  | @function f memo function_strict remembered =>
    cases memo with
    | none => exact .function function_strict remembered
    | some memo =>
      refine .function function_strict fun m others found hm hfound => ?_
      obtain rfl := Option.some.inj hm
      obtain hfound | ⟨-, rfl⟩ := Memo.get?_insert_cases hfound
      · exact remembered memo others found rfl hfound
      · exact hx

theorem strict_ofSource {source : TypeExpr} (h : source.Strict) (config : Config) :
    (Alias.ofSource config source).Strict := by
  cases source with
  | generator f =>
    refine .function (h f rfl) fun m types x hm hx => ?_
    -- nothing is remembered yet
    split at hm
    · obtain rfl := Option.some.inj hm
      cases hx
    · cases hm
  | leaf | sequence | record | data => exact .plain

end Alias

/-! ## Failures that are passed on -/

/-- An access that fails if one of those inside of it does. -/
theorem PassesOn.concat {log : List Visit} {v : Visit} (h : PassesOn log)
    (hv : (∃ w ∈ log, w.Fails) → ∃ error, v.resolved = .error error) : PassesOn (log ++ [v]) := by
  intro before inner between outer after hlog hdeeper hfails
  have hsplit : log ++ [v] = (before ++ inner :: between) ++ outer :: after := by simp [hlog]
  obtain ⟨rfl, rfl⟩ | ⟨after', rfl⟩ := split_concat hsplit
  · exact hv ⟨inner, List.mem_append_right _ List.mem_cons_self, hfails⟩
  · exact h before inner between outer after' (by simp) hdeeper hfails

/-- Accesses that follow on one another pass on no failures to each other. -/
theorem PassesOn.append {log log' : List Visit} {depth : Nat} (h : PassesOn log)
    (h' : PassesOn log') (hends : ∀ v, log.getLast? = some v → v.before.depth = depth)
    (hdeep : ∀ v ∈ log', depth ≤ v.before.depth) : PassesOn (log ++ log') := by
  intro before inner between outer after hlog hdeeper hfails
  -- the last access of the first log is inside of none of the second one
  have hcross {front : List Visit} (hfront : log = before ++ front) (hne : front ≠ [])
      (hmem : ∀ v ∈ front, v ∈ inner :: between) (houter : outer ∈ log') : False := by
    have hlast := hends (front.getLast hne) (by
      rw [hfront, List.getLast?_append_of_ne_nil _ hne, List.getLast?_eq_some_getLast hne])
    have hlt := hdeeper _ (hmem _ (List.getLast_mem hne))
    have hle := hdeep outer houter
    omega
  -- the inner access is in the second log with the outer one, or both are in the first one
  obtain ⟨early, rfl, rfl⟩ | ⟨front, hfront, hback⟩ := List.append_eq_append_iff.1 hlog
  · exact h' early inner between outer after rfl hdeeper hfails
  · have hback : (inner :: between) ++ outer :: after = front ++ log' := hback
    obtain ⟨rest, rfl, hrest⟩ | ⟨rest, hinner, rfl⟩ := List.append_eq_append_iff.1 hback
    · cases rest with
      | nil =>
        obtain rfl : outer :: after = log' := hrest
        exact (hcross hfront (by simp) (by simp) List.mem_cons_self).elim
      | cons last rest =>
        obtain ⟨rfl, rfl⟩ := List.cons.inj hrest
        refine h before inner between outer rest ?_ hdeeper hfails
        rw [hfront]
        simp only [List.cons_append]
    · by_cases hne : front = []
      · subst hne
        refine h' [] inner between outer after ?_ hdeeper hfails
        rw [List.nil_append] at hinner
        rw [← hinner]
        rfl
      · have hmem : ∀ v ∈ front, v ∈ inner :: between := fun v hv => by
          rw [hinner]
          exact List.mem_append_left _ hv
        exact (hcross hfront hne hmem (List.mem_append_right _ List.mem_cons_self)).elim

namespace Registry

variable {r r' r₁ r₂ : Registry} {a : Accessor} {fuel : Nat}

/-- Registries all of whose aliases are strict. -/
def Strict (r : Registry) : Prop := ∀ a entry, r.alias? a = some entry → entry.Strict

theorem Strict.of_alias? (h : r.Strict) (ha : ∀ a, r'.alias? a = r.alias? a) : r'.Strict :=
  fun a entry hentry => h a entry (ha a ▸ hentry)

theorem Strict.modifyAlias (h : r.Strict) {f : Alias → Alias}
    (hf : ∀ entry, entry.Strict → (f entry).Strict) : (r.modifyAlias a f).Strict := by
  intro b found hfound
  obtain ⟨entry, hentry, rfl⟩ | hfound := alias?_modifyAlias_cases hfound
  · exact hf entry (h b entry hentry)
  · exact h b found hfound

/-! ## Stretches of runs -/

/-- What comes of a stretch of a run: strict aliases, failures that are passed on, up to the outcome
of the stretch, and in case of success a result in `Q`. The stretch ends with an access that is
nested no deeper than itself, if it has any. -/
structure Orderly {α : Type} (Q : α → Prop) (r : Registry) (log : List Visit)
    (outcome : Except AliasError α) (r' : Registry) : Prop where
  strict : r'.Strict
  nests : Nests r log r'
  passesOn : PassesOn log
  ends : ∀ v, log.getLast? = some v → v.before.depth = r.depth
  fails : (∃ v ∈ log, v.Fails) → ∃ error, outcome = .error error
  result : ∀ x, outcome = .ok x → Q x

namespace Orderly

variable {α β : Type} {Q : α → Prop} {S : β → Prop} {log log' : List Visit}
  {outcome : Except AliasError α}

/-- Nothing was accessed. -/
theorem silent (h : r'.Strict) (hdepth : r'.depth = r.depth)
    (hresult : ∀ x, outcome = .ok x → Q x) : Orderly Q r [] outcome r' where
  strict := h
  nests := nests_of_depth hdepth
  passesOn _ _ _ _ _ hlog := by simp at hlog
  ends := nofun
  fails := nofun
  result := hresult

/-- One stretch after another one that has succeeded. -/
theorem trans {x : β} (h : Orderly S r log (.ok x) r₁) (h' : Orderly Q r₁ log' outcome r₂) :
    Orderly Q r (log ++ log') outcome r₂ where
  strict := h'.strict
  nests := h.nests.trans h'.nests
  passesOn := h.passesOn.append h'.passesOn h.ends fun v hv => h.nests.1 ▸ h'.nests.2 v hv
  ends v hv := by
    rw [List.getLast?_append, Option.or_eq_some_iff] at hv
    obtain hv | ⟨-, hv⟩ := hv
    · exact (h'.ends v hv).trans h.nests.1
    · exact h.ends v hv
  fails := by
    rintro ⟨v, hv, hfails⟩
    obtain hv | hv := List.mem_append.1 hv
    · obtain ⟨error, herror⟩ := h.fails ⟨v, hv, hfails⟩
      cases herror
    · exact h'.fails ⟨v, hv, hfails⟩
  result := h'.result

/-- The same stretch with the steps before and after it that access nothing. -/
theorem congr {earlier : Except AliasError β} (h : Orderly S r₁ log earlier r₂)
    (hstrict : r'.Strict) (hfirst : r₁.depth = r.depth) (hlast : r'.depth = r₂.depth)
    (hfails : ∀ error, earlier = .error error → ∃ error', outcome = .error error')
    (hresult : ∀ x, outcome = .ok x → Q x) : Orderly Q r log outcome r' where
  strict := hstrict
  nests := ⟨hlast.trans (h.nests.1.trans hfirst), hfirst ▸ h.nests.2⟩
  passesOn := h.passesOn
  ends v hv := (h.ends v hv).trans hfirst
  fails hlog := (h.fails hlog).elim hfails
  result := hresult

end Orderly

/-! ## Evaluations -/

/-- With some fuel, the program answers strict functions with strict functions, and passes on
failures. -/
structure Disciplined (fuel : Nat) : Prop where
  accesses : ∀ {a demand arguments r log answer r'}, r.Strict →
    (world fuel).accesses a demand arguments r log answer r' →
    Orderly Normalized.Strict r log answer r'
  calls : ∀ {f arguments r log answer r'}, r.Strict → f.Strict →
    (world fuel).calls f arguments r log answer r' → Orderly Normalized.Strict r log answer r'

theorem orderly_normalizes {e : TypeExpr} {outcome : Except AliasError (Normalized Generator)}
    (hr : r.Strict) (he : e.Strict) (h : (world fuel).Normalizes e r outcome r') :
    Orderly Normalized.Strict r [] outcome r' := by
  refine .silent (hr.of_alias? (alias?_of_spaces (spaces_of_normalizes h)))
    ((keeps_nests fuel).normalizes h).1 fun x hx => ?_
  cases h with
  | function => exact Except.ok.inj hx ▸ fun f hf => he f (congrArg _ (Normalized.function.inj hf))
  | @type _ _ _ compiled =>
    cases compiled with
    | error error => cases hx
    | ok t => exact Except.ok.inj hx ▸ nofun

theorem orderly_compilesAll {es : List TypeExpr} {outcome : Except AliasError (List Ty)}
    (hr : r.Strict) (h : (world fuel).CompilesAll es r outcome r') :
    Orderly (fun _ => True) r [] outcome r' :=
  .silent (hr.of_alias? (alias?_of_spaces (spaces_of_compilesAll h)))
    ((keeps_nests fuel).compilesAll h).1 fun _ _ => trivial

namespace Disciplined

variable {log : List Visit}

/-- After a failure that it passes on, a body has nothing left to do. -/
theorem orderly_of_failed {error : AliasError} {frame : Frame} {log' : List Visit}
    {outcome : Except AliasError TypeExpr}
    (h : Orderly Normalized.Strict r log (.error error) r₁)
    (rest : (world fuel).Runs (.fail error) frame r₁ log' outcome r') :
    Orderly TypeExpr.Strict r (log ++ log') outcome r' := by
  cases rest
  rw [List.append_nil]
  exact h.congr h.strict rfl rfl (fun _ _ => ⟨error, rfl⟩) nofun

/-- A strict body goes on after a result, and ends after a failure. -/
theorem orderly_of_answered {next : Except AliasError (Normalized Nat) → Body} {frame : Frame}
    {answer : Except AliasError (Normalized Generator)} {log' : List Visit}
    {outcome : Except AliasError TypeExpr} (hrest : ∀ x, (next (.ok x)).Strict)
    (hfails : ∀ error, next (.error error) = .fail error) (hframe : ∀ f ∈ frame, f.Strict)
    (hanswer : Orderly Normalized.Strict r log answer r₁)
    (rest : (world fuel).Runs (next (frame.receive answer).1) (frame.receive answer).2 r₁ log'
      outcome r')
    (ih : r₁.Strict → (next (frame.receive answer).1).Strict →
      (∀ f ∈ (frame.receive answer).2, f.Strict) → Orderly TypeExpr.Strict r₁ log' outcome r') :
    Orderly TypeExpr.Strict r (log ++ log') outcome r' := by
  cases answer with
  | error error =>
    rw [show (Frame.receive _ (.error error)).1 = .error error from rfl, hfails] at rest
    exact orderly_of_failed hanswer rest
  | ok x =>
    obtain ⟨hnext, hframe'⟩ := Frame.strict_receive hrest hfails hframe hanswer.result
    exact hanswer.trans (ih hanswer.strict hnext hframe')

/-- A strict body ends with the first failure that it meets. -/
theorem runs (hW : Disciplined fuel) {b : Body} {frame : Frame}
    {outcome : Except AliasError TypeExpr} (hr : r.Strict) (hb : b.Strict)
    (hframe : ∀ f ∈ frame, f.Strict) (h : (world fuel).Runs b frame r log outcome r') :
    Orderly TypeExpr.Strict r log outcome r' := by
  induction h with
  | finish =>
    exact .silent hr rfl fun e he => Except.ok.inj he ▸ Frame.strict_close hframe _
  | fail => exact .silent hr rfl nofun
  | create makes _ ih =>
    cases hb with
    | create rest =>
      obtain ⟨-, -, hspaces⟩ := of_makes makes
      have hdepth := ((keeps_nests fuel).makes makes).1
      have hrest := ih (hr.of_alias? (alias?_of_spaces hspaces)) (rest _) hframe
      exact hrest.congr hrest.strict hdepth rfl (fun error herror => ⟨error, herror⟩) hrest.result
  | access accesses rest ih =>
    cases hb with
    | access hrest hfails =>
      exact orderly_of_answered hrest hfails hframe (hW.accesses hr accesses) rest ih
  | call calls rest ih =>
    cases hb with
    | call hrest hfails =>
      have hanswer := hW.calls hr (Frame.strict_get hframe _) calls
      exact orderly_of_answered hrest hfails hframe hanswer rest ih
  | build _ ih =>
    cases hb with
    | build built rest => exact ih hr (rest _) (Frame.strict_build hframe _ built)

theorem applies (hW : Disciplined fuel) {f : Generator} {types : List Ty}
    {outcome : Except AliasError (Normalized Generator)} (hr : r.Strict) (hf : f.Strict)
    (h : (world fuel).Applies f types r log outcome r') :
    Orderly Normalized.Strict r log outcome r' := by
  obtain ⟨captures, bodies⟩ := hf
  cases h with
  | produced runs normalizes =>
    have hrun := hW.runs hr (bodies types) captures runs
    have hresult := orderly_normalizes hrun.strict (hrun.result _ rfl) normalizes
    rw [← List.append_nil log]
    exact hrun.trans hresult
  | failed runs =>
    have hrun := hW.runs hr (bodies types) captures runs
    exact hrun.congr hrun.strict rfl rfl (fun _ _ => ⟨_, rfl⟩) nofun

theorem callsFunction (hW : Disciplined fuel) {f : Generator} {arguments : List TypeExpr}
    {outcome : Except AliasError (Normalized Generator)} (hr : r.Strict) (hf : f.Strict)
    (h : (world fuel).Calls f arguments r log outcome r') :
    Orderly Normalized.Strict r log outcome r' := by
  cases h with
  | applied compiles applies =>
    have htypes := orderly_compilesAll hr compiles
    exact htypes.trans (hW.applies htypes.strict hf applies)
  | faulty compiles =>
    have htypes := orderly_compilesAll hr compiles
    exact .silent htypes.strict htypes.nests.1 nofun

/-- **What comes of a strict alias is strict.** -/
theorem resolves (hW : Disciplined fuel) {arguments : List TypeExpr}
    {outcome : Except AliasError (Normalized Generator)} (hr : r.Strict)
    (h : Resolves (world fuel) a arguments r log outcome r') :
    Orderly Normalized.Strict r log outcome r' := by
  have hdepth : r'.depth = r.depth := (h.keeps (keeps_nests fuel) (admits_nests a)).1
  -- only a body that runs leads to accesses; everything else is silent
  cases h with
  | undefined | overApplied | misapplied => exact .silent hr rfl nofun
  | kept =>
    exact .silent (hr.of_alias? fun b => by rw [alias?_note, alias?_count]) hdepth
      fun x hx => Except.ok.inj hx ▸ nofun
  | compiled _ _ compiles =>
    have hcompiled : Registry.Strict _ := hr.of_alias? fun b =>
      (alias?_of_spaces (spaces_of_compiles compiles) b).trans (alias?_count ..)
    refine .silent ((hcompiled.modifyAlias fun _ h => h.keep _).of_alias? fun b => alias?_note ..)
      hdepth fun x hx => Except.ok.inj hx ▸ nofun
  | faultySource _ _ compiles =>
    exact .silent (hr.of_alias? fun b =>
      (alias?_of_spaces (spaces_of_compiles compiles) b).trans (alias?_count ..)) hdepth nofun
  | faultyParameter _ _ compiles =>
    exact .silent (orderly_compilesAll hr compiles).strict hdepth nofun
  | remembered entry _ _ compiles found =>
    have hcompiled := (orderly_compilesAll hr compiles).strict
    refine .silent (hcompiled.of_alias? fun b => by rw [alias?_note, alias?_count]) hdepth
      fun x hx => ?_
    cases hr a _ entry with
    | function _ remembered => exact Except.ok.inj hx ▸ remembered _ _ _ rfl found
  | @ran f memo call types result _ r₁ r₂ entry _ compiles _ applies =>
    have hcompiled := orderly_compilesAll hr compiles
    cases hr a _ entry with
    | function function_strict =>
      have hbody := hW.applies (hcompiled.strict.of_alias? fun b => by
        rw [alias?_note, alias?_count]) function_strict applies
      refine hbody.congr ?_ ((depth_note ..).trans hcompiled.nests.1) ?_ nofun hbody.result
      · split
        · exact hbody.strict.modifyAlias fun _ h => h.remember (hbody.result _ rfl)
        · exact hbody.strict
      · split
        · exact depth_modifyAlias ..
        · rfl
  | failed entry _ compiles _ applies =>
    have hcompiled := orderly_compilesAll hr compiles
    cases hr a _ entry with
    | function function_strict =>
      have hbody := hW.applies (hcompiled.strict.of_alias? fun b => by
        rw [alias?_note, alias?_count]) function_strict applies
      exact hbody.congr hbody.strict ((depth_note ..).trans hcompiled.nests.1) rfl
        (fun error herror => ⟨error, herror⟩) hbody.result

end Disciplined

/-- **Where functions are strict, failures are passed on** from each access to the one around it. -/
theorem disciplined_world (fuel : Nat) : Disciplined fuel := by
  induction fuel with
  | zero => exact ⟨fun _ => nofun, fun _ _ => nofun⟩
  | succ fuel ih =>
    refine ⟨fun {a demand arguments r log answer r'} hr h => ?_, fun hr hf h =>
      ih.callsFunction hr hf h⟩
    have hnests := (keeps_nests (fuel + 1)).accesses h
    obtain @⟨inner, resolved, _, r₁, resolves, rfl⟩ := h
    have hinner := ih.resolves (hr.of_alias? fun _ => rfl : r.enter.Strict) resolves
    refine ⟨hinner.strict.of_alias? fun b => alias?_leave .., hnests,
      hinner.passesOn.concat hinner.fails, fun v hv => ?_, ?_, fun x hx => ?_⟩
    · obtain rfl : _ = v := by simpa using hv
      rfl
    · rintro ⟨v, hv, error, herror⟩
      obtain hv | hv := List.mem_append.1 hv
      · obtain ⟨error, rfl⟩ := hinner.fails ⟨v, hv, error, herror⟩
        exact ⟨error, rfl⟩
      · obtain rfl := List.mem_singleton.1 hv
        exact ⟨error, herror⟩
    · cases resolved with
      | error error => cases hx
      | ok y => exact Demand.eq_of_require hx ▸ hinner.result y rfl

/-! ## Runs of strict bodies -/

/-- A strict body about to run with strict functions. -/
structure StrictRun (r : Registry) (b : Body) (frame : Frame) : Prop where
  registry : r.Strict
  body : b.Strict
  frame : ∀ f ∈ frame, f.Strict

namespace StrictRun

variable {frame : Frame} {log : List Visit} {answer : Except AliasError (Normalized Generator)}

theorem create {v : Validator} {next : Ty → Body} (h : StrictRun r (.create v next) frame)
    (t : Ty) : StrictRun (r.newType v).2 (next t) frame := by
  cases h.body with
  | create rest => exact ⟨h.registry.of_alias? fun _ => rfl, rest t, h.frame⟩

theorem answered {next : Except AliasError (Normalized Nat) → Body}
    (hrest : ∀ x, (next (.ok x)).Strict) (hfails : ∀ error, next (.error error) = .fail error)
    (hframe : ∀ f ∈ frame, f.Strict) (h : Orderly Normalized.Strict r log answer r') :
    StrictRun r' (next (frame.receive answer).1) (frame.receive answer).2 := by
  obtain ⟨hnext, hframe'⟩ := Frame.strict_receive hrest hfails hframe h.result
  exact ⟨h.strict, hnext, hframe'⟩

theorem access {demand : Demand} {arguments : List (Expr Nat)}
    {next : Except AliasError (Normalized Nat) → Body}
    (h : StrictRun r (.access a demand arguments next) frame) {es : List TypeExpr}
    (haccess : (world fuel).accesses a demand es r log answer r') :
    StrictRun r' (next (frame.receive answer).1) (frame.receive answer).2 := by
  cases h.body with
  | access rest fails =>
    exact answered rest fails h.frame ((disciplined_world fuel).accesses h.registry haccess)

theorem call {position : Nat} {arguments : List (Expr Nat)}
    {next : Except AliasError (Normalized Nat) → Body}
    (h : StrictRun r (.call position arguments next) frame) {es : List TypeExpr}
    (hcall : (world fuel).calls (frame.get position) es r log answer r') :
    StrictRun r' (next (frame.receive answer).1) (frame.receive answer).2 := by
  have hf := Frame.strict_get h.frame position
  cases h.body with
  | call rest fails =>
    exact answered rest fails h.frame ((disciplined_world fuel).calls h.registry hf hcall)

theorem build {captured : List Nat} {function : List Ty → Body} {next : Nat → Body}
    (h : StrictRun r (.build captured function next) frame) :
    StrictRun r (next frame.length) (frame.build captured function) := by
  cases h.body with
  | build built rest => exact ⟨h.registry, rest _, Frame.strict_build h.frame captured built⟩

end StrictRun

end Registry

end NamedTypes
