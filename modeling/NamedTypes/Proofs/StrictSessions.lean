import NamedTypes.Proofs.SessionProvenance
import NamedTypes.Proofs.Strictness

/-! # Strict sessions
In a session whose users only bring strict functions, every function that is bound, remembered or
returned is strict, so failures are passed on from each access to the one around it, whatever the
operations come to (`Registry.History.passesOn`). That concerns the accesses that reading literals
and calling functions lead to as well as those that users ask for. -/

namespace NamedTypes

/-- Operations whose users bring strict functions only. -/
def Operation.Strict : Operation → Prop
  | .bind _ _ source => source.Strict
  | .call function _ => function.Strict
  | _ => True

namespace Registry

variable {fuel space : Nat} {name : String} {r r' : Registry} {log : List Visit}

/-- What is made of the outcome of a stretch does not matter to it. -/
theorem Orderly.map {α β : Type} {Q : α → Prop} {outcome : Except AliasError α}
    (h : Orderly Q r log outcome r') (f : α → β) :
    Orderly (fun _ => True) r log (f <$> outcome) r' :=
  h.congr h.strict rfl rfl (fun error herror => ⟨error, by rw [herror]; rfl⟩) fun _ _ => trivial

/-! ## Literals -/

/-- What is done in turn ends with the first failure. -/
theorem orderly_inTurn {α β : Type} {Q : β → Prop}
    {step : α → Registry → List Visit → Except AliasError β → Registry → Prop} {as : List α}
    {outcome : Except AliasError (List β)} (hr : r.Strict)
    (hstep : ∀ a ∈ as, ∀ {r log outcome r'}, r.Strict → step a r log outcome r' →
      Orderly Q r log outcome r')
    (h : InTurn step as r log outcome r') : Orderly (fun _ => True) r log outcome r' := by
  induction h with
  | nil => exact .silent hr rfl fun _ _ => trivial
  | cons first _ ih =>
    obtain ⟨hhead, hstep⟩ := List.forall_mem_cons.1 hstep
    have hb := hhead hr first
    have hbs := ih hb.strict hstep
    exact (hb.trans hbs).congr hbs.strict rfl rfl nofun fun _ _ => trivial
  | failedFirst first =>
    have hb := hstep _ List.mem_cons_self hr first
    exact hb.congr hb.strict rfl rfl (fun error _ => ⟨_, rfl⟩) nofun
  | failedRest first _ ih =>
    obtain ⟨hhead, hstep⟩ := List.forall_mem_cons.1 hstep
    have hb := hhead hr first
    have hbs := ih hb.strict hstep
    exact (hb.trans hbs).congr hbs.strict rfl rfl (fun error _ => ⟨_, rfl⟩) nofun

/-- Reading a literal ends with the first failure of a name, and gives no function. -/
theorem Reads.orderly {prelude : Prelude} {v : Json.Value} :
    ∀ {r r' : Registry} {log : List Visit} {outcome : Except AliasError TypeExpr}, r.Strict →
      Reads (world fuel) space prelude v r log outcome r' →
      Orderly TypeExpr.Strict r log outcome r' := by
  induction v using Json.Value.memberInduction with
  | null | bool | number =>
    rintro r _ _ _ hr ⟨⟩
    exact .silent hr rfl fun e he => Except.ok.inj he ▸ nofun
  | string name =>
    intro r r' log outcome hr h
    cases h with
    | declared _ accesses =>
      have hanswer := (disciplined_world fuel).accesses hr accesses
      exact hanswer.congr hanswer.strict rfl rfl nofun fun e he => Except.ok.inj he ▸ nofun
    | failed _ accesses =>
      have hanswer := (disciplined_world fuel).accesses hr accesses
      exact hanswer.congr hanswer.strict rfl rfl (fun error _ => ⟨_, rfl⟩) nofun
    | supplied => exact .silent hr rfl fun e he => Except.ok.inj he ▸ nofun
    | unknown => exact .silent hr rfl nofun
  | array items ih =>
    intro r r' log outcome hr h
    cases h with
    | @array _ _ _ _ read hread =>
      have hitems := (orderly_inTurn hr (fun v hv => ih v hv) hread).map Expr.sequence
      refine hitems.congr hitems.strict rfl rfl (fun error herror => ⟨error, herror⟩) fun e he => ?_
      cases read with
      | error error => cases he
      | ok es => exact Except.ok.inj he ▸ nofun
  | object members ih =>
    intro r r' log outcome hr h
    cases h with
    | @object _ _ _ _ read hread =>
      have hvalues := (orderly_inTurn hr (fun v hv => by
        obtain ⟨m, hm, rfl⟩ := List.mem_map.1 hv
        exact ih m hm) hread).map fun es => Expr.record ((members.map Prod.fst).zip es)
      refine hvalues.congr hvalues.strict rfl rfl (fun error herror => ⟨error, herror⟩) fun e he => ?_
      cases read with
      | error error => cases he
      | ok es => exact Except.ok.inj he ▸ nofun

/-! ## Operations -/

theorem Binds.strict {source : TypeExpr} {outcome : Except AliasError Accessor} (hr : r.Strict)
    (hsource : source.Strict) (h : Binds space name source r outcome r') : r'.Strict := by
  intro a entry hentry
  obtain hentry | rfl := h.entry_cases hentry
  · exact hr a entry hentry
  · exact Alias.strict_ofSource hsource _

theorem Binds.depth_eq {source : TypeExpr} {outcome : Except AliasError Accessor}
    (h : Binds space name source r outcome r') : r'.depth = r.depth := by
  cases h with
  | bound => exact depth_note ..
  | rejected => exact depth_note ..

/-- Operations that access no alias leave no access running. -/
theorem depth_of_direct {op : Operation} {outcome : Except AliasError Outcome}
    (isDirect : op.isDirect = true) (h : perform fuel op r = some (outcome, r')) :
    r'.depth = r.depth := by
  cases performsDirectly_of isDirect h with
  | addSpace => exact depth_note ..
  | newType => rfl
  | normalize normalizes => exact ((keeps_nests fuel).normalizes normalizes).1
  | declareForward declares =>
    cases declares with
    | declared | rejected => exact depth_note ..
    | pending => rfl
  | bind binds => exact binds.depth_eq
  | lookup => rfl

theorem strict_of_direct {op : Operation} {outcome : Except AliasError Outcome} (hr : r.Strict)
    (hop : op.Strict) (isDirect : op.isDirect = true)
    (h : perform fuel op r = some (outcome, r')) : r'.Strict := by
  intro a entry hentry
  obtain hentry | rfl | ⟨space, name, source, rfl, rfl⟩ := entry_cases_of_direct isDirect h hentry
  · exact hr a entry hentry
  · exact .pending
  · exact Alias.strict_ofSource hop _

/-- **Strict operations are orderly**: they leave the registry strict, and fail if an access that
they lead to does. -/
theorem Performs.orderly {op : Operation} {outcome : Except AliasError Outcome} (hr : r.Strict)
    (hop : op.Strict) (h : Performs fuel r op log outcome r') :
    Orderly (fun _ => True) r log outcome r' := by
  cases h with
  | direct isDirect performed =>
    exact .silent (strict_of_direct hr hop isDirect performed) (depth_of_direct isDirect performed)
      fun _ _ => trivial
  | readLiteral reads => exact (Reads.orderly hr reads).map _
  | bindLiteral reads binds =>
    have hread := Reads.orderly hr reads
    rw [← List.append_nil log]
    exact hread.trans
      (.silent (binds.strict hread.strict (hread.result _ rfl)) binds.depth_eq fun _ _ => trivial)
  | bindLiteralRejected reads =>
    have hread := Reads.orderly hr reads
    exact hread.congr (hread.strict.of_alias? fun b => alias?_noteFailure ..) rfl (depth_note ..)
      (fun error _ => ⟨_, rfl⟩) nofun
  | bindLiteralFailed reads =>
    have hread := Reads.orderly hr reads
    exact hread.congr hread.strict rfl rfl (fun error _ => ⟨_, rfl⟩) nofun
  | use accesses => exact ((disciplined_world fuel).accesses hr accesses).map _
  | call calls => exact ((disciplined_world fuel).callsFunction hr hop calls).map _

/-! ## Sessions -/

variable {ops : List Operation} {steps : List (Except AliasError Outcome × Registry)}

/-- Strict sessions leave the registry strict, and pass failures on. -/
theorem History.strict (h : History fuel ops r log steps) (hr : r.Strict)
    (hops : ∀ op ∈ ops, op.Strict) :
    (r.after steps).Strict ∧ Nests r log (r.after steps) ∧ PassesOn log := by
  induction h with
  | nil => exact ⟨hr, nests_of_depth rfl, fun _ _ _ _ _ hlog => by simp at hlog⟩
  | cons first _ ih =>
    obtain ⟨hop, hops⟩ := List.forall_mem_cons.1 hops
    have hfirst := first.orderly hr hop
    obtain ⟨hlast, hnests, hpasses⟩ := ih hfirst.strict hops
    -- no later access is shallower than the first operation, so none contains an access of it
    exact ⟨hlast, hfirst.nests.trans hnests, hfirst.passesOn.append hpasses hfirst.ends fun v hv =>
      hfirst.nests.1 ▸ hnests.2 v hv⟩

/-- **Failures are passed on in strict sessions**, whatever fails in their course. -/
theorem History.passesOn (h : History fuel ops {} log steps) (hops : ∀ op ∈ ops, op.Strict) :
    PassesOn log :=
  (h.strict (fun _ _ hentry => by cases hentry) hops).2.2

end Registry

end NamedTypes
