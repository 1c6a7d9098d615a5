import NamedTypes.Proofs.History
import NamedTypes.Proofs.Provenance

/-! # The types of a session
Users have no types but those that were made in the course of their session, and neither have the
functions that they write. So everything that operations over these types lead to is over them: the
literals that are read, the registry, and the arguments of all accesses
(`Registry.History.yields`). -/

namespace NamedTypes

variable {K : Ty → Prop}

/-- Operations whose users have only types of `K` and type functions over `K`. -/
def Operation.Over (K : Ty → Prop) : Operation → Prop
  | .normalize e | .bind _ _ e => e.Over K
  | .bindLiteral _ _ _ prelude | .readLiteral _ _ prelude => ∀ name t, prelude.get? name = some t → K t
  | .use _ _ arguments => ∀ e ∈ arguments, TypeExpr.Over K e
  | .call f arguments => f.Over K ∧ ∀ e ∈ arguments, TypeExpr.Over K e
  | _ => True

namespace Registry

variable {fuel space : Nat} {name : String} {r r' : Registry} {log : List Visit}

/-- What is done in turn is over `K` if each part is. -/
theorem yields_inTurn {α β : Type} {Q : β → Prop}
    {step : α → Registry → List Visit → Except AliasError β → Registry → Prop} {as : List α}
    {outcome : Except AliasError (List β)} (hr : r.Over K) (hK : r'.Made ≤ K)
    (hgrows : ∀ a ∈ as, ∀ {r log outcome r'}, step a r log outcome r' → r.Made ≤ r'.Made)
    (hstep : ∀ a ∈ as, ∀ {r log outcome r'}, r.Over K → r'.Made ≤ K → step a r log outcome r' →
      Yields K Q log outcome r')
    (h : InTurn step as r log outcome r') : Yields K (fun bs => ∀ b ∈ bs, Q b) log outcome r' := by
  have hrest {as r log outcome r'} (h : InTurn step as r log outcome r')
      (hgrows : ∀ a ∈ as, ∀ {r log outcome r'}, step a r log outcome r' → r.Made ≤ r'.Made) :
      r.Made ≤ r'.Made :=
    h.keeps (R := fun r _ r' => r.Made ≤ r'.Made) (fun _ => le_rfl) (fun h h' => h.trans h') hgrows
  induction h with
  | nil =>
    refine .silent hr fun bs hbs => ?_
    obtain rfl := Except.ok.inj hbs
    exact fun b hb => absurd hb List.not_mem_nil
  | cons first others ih =>
    obtain ⟨hfirst, hgrows⟩ := List.forall_mem_cons.1 hgrows
    obtain ⟨hhead, hstep⟩ := List.forall_mem_cons.1 hstep
    have hb := hhead hr ((hrest others hgrows).trans hK) first
    have hbs := ih hb.registry hK hgrows hstep
    refine (hb.trans hbs).ending hbs.registry fun bs h => ?_
    obtain rfl := Except.ok.inj h
    exact List.forall_mem_cons.2 ⟨hb.result _ rfl, hbs.result _ rfl⟩
  | failedFirst first =>
    have hb := hstep _ List.mem_cons_self hr hK first
    exact hb.ending hb.registry (by rintro _ ⟨⟩)
  | failedRest first others ih =>
    obtain ⟨hfirst, hgrows⟩ := List.forall_mem_cons.1 hgrows
    obtain ⟨hhead, hstep⟩ := List.forall_mem_cons.1 hstep
    have hb := hhead hr ((hrest others hgrows).trans hK) first
    have hbs := ih hb.registry hK hgrows hstep
    exact (hb.trans hbs).ending hbs.registry (by rintro _ ⟨⟩)

/-- Literals are read as expressions over the types of the prelude and those of the registry. -/
theorem Reads.yields {prelude : Prelude} (hprelude : ∀ name t, prelude.get? name = some t → K t)
    {v : Json.Value} : ∀ {r r' : Registry} {log : List Visit} {outcome : Except AliasError TypeExpr},
      r.Over K → r'.Made ≤ K → Reads (world fuel) space prelude v r log outcome r' →
      Yields K (TypeExpr.Over K) log outcome r' := by
  have hempty : ∀ e ∈ ([] : List TypeExpr), TypeExpr.Over K e :=
    fun e he => absurd he List.not_mem_nil
  induction v using Json.Value.memberInduction with
  | null | bool | number =>
    rintro r _ _ _ hr - ⟨⟩
    exact .silent hr fun e he => Except.ok.inj he ▸ .data
  | string name =>
    intro r r' log outcome hr hK h
    cases h with
    | declared _ accesses =>
      have hanswer := (closed_world K fuel).accesses hr hempty hK accesses
      refine hanswer.ending hanswer.registry fun e he => ?_
      obtain rfl := Except.ok.inj he
      cases hanswer.result _ rfl with
      | type known => exact .leaf known
    | failed _ accesses =>
      have hanswer := (closed_world K fuel).accesses hr hempty hK accesses
      exact hanswer.ending hanswer.registry (by rintro _ ⟨⟩)
    | supplied _ supplied =>
      exact .silent hr fun e he => Except.ok.inj he ▸ .leaf (hprelude _ _ supplied)
    | unknown => exact .silent hr (by rintro _ ⟨⟩)
  | array items ih =>
    intro r r' log outcome hr hK h
    cases h with
    | @array _ _ _ _ read hread =>
      have hitems := yields_inTurn hr hK (fun _ _ => Reads.keeps (keeps_made fuel))
        (fun v hv => ih v hv) hread
      refine hitems.ending hitems.registry fun e he => ?_
      cases read with
      | error error => cases he
      | ok es => exact Except.ok.inj he ▸ .sequence (hitems.result es rfl)
  | object members ih =>
    intro r r' log outcome hr hK h
    cases h with
    | @object _ _ _ _ read hread =>
      have hvalues := yields_inTurn hr hK (fun _ _ => Reads.keeps (keeps_made fuel))
        (fun v hv => by
          obtain ⟨m, hm, rfl⟩ := List.mem_map.1 hv
          exact ih m hm) hread
      refine hvalues.ending hvalues.registry fun e he => ?_
      cases read with
      | error error => cases he
      | ok es =>
        refine Except.ok.inj he ▸ .record fun field hfield => ?_
        exact hvalues.result es rfl _ (List.of_mem_zip hfield).2

theorem Binds.over {source : TypeExpr} {outcome : Except AliasError Accessor} (hr : r.Over K)
    (hsource : source.Over K) (h : Binds space name source r outcome r') : r'.Over K := by
  intro a entry hentry
  obtain hentry | rfl := h.entry_cases hentry
  · exact hr a entry hentry
  · exact Alias.over_ofSource hsource _

theorem Binds.made_le {source : TypeExpr} {outcome : Except AliasError Accessor}
    (h : Binds space name source r outcome r') : r.Made ≤ r'.Made := by
  cases h with
  | bound => exact made_le_of_instances (instances_note ..)
  | rejected => exact made_le_noteFailure

/-- Operations that access nothing make types at most. -/
theorem made_le_of_direct {op : Operation} {outcome : Except AliasError Outcome}
    (isDirect : op.isDirect = true) (h : perform fuel op r = some (outcome, r')) :
    r.Made ≤ r'.Made := by
  cases performsDirectly_of isDirect h with
  | addSpace => exact made_le_of_instances (instances_note ..)
  | newType => exact made_le_newType r _
  | normalize normalizes => exact (keeps_made fuel).normalizes normalizes
  | declareForward declares =>
    cases declares with
    | declared | rejected => exact made_le_of_instances (instances_note ..)
    | pending => exact le_rfl
  | bind binds => exact binds.made_le
  | lookup => exact le_rfl

/-- Types that have been made stay so, whatever is done. -/
theorem Performs.made_le {op : Operation} {outcome : Except AliasError Outcome}
    (h : Performs fuel r op log outcome r') : r.Made ≤ r'.Made := by
  cases h with
  | direct isDirect performed => exact made_le_of_direct isDirect performed
  | readLiteral reads => exact reads.keeps (keeps_made fuel)
  | bindLiteral reads binds => exact (reads.keeps (keeps_made fuel)).trans binds.made_le
  | bindLiteralRejected reads =>
    exact (reads.keeps (keeps_made fuel)).trans made_le_noteFailure
  | bindLiteralFailed reads => exact reads.keeps (keeps_made fuel)
  | use accesses => exact (keeps_made fuel).accesses accesses
  | call calls => exact (keeps_made fuel).callsFunction calls

theorem over_of_direct {op : Operation} {outcome : Except AliasError Outcome} (hr : r.Over K)
    (hop : op.Over K) (isDirect : op.isDirect = true)
    (h : perform fuel op r = some (outcome, r')) : r'.Over K := by
  intro a entry hentry
  obtain hentry | rfl | ⟨space, name, source, rfl, rfl⟩ := entry_cases_of_direct isDirect h hentry
  · exact hr a entry hentry
  · exact .pending
  · exact Alias.over_ofSource hop _

theorem AccessKind.over_given {P : Generator → Prop} {arguments : List TypeExpr}
    (h : ∀ e ∈ arguments, Expr.Over K P e) (kind : AccessKind) :
    ∀ e ∈ kind.given arguments, Expr.Over K P e := by
  cases kind with
  | get => exact fun e he => absurd he List.not_mem_nil
  | apply =>
    intro e he
    obtain rfl := List.mem_singleton.1 he
    exact .sequence h
  | call | resolve => exact h

/-- **Operations over `K`** leave the registry over `K`, and lead to accesses over `K` only. -/
theorem Performs.yields {op : Operation} {outcome : Except AliasError Outcome} (hr : r.Over K)
    (hop : op.Over K) (hK : r'.Made ≤ K) (h : Performs fuel r op log outcome r') :
    r'.Over K ∧ ∀ v ∈ log, ∀ e ∈ v.arguments, TypeExpr.Over K e := by
  cases h with
  | direct isDirect performed =>
    exact ⟨over_of_direct hr hop isDirect performed, fun _ hv => absurd hv List.not_mem_nil⟩
  | readLiteral reads =>
    have hread := Reads.yields hop hr hK reads
    exact ⟨hread.registry, hread.arguments⟩
  | bindLiteral reads binds =>
    have hread := Reads.yields hop hr (binds.made_le.trans hK) reads
    exact ⟨binds.over hread.registry (hread.result _ rfl), hread.arguments⟩
  | bindLiteralRejected reads =>
    have hread := Reads.yields hop hr (made_le_noteFailure.trans hK) reads
    refine ⟨hread.registry.of_alias? fun b => ?_, hread.arguments⟩
    rw [noteFailure, alias?_note, alias?_count]
  | bindLiteralFailed reads =>
    have hread := Reads.yields hop hr hK reads
    exact ⟨hread.registry, hread.arguments⟩
  | use accesses =>
    have hanswer := (closed_world K fuel).accesses hr (AccessKind.over_given hop _) hK accesses
    exact ⟨hanswer.registry, hanswer.arguments⟩
  | call calls =>
    have hanswer := (closed_world K fuel).callsFunction hr hop.1 hop.2 hK calls
    exact ⟨hanswer.registry, hanswer.arguments⟩

/-! ## Sessions -/

variable {ops : List Operation} {steps : List (Except AliasError Outcome × Registry)}

/-- The registry after steps. -/
def after (r : Registry) : List (Except AliasError Outcome × Registry) → Registry
  | [] => r
  | step :: rest => after step.2 rest

theorem History.made_le (h : History fuel ops r log steps) : r.Made ≤ (r.after steps).Made := by
  induction h with
  | nil => exact le_rfl
  | cons first _ ih => exact first.made_le.trans ih

/-- The type that a session starts with has been made at its end. -/
theorem History.made_newType {v : Validator} (h : History fuel (.newType v :: ops) r log steps) :
    (r.after steps).Made (r.newType v).1 := by
  cases h with
  | cons first others =>
    cases first with
    | direct _ performed =>
      obtain ⟨-, rfl⟩ := Prod.mk.inj (Option.some.inj performed)
      exact others.made_le _ (Registry.made_newType r v)

/-- Nothing is declared in the empty registry. -/
theorem Over.empty (K : Ty → Prop) : Registry.Over K {} := fun _ _ hentry => by cases hentry

/-- Sessions over `K` leave the registry over `K`, and lead to accesses over `K` only. -/
theorem History.yields (h : History fuel ops r log steps) (hr : r.Over K)
    (hops : ∀ op ∈ ops, op.Over K) (hK : (r.after steps).Made ≤ K) :
    (r.after steps).Over K ∧ ∀ v ∈ log, ∀ e ∈ v.arguments, TypeExpr.Over K e := by
  induction h with
  | nil => exact ⟨hr, List.forall_mem_nil _⟩
  | cons first others ih =>
    obtain ⟨hop, hops⟩ := List.forall_mem_cons.1 hops
    obtain ⟨hr', harguments⟩ := first.yields hr hop (others.made_le.trans hK)
    obtain ⟨hlast, hlater⟩ := ih hr' hops hK
    exact ⟨hlast, List.forall_mem_append.2 ⟨harguments, hlater⟩⟩

end Registry

end NamedTypes
