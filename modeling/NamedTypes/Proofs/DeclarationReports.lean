import NamedTypes.Proofs.History
import NamedTypes.Proofs.Matching

/-! # Reporting failed declarations
A declaration that fails is reported once, with one exception (`declaration_failure_reported`).
Binding a literal tells failures that an access of the literal has reported from those that nobody
has by the kind of the error alone. A type function may fail with an error of the kind that
declarations raise; then the access reports it, and the declaration reports it again
(`literal_failure_reported_twice`).

What is reported on the way from one registry to another is a list of notices
(`Registry.Reports`), and such lists add up. -/

namespace NamedTypes

namespace Notice

/-- Whether a notice tells of a failure. -/
def isFailure (notice : Notice) : Bool := decide (notice.event.severity = .error)

/-- What is noted of a failure that concerns a name, in the namespace called `spaceName`. -/
def ofFailure (spaceName : String) (space : Nat) (name : String) (event : Log.Event)
    (error : AliasError) : Notice :=
  ⟨space, event, [("namespace", spaceName), ("alias", name), ("code", error.code),
    ("error", error.message)]⟩

end Notice

/-- An access failed that was not made inside of another one. -/
def AccessFailed (log : List Visit) (error : AliasError) : Prop :=
  ∃ v ∈ log, v.before.depth = 0 ∧ v.answer = .error error

theorem accessFailed_append {log log' : List Visit} {error : AliasError} :
    AccessFailed (log ++ log') error ↔ AccessFailed log error ∨ AccessFailed log' error := by
  simp only [AccessFailed, List.mem_append, or_and_right, exists_or]

namespace Registry

variable {r r' r₁ r₂ : Registry} {fuel : Nat}

/-! ## Reports -/

/-- From one registry to another, exactly these failures were reported, in this order: each one is
noted, and counted for its namespace. -/
structure Reports (r : Registry) (failures : List Notice) (r' : Registry) : Prop where
  /-- The nesting is as deep as before. -/
  depth_eq : r'.depth = r.depth
  /-- The namespaces have the names that they had. -/
  names_eq : r'.perSpace Namespace.name = r.perSpace Namespace.name
  /-- Every namespace has counted its failures. -/
  counted_eq : ∀ space, r'.counted space .errors =
    r.counted space .errors + failures.countP fun notice => notice.space = space
  /-- Among what was noted, the failures are these. -/
  notices_eq : ∃ raised : List Notice, r'.notices.toList = r.notices.toList ++ raised ∧
    raised.filter Notice.isFailure = failures

namespace Reports

variable {failures failures' : List Notice}

theorem trans (h : Reports r failures r₁) (h' : Reports r₁ failures' r₂) :
    Reports r (failures ++ failures') r₂ where
  depth_eq := h'.depth_eq.trans h.depth_eq
  names_eq := h'.names_eq.trans h.names_eq
  counted_eq space := by
    rw [h'.counted_eq, h.counted_eq, List.countP_append, Nat.add_assoc]
  notices_eq := by
    obtain ⟨raised, heq, hraised⟩ := h.notices_eq
    obtain ⟨raised', heq', hraised'⟩ := h'.notices_eq
    refine ⟨raised ++ raised', ?_, ?_⟩
    · rw [heq', heq, List.append_assoc]
    · rw [List.filter_append, hraised, hraised']

/-- A namespace is called the same after reports. -/
theorem name_eq (h : Reports r failures r') (space : Nat) :
    (r'.space? space).map Namespace.name = (r.space? space).map Namespace.name := by
  rw [← getElem?_perSpace, h.names_eq, getElem?_perSpace]

/-! ## What reports nothing -/

/-- Where nothing is noted and no failure is counted, none is reported. -/
theorem of_notices_eq (hdepth : r'.depth = r.depth)
    (hnames : r'.perSpace Namespace.name = r.perSpace Namespace.name)
    (hcounted : ∀ space, r'.counted space .errors = r.counted space .errors)
    (h : r'.notices = r.notices) : Reports r [] r' :=
  ⟨hdepth, hnames, hcounted, [], by rw [h, List.append_nil], rfl⟩

theorem refl (r : Registry) : Reports r [] r := .of_notices_eq rfl rfl (fun _ => rfl) rfl

theorem newType (r : Registry) (v : Validator) : Reports r [] (r.newType v).2 :=
  .of_notices_eq rfl rfl (fun _ => rfl) rfl

/-- Counting anything but failures reports none. -/
theorem count {space : Nat} {counter : Counter} (h : counter ≠ .errors) :
    Reports r [] (r.count space counter) :=
  .of_notices_eq rfl (perSpace_modifySpace fun _ => rfl)
    (fun _ => counted_count_of_ne (.inr h)) rfl

/-- Noting anything but failures reports none. -/
theorem note {space : Nat} {event : Log.Event} {fields : Entries String}
    (h : event.severity ≠ .error) : Reports r [] (r.note space event fields) := by
  refine ⟨depth_note .., perSpace_note, fun _ => counted_note .., ?_⟩
  unfold Registry.note
  split
  · refine ⟨[_], Array.toList_push, List.filter_eq_nil_iff.2 fun notice hnotice => ?_⟩
    rw [List.mem_singleton.1 hnotice]
    exact fun hfailure => h (of_decide_eq_true hfailure)
  · exact ⟨[], (List.append_nil _).symm, rfl⟩

theorem setSlots (r : Registry) (space : Nat) (name : String) (s : Slots) :
    Reports r [] (r.setSlots space name s) := by
  refine .of_notices_eq rfl (perSpace_modifySpace fun _ => rfl) (fun other => ?_) rfl
  rw [Registry.counted_eq, Registry.counted_eq, tallies]
  exact congrArg (fun counts : List Nat => counts[other]?.getD 0) (perSpace_modifySpace fun _ => rfl)

theorem modifyAlias (r : Registry) (a : Accessor) (f : Alias → Alias) :
    Reports r [] (r.modifyAlias a f) := by
  unfold Registry.modifyAlias Registry.setAlias
  split
  · split
    · exact .setSlots ..
    · exact .refl r
  · exact .refl r

/-- Giving a name a meaning, counting and noting it. -/
theorem declared (r : Registry) (space : Nat) (name : String) (entry : Alias) {counter : Counter}
    {event : Log.Event} {fields : Entries String} (hcounter : counter ≠ .errors)
    (hevent : event.severity ≠ .error) :
    Reports r [] (((r.put space name entry).count space counter).note space event fields) :=
  ((Reports.setSlots r space name _).trans (.count hcounter)).trans (.note hevent)

/-- Counting and noting a failure reports it. -/
theorem noteFailure {space : Nat} {spaceName : String}
    (hname : (r.space? space).map Namespace.name = some spaceName) (name : String)
    {event : Log.Event} (hevent : event.severity = .error) (error : AliasError) :
    Reports r [.ofFailure spaceName space name event error]
      (r.noteFailure space name event error) := by
  obtain ⟨n, hn, rfl⟩ := Option.map_eq_some_iff.1 hname
  obtain ⟨hdepth, -, hnotices⟩ := noteFailure_effect hn name event error
  refine ⟨hdepth, ?_, fun other => ?_, _, hnotices, ?_⟩
  · rw [Registry.noteFailure, perSpace_note]
    exact perSpace_modifySpace fun _ => rfl
  · rw [Registry.noteFailure, counted_note, List.countP_singleton]
    by_cases hspace : space = other
    · subst hspace
      rw [counted_count (Option.isSome_iff_exists.2 ⟨n, hn⟩)]
      simp [Notice.ofFailure]
    · rw [counted_count_of_ne (.inl hspace)]
      simp [Notice.ofFailure, hspace]
  · exact List.filter_cons_of_pos (decide_eq_true hevent)

/-- A failure that is reported after others. -/
theorem concat {space : Nat} {spaceName : String} (h : Reports r failures r')
    (hname : (r.space? space).map Namespace.name = some spaceName) (name : String)
    {event : Log.Event} (hevent : event.severity = .error) (error : AliasError) :
    Reports r (failures ++ [.ofFailure spaceName space name event error])
      (r'.noteFailure space name event error) :=
  h.trans (.noteFailure ((h.name_eq space).trans hname) name hevent error)

/-- A stretch inside of an access, seen from outside. -/
theorem around (h : Reports r.enter failures r₁) :
    Reports r failures { r₁ with depth := r.depth } :=
  ⟨rfl, h.names_eq, h.counted_eq, h.notices_eq⟩

end Reports

/-! ## Accesses -/

theorem admits_reports (a : Accessor) :
    Admits (fun r _ r' => 0 < r.depth → Reports r [] r') a where
  count h _ := .count (Counter.ne_errors h)
  note h _ := .note h
  keep _ := .modifyAlias ..
  remember _ := .modifyAlias ..

/-- While an access is running, no failure is reported. -/
theorem keeps_reports (fuel : Nat) :
    (world fuel).Keeps fun r _ r' => 0 < r.depth → Reports r [] r' := by
  refine keeps_world (fun r _ => .refl r) (fun h₁ h₂ hdepth => ?_) (fun r v _ => .newType r v)
    (fun {_ a demand arguments r log answer r'} hW h hdepth => ?_) fuel
  · exact (h₁ hdepth).trans (h₂ ((h₁ hdepth).depth_eq ▸ hdepth))
  · obtain ⟨resolves, -⟩ := h
    have hinner := resolves.keeps hW (admits_reports a) (Nat.succ_pos r.depth)
    cases answer with
    | ok result => exact hinner.around
    | error error =>
      rw [leave, if_neg (Nat.ne_of_gt hdepth)]
      exact hinner.around

/-- What an access reports that is not made inside of another one: its failure, if it fails. -/
theorem reports_of_accesses {a : Accessor} {demand : Demand} {arguments : List TypeExpr}
    {log : List Visit} {answer : Except AliasError (Normalized Generator)} {spaceName : String}
    (h : (world fuel).accesses a demand arguments r log answer r') (outermost : r.depth = 0)
    (hname : (r.space? a.space).map Namespace.name = some spaceName) :
    (∀ result, answer = .ok result → Reports r [] r' ∧ ∀ error, ¬ AccessFailed log error) ∧
      ∀ error, answer = .error error →
        Reports r [.ofFailure spaceName a.space a.name .resolutionFailed error] r' ∧
          AccessFailed log error := by
  cases fuel with
  | zero => exact h.elim
  | succ fuel =>
    obtain @⟨inner, resolved, _, r₁, resolves, hanswer⟩ := h
    have hinner : Reports r.enter [] r₁ :=
      resolves.keeps (keeps_reports fuel) (admits_reports a) (Nat.succ_pos r.depth)
    constructor
    · rintro result rfl
      refine ⟨hinner.around, fun error hfailed => ?_⟩
      rcases accessFailed_append.1 hfailed with ⟨v, hv, houtermost, -⟩ | ⟨v, hv, -, hv'⟩
      · -- the accesses inside are made while this one is running
        have hdeeper := (resolves.keeps (keeps_nests fuel) (admits_nests a)).2 v hv
        rw [houtermost] at hdeeper
        exact absurd hdeeper (Nat.not_succ_le_zero r.depth)
      · obtain rfl := List.mem_singleton.1 hv
        cases hanswer.trans hv'
    · rintro error rfl
      refine ⟨?_, accessFailed_append.2 (.inr ⟨_, List.mem_cons_self, outermost, hanswer.symm⟩)⟩
      rw [leave, if_pos outermost]
      exact hinner.around.concat hname a.name rfl error

/-! ## Readings of literals -/

/-- What reading a literal reports: nothing, unless an access that it makes fails. -/
inductive ReadingReports {α : Type} (spaceName : String) (space : Nat) (r : Registry)
    (log : List Visit) : Except AliasError α → Registry → Prop
  | succeeded {x : α} {r' : Registry} (reports : Reports r [] r')
    (noFailure : ∀ error, ¬ AccessFailed log error) :
    ReadingReports spaceName space r log (.ok x) r'
  /-- A name is known to nobody. -/
  | refused {error : AliasError} {r' : Registry} (reports : Reports r [] r')
    (noFailure : ∀ error, ¬ AccessFailed log error)
    (isDeclarationError : error.isDeclarationError = true) :
    ReadingReports spaceName space r log (.error error) r'
  | failed {name : String} {error : AliasError} {r' : Registry}
    (reports : Reports r [.ofFailure spaceName space name .resolutionFailed error] r')
    (failure : AccessFailed log error) :
    ReadingReports spaceName space r log (.error error) r'

namespace ReadingReports

variable {α β : Type} {spaceName : String} {space : Nat} {log log' : List Visit}
  {outcome : Except AliasError α}

theorem silent (spaceName : String) (space : Nat) (r : Registry) (x : α) :
    ReadingReports spaceName space r [] (.ok x) r :=
  .succeeded (.refl r) fun _ ⟨_, hv, _⟩ => List.not_mem_nil hv

theorem map (h : ReadingReports spaceName space r log outcome r') (f : α → β) :
    ReadingReports spaceName space r log (f <$> outcome) r' := by
  cases h with
  | succeeded reports noFailure => exact .succeeded reports noFailure
  | refused reports noFailure isDeclarationError =>
    exact .refused reports noFailure isDeclarationError
  | failed reports failure => exact .failed reports failure

/-- What was read without failure reports nothing. -/
theorem reports_of_ok {x : α} (h : ReadingReports spaceName space r log (.ok x) r') :
    Reports r [] r' := by
  cases h with
  | succeeded reports => exact reports

/-- What is read after something that was read without failure. -/
theorem after {x : β} (h : ReadingReports spaceName space r log (.ok x) r₁)
    (h' : ReadingReports spaceName space r₁ log' outcome r') :
    ReadingReports spaceName space r (log ++ log') outcome r' := by
  obtain @⟨_, _, reports, noFailure⟩ := h
  have hnone (hlater : ∀ error, ¬ AccessFailed log' error) (error : AliasError) :
      ¬ AccessFailed (log ++ log') error :=
    fun hfailed => (accessFailed_append.1 hfailed).elim (noFailure error) (hlater error)
  cases h' with
  | succeeded reports' noFailure' => exact .succeeded (reports.trans reports') (hnone noFailure')
  | refused reports' noFailure' isDeclarationError =>
    exact .refused (reports.trans reports') (hnone noFailure') isDeclarationError
  | failed reports' failure =>
    exact .failed (reports.trans reports') (accessFailed_append.2 (.inr failure))

end ReadingReports

/-- What is read in turn reports what its parts do. -/
theorem reports_of_inTurn {α β : Type} {spaceName : String} {space : Nat}
    {step : α → Registry → List Visit → Except AliasError β → Registry → Prop} {as : List α}
    {log : List Visit} {outcome : Except AliasError (List β)}
    (h : InTurn step as r log outcome r') (outermost : r.depth = 0)
    (hname : (r.space? space).map Namespace.name = some spaceName)
    (hstep : ∀ a ∈ as, ∀ {r log outcome r'}, step a r log outcome r' → r.depth = 0 →
      (r.space? space).map Namespace.name = some spaceName →
      ReadingReports spaceName space r log outcome r') :
    ReadingReports spaceName space r log outcome r' := by
  induction h with
  | nil => exact .silent ..
  | @cons _ _ b _ _ _ _ _ _ first _ ih =>
    have hfirst := hstep _ List.mem_cons_self first outermost hname
    have hreports := hfirst.reports_of_ok
    exact hfirst.after ((ih (hreports.depth_eq.trans outermost)
      ((hreports.name_eq space).trans hname)
      fun a ha => hstep a (List.mem_cons_of_mem _ ha)).map (b :: ·))
  | failedFirst first =>
    exact (hstep _ List.mem_cons_self first outermost hname).map fun b => [b]
  | failedRest first _ ih =>
    have hfirst := hstep _ List.mem_cons_self first outermost hname
    have hreports := hfirst.reports_of_ok
    exact hfirst.after (ih (hreports.depth_eq.trans outermost)
      ((hreports.name_eq space).trans hname) fun a ha => hstep a (List.mem_cons_of_mem _ ha))

/-- What reading a literal reports. -/
theorem Reads.reports {space : Nat} {spaceName : String} {prelude : Prelude} {v : Json.Value} :
    ∀ {r r' : Registry} {log : List Visit} {outcome : Except AliasError TypeExpr},
      Reads (world fuel) space prelude v r log outcome r' → r.depth = 0 →
      (r.space? space).map Namespace.name = some spaceName →
      ReadingReports spaceName space r log outcome r' := by
  induction v using Json.Value.memberInduction with
  | null => rintro r _ _ _ ⟨⟩ - -; exact .silent ..
  | bool value => rintro r _ _ _ ⟨⟩ - -; exact .silent ..
  | number value => rintro r _ _ _ ⟨⟩ - -; exact .silent ..
  | string name =>
    intro r r' log outcome h outermost hname
    -- the access is that of a name of this namespace
    have hspace : (r.space? (r.accessor space name).space).map Namespace.name = some spaceName := by
      rwa [space_accessor]
    cases h with
    | declared _ accesses =>
      obtain ⟨reports, noFailure⟩ := (reports_of_accesses accesses outermost hspace).1 _ rfl
      exact .succeeded reports noFailure
    | failed _ accesses =>
      obtain ⟨reports, failure⟩ := (reports_of_accesses accesses outermost hspace).2 _ rfl
      rw [space_accessor] at reports
      exact .failed reports failure
    | supplied => exact .silent ..
    | unknown => exact .refused (.refl r) (fun _ ⟨_, hv, _⟩ => List.not_mem_nil hv) rfl
  | array items ih =>
    intro r r' log outcome h outermost hname
    cases h with
    | array hitems =>
      exact (reports_of_inTurn hitems outermost hname fun v hv => ih v hv).map _
  | object members ih =>
    intro r r' log outcome h outermost hname
    cases h with
    | object hmembers =>
      refine (reports_of_inTurn hmembers outermost hname fun v hv => ?_).map _
      obtain ⟨m, hm, rfl⟩ := List.mem_map.1 hv
      exact ih m hm

/-! ## Declarations -/

/-- What a declaration reports that accesses nothing: its refusal, if it is refused. -/
def DeclarationReports {α : Type} (spaceName : String) (space : Nat) (name : String)
    (r : Registry) (outcome : Except AliasError α) (r' : Registry) : Prop :=
  match outcome with
  | .ok _ => Reports r [] r'
  | .error error => Reports r [.ofFailure spaceName space name .bindingRejected error] r'

theorem DeclarationReports.map {α β : Type} {space : Nat} {name spaceName : String}
    {outcome : Except AliasError α} (h : DeclarationReports spaceName space name r outcome r')
    (f : α → β) : DeclarationReports spaceName space name r (f <$> outcome) r' := by
  cases outcome <;> exact h

theorem DeclaresForward.reports {space : Nat} {name spaceName : String}
    {outcome : Except AliasError Accessor} (h : DeclaresForward space name r outcome r')
    (hname : (r.space? space).map Namespace.name = some spaceName) :
    DeclarationReports spaceName space name r outcome r' := by
  cases h with
  | declared => exact .declared r space name .pending (by decide) (by decide)
  | pending => exact .refl r
  | rejected => exact .noteFailure hname name rfl _

theorem severity_bindingEvent (source : TypeExpr) : (bindingEvent source).severity ≠ .error := by
  cases source <;> simp [bindingEvent, Log.Event.severity]

theorem Binds.reports {space : Nat} {name spaceName : String} {source : TypeExpr}
    {outcome : Except AliasError Accessor} (h : Binds space name source r outcome r')
    (hname : (r.space? space).map Namespace.name = some spaceName) :
    DeclarationReports spaceName space name r outcome r' := by
  cases h with
  | bound => exact .declared r space name _ (by decide) (severity_bindingEvent source)
  | rejected => exact .noteFailure hname name rfl _

theorem reports_of_direct {op : Operation} {space : Nat} {name spaceName : String}
    {outcome : Except AliasError Outcome} (hop : op.declares? = some (space, name))
    (isDirect : op.isDirect = true) (h : perform fuel op r = some (outcome, r'))
    (hname : (r.space? space).map Namespace.name = some spaceName) :
    DeclarationReports spaceName space name r outcome r' := by
  cases op with
  | declareForward =>
    obtain ⟨rfl, rfl⟩ := Prod.mk.inj (Option.some.inj hop)
    obtain ⟨_, hdeclared, rfl⟩ := Action.map_cases h
    exact ((declaresForward_of hdeclared).reports hname).map _
  | bind =>
    obtain ⟨rfl, rfl⟩ := Prod.mk.inj (Option.some.inj hop)
    obtain ⟨_, hbound, rfl⟩ := Action.map_cases h
    exact ((binds_of hbound).reports hname).map _
  | bindLiteral => cases isDirect
  | _ => cases hop

end Registry

/-- **A declaration that fails is reported once, unless a type function spoils it.** Suppose that
a name is declared ahead, bound, or bound to a literal while no access is running. If that succeeds,
no failure is counted or noted, in any namespace. If it fails and no access of its own failed, the
refusal is reported. If an access failed, which only a literal makes, that access is reported, and
the refusal on top of it if the error is one of the kind that declarations raise. -/
theorem declaration_failure_reported {fuel : Nat} {op : Operation} {space : Nat} {name : String}
    {r r' : Registry} {n : Namespace} {outcome : Except AliasError Outcome}
    (hop : op.declares? = some (space, name))
    (h : Registry.perform fuel op r = some (outcome, r')) (outermost : r.depth = 0)
    (hn : r.space? space = some n) :
    (∃ log, Registry.Performs fuel r op log outcome r') ∧
    ∀ log, Registry.Performs fuel r op log outcome r' →
      (∀ x, outcome = .ok x → Registry.Reports r [] r') ∧
      ∀ error, outcome = .error error →
        (AccessFailed log error → ∃ accessed, Registry.Reports r
          (.ofFailure n.name space accessed .resolutionFailed error ::
            if error.isDeclarationError then [.ofFailure n.name space name .bindingRejected error]
            else [])
          r') ∧
        (¬ AccessFailed log error →
          Registry.Reports r [.ofFailure n.name space name .bindingRejected error] r') := by
  have hname : (r.space? space).map Namespace.name = some n.name := by rw [hn]; rfl
  refine ⟨Registry.exists_performs h, fun log hlog => ?_⟩
  -- what matters of a declaration is what it reports after its accesses, none of which failed
  have hend {P : AliasError → Prop} {r₁ : Registry} (hfirst : Registry.Reports r [] r₁)
      (noFailure : ∀ error, ¬ AccessFailed log error)
      (hlast : Registry.DeclarationReports n.name space name r₁ outcome r') :
      (∀ x, outcome = .ok x → Registry.Reports r [] r') ∧ ∀ error, outcome = .error error →
        (AccessFailed log error → P error) ∧ (¬ AccessFailed log error →
          Registry.Reports r [.ofFailure n.name space name .bindingRejected error] r') := by
    cases outcome with
    | ok x => exact ⟨fun _ _ => hfirst.trans hlast, nofun⟩
    | error error =>
      refine ⟨nofun, ?_⟩
      rintro _ ⟨⟩
      exact ⟨fun hfailed => absurd hfailed (noFailure error), fun _ => hfirst.trans hlast⟩
  cases hlog with
  | direct isDirect performed =>
    exact hend (.refl r) (fun _ ⟨_, hv, _⟩ => List.not_mem_nil hv)
      (Registry.reports_of_direct hop isDirect performed hname)
  | bindLiteral reads binds =>
    obtain ⟨rfl, rfl⟩ := Prod.mk.inj (Option.some.inj hop)
    obtain @⟨_, _, reports, noFailure⟩ := reads.reports outermost hname
    exact hend reports noFailure ((binds.reports ((reports.name_eq _).trans hname)).map _)
  | @bindLiteralRejected _ _ _ _ _ error _ reads isDeclarationError =>
    obtain ⟨rfl, rfl⟩ := Prod.mk.inj (Option.some.inj hop)
    refine ⟨nofun, ?_⟩
    rintro _ ⟨⟩
    rw [if_pos isDeclarationError]
    cases reads.reports outermost hname with
    | refused reports noFailure =>
      exact ⟨fun hfailed => absurd hfailed (noFailure error),
        fun _ => reports.concat hname _ rfl error⟩
    | @failed accessed _ _ reports failure =>
      exact ⟨fun _ => ⟨accessed, reports.concat hname _ rfl error⟩, fun hnone => absurd failure hnone⟩
  | @bindLiteralFailed _ _ _ _ _ error _ reads noDeclarationError =>
    obtain ⟨rfl, rfl⟩ := Prod.mk.inj (Option.some.inj hop)
    refine ⟨nofun, ?_⟩
    rintro _ ⟨⟩
    rw [if_neg (Bool.eq_false_iff.1 noDeclarationError)]
    cases reads.reports outermost hname with
    | refused _ _ isDeclarationError =>
      rw [noDeclarationError] at isDeclarationError
      cases isDeclarationError
    | @failed accessed _ _ reports failure =>
      exact ⟨fun _ => ⟨accessed, reports⟩, fun hnone => absurd failure hnone⟩
  | readLiteral | use | call => cases hop

/-- A literal that names nothing is refused, and reported once. -/
theorem unknown_name_reported_once :
    let r := (Registry.addSpace {} "app" {}).2
    let op : Operation := .bindLiteral 0 "User" (.string "Int") {}
    let error : AliasError := .unsupportedValidator "Int"
    op.declares? = some (0, "User") ∧ r.depth = 0 ∧ ∃ r',
      Registry.perform 1 op r = some (.error error, r') ∧
      Registry.Reports r [.ofFailure "app" 0 "User" .bindingRejected error] r' := by
  intro r op error
  obtain ⟨r', h⟩ : ∃ r', Registry.perform 1 op r = some (.error error, r') := ⟨_, rfl⟩
  obtain ⟨n, hn, hname⟩ : ∃ n, r.space? 0 = some n ∧ n.name = "app" := ⟨_, rfl, rfl⟩
  obtain ⟨-, hreported⟩ := declaration_failure_reported rfl h rfl hn
  have hlog : Registry.Performs 1 r op [] (.error error) r' := by
    obtain ⟨-, rfl⟩ := Prod.mk.inj (Option.some.inj h)
    exact .bindLiteralRejected (.unknown rfl rfl) rfl
  have hreports := ((hreported [] hlog).2 error rfl).2 fun ⟨_, hv, _⟩ => List.not_mem_nil hv
  rw [hname] at hreports
  exact ⟨rfl, rfl, r', h, hreports⟩

/-- A type function fails with an error of the kind that declarations raise. A literal that names it
is reported twice: the failed access, and the refusal of the name that was to be bound. -/
theorem literal_failure_reported_twice :
    let error : AliasError := .unsupportedValidator "Uuid"
    let r := ((Registry.bind 0 "F" (.generator (.mk [] fun _ => .fail error))).run.run
      (Registry.addSpace {} "app" {}).2).2
    ∃ r', Registry.perform 2 (.bindLiteral 0 "User" (.string "F") {}) r =
        some (.error error, r') ∧ r.depth = 0 ∧
      r'.counted 0 .errors = r.counted 0 .errors + 2 ∧
      r'.notices.toList.filter Notice.isFailure =
        r.notices.toList.filter Notice.isFailure ++
          [.ofFailure "app" 0 "F" .resolutionFailed error,
            .ofFailure "app" 0 "User" .bindingRejected error] := by
  intro error r
  obtain ⟨⟨outcome, r'⟩, h, hends⟩ : ∃ step,
      Registry.perform 2 (.bindLiteral 0 "User" (.string "F") {}) r = some step ∧
      (step.1.map (fun _ => ()), step.2.counted 0 .errors,
        step.2.notices.toList.filter Notice.isFailure) =
      (.error error, r.counted 0 .errors + 2, r.notices.toList.filter Notice.isFailure ++
        [.ofFailure "app" 0 "F" .resolutionFailed error,
          .ofFailure "app" 0 "User" .bindingRejected error]) :=
    Option.map_eq_some_iff.1 (by decide +kernel)
  obtain ⟨hfailure, hends⟩ := Prod.mk.inj hends
  obtain ⟨hcounted, hnotices⟩ := Prod.mk.inj hends
  cases outcome with
  | ok => cases hfailure
  | error =>
    obtain rfl := Except.error.inj hfailure
    exact ⟨r', h, by decide +kernel, hcounted, hnotices⟩

end NamedTypes
