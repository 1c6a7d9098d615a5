import NamedTypes.Proofs.Bookkeeping
import NamedTypes.Proofs.LifeCycle
import NamedTypes.Proofs.LogLevel

/-! # Counters tell the truth
What a namespace counts is what has happened in it (`counters_tell_truth`). Each of its counters is
raised at another point of an access, some before the step that can fail and some after it, so the
counters are first compared with each other, with the states of names and with the log by means of
balanced tariffs that price everything at one (`Registry.History.law`). Names declared ahead are
counted one by one (`Registry.Leads.forwardDeclarations_eq`). -/

namespace NamedTypes

/-! ## Prices of one -/

/-- One for what is so, and nothing for what is not. -/
def indicator {α : Type} (p : α → Bool) (x : α) : Int := if p x then 1 else 0

theorem sum_indicator {α β : Type} (p : β → Bool) (f : α → β) (xs : List α) :
    (xs.map fun x => indicator p (f x)).sum = xs.countP fun x => p (f x) := by
  induction xs with
  | nil => rfl
  | cons x xs ih =>
    rw [List.map_cons, List.sum_cons, ih, List.countP_cons, indicator]
    split <;> push_cast <;> ring

/-- The tariff under which some counters have one price, some states have another one, and some
events and kinds of visits cost one. -/
def Tariff.counting (price : Int) (counter : Counter → Bool) (event : Log.Event → Bool)
    (rank : Int) (state : AliasState → Bool) (visit : Visit.Kind → Bool) : Tariff where
  counter c := price * indicator counter c
  event := indicator event
  state s := rank * indicator state s
  visit := indicator visit

namespace Registry

/-- The number of names of a namespace in states as described. -/
def countStates (r : Registry) (space : Nat) (p : AliasState → Bool) : Nat :=
  (r.names space).countP fun name => p (r.state (r.accessor space name))

/-- The number of notices of a namespace that tell events as described. -/
def countNotices (r : Registry) (space : Nat) (p : Log.Event → Bool) : Nat :=
  (r.noticesOf space).countP fun notice => p notice.event

/-- The number of visits to a namespace of kinds as described. -/
def countVisits (log : List Visit) (space : Nat) (p : Visit.Kind → Bool) : Nat :=
  log.countP fun v => v.accessor.space == space && p v.kind

/-- A namespace in which nothing has happened since it came into being. -/
structure IsFresh (r : Registry) (space : Nat) : Prop where
  space_eq : ∃ name config, r.space? space = some { name, config }
  notices_eq : ∀ notice ∈ r.noticesOf space, notice.event = .namespaceCreated

variable {r r' : Registry} {space fuel : Nat}

/-- Where every name has one slot only, the slots are worth what the names are. -/
theorem statesWorth_eq {w : Tariff} (h : r.OneSlotEach space) : w.statesWorth space r =
    ((r.names space).map fun name => w.state (r.state (r.accessor space name))).sum := by
  rw [Tariff.statesWorth, names, slotsOf]
  cases hn : r.space? space with
  | none => rfl
  | some n =>
    rw [Option.map_some, Option.getD_some, Option.map_some, Option.getD_some, Namespace.names,
      Table.keys, Entries.keys, List.map_map]
    refine congrArg List.sum (List.map_congr_left fun e he => ?_)
    have hslots : r.slots? space e.1 = some e.2 := by
      rw [slots?, hn]
      exact (Entries.lookup_eq_some_iff n.slots.ascending.nodup_keys).2 he
    have hentry : r.alias? (r.accessor space e.1) = some e.2.now := by
      rw [alias?_accessor, hslots, Option.map_some]
    rw [Function.comp_apply, state_of_alias? hentry, Tariff.heldWorth,
      Slots.held_eq_of_length (h e.1 e.2 hslots), List.map_singleton, List.sum_singleton]

/-- What is worth one is counted. -/
theorem worth_counting (h : r.OneSlotEach space) (price : Int) (counter : Counter → Bool)
    (event : Log.Event → Bool)
    (rank : Int) (state : AliasState → Bool) (visit : Visit.Kind → Bool) :
    (Tariff.counting price counter event rank state visit).worth space r =
      price * ((Counter.all.filter counter).map (r.counted space)).sum +
        r.countNotices space event + rank * r.countStates space state := by
  have hcounters (counters : List Counter) :
      (counters.map fun c => price * indicator counter c * (r.counted space c : Int)).sum =
        price * ((counters.filter counter).map (r.counted space)).sum := by
    induction counters with
    | nil => simp
    | cons c counters ih =>
      rw [List.map_cons, List.sum_cons, ih, List.filter_cons, indicator]
      split <;> push_cast [List.map_cons, List.sum_cons] <;> ring
  rw [Tariff.worth, Tariff.countersWorth, Tariff.noticesWorth, statesWorth_eq h, countStates,
    countNotices]
  simp only [Tariff.counting, sum_indicator, hcounters, List.sum_map_mul_left]

theorem fees_counting (price : Int) (counter : Counter → Bool) (event : Log.Event → Bool)
    (rank : Int) (state : AliasState → Bool) (visit : Visit.Kind → Bool) (log : List Visit)
    (space : Nat) : (Tariff.counting price counter event rank state visit).fees space log =
      countVisits log space visit := by
  have hfee (v : Visit) : (Tariff.counting price counter event rank state visit).fee space v =
      indicator (fun v : Visit => v.accessor.space == space && visit v.kind) v := by
    by_cases hspace : v.accessor.space = space <;>
      simp [Tariff.fee, Tariff.counting, indicator, hspace]
  rw [Tariff.fees, funext hfee]
  exact sum_indicator _ id log

/-- In a fresh namespace there are no slots. -/
theorem IsFresh.oneSlotEach (h : r.IsFresh space) : r.OneSlotEach space := by
  obtain ⟨name, config, hspace⟩ := h.space_eq
  intro name s hs
  rw [slots?, hspace] at hs
  cases hs

/-- A fresh namespace is worth nothing. -/
theorem IsFresh.worth_eq {w : Tariff} (h : r.IsFresh space) (hw : w.Balanced) :
    w.worth space r = 0 := by
  obtain ⟨name, config, hspace⟩ := h.space_eq
  have hcounters : w.countersWorth space r = 0 := by
    simp [Tariff.countersWorth, counted, hspace, Counter.all, Metrics.get]
  have hnotices : w.noticesWorth space r = 0 := by
    refine List.sum_eq_zero fun price hprice => ?_
    obtain ⟨notice, hnotice, rfl⟩ := List.mem_map.1 hprice
    rw [h.notices_eq notice hnotice, hw.created]
  have hstates : w.statesWorth space r = 0 := by
    rw [Tariff.statesWorth, slotsOf, hspace]
    rfl
  rw [Tariff.worth, hcounters, hnotices, hstates]
  rfl

/-! ## Laws -/

@[simp] theorem countNotices_never (r : Registry) (space : Nat) :
    (r.countNotices space fun _ => false) = 0 := congrFun List.countP_false _

@[simp] theorem countStates_never (r : Registry) (space : Nat) :
    (r.countStates space fun _ => false) = 0 := congrFun List.countP_false _

@[simp] theorem countVisits_never (log : List Visit) (space : Nat) :
    (countVisits log space fun _ => false) = 0 := by
  simp only [countVisits, Bool.and_false, List.countP_false, Function.const_apply]

/-- The lines of a namespace that tell events as described. -/
def countLines (r : Registry) (space : Nat) (p : Log.Event → Bool) : Nat :=
  (r.linesOf space).countP fun line => p line.1.event

/-- A namespace that writes everything writes a line for every notice. -/
theorem countLines_eq {n : Namespace} (h : r.space? space = some n)
    (htrace : n.config.logLevel = .trace) (p : Log.Event → Bool) :
    r.countLines space p = r.countNotices space p := by
  have hall (severity : Log.Severity) : n.config.logLevel ≤ severity := by
    rw [htrace, Log.Severity.le_def]
    exact Nat.zero_le _
  rw [countLines, linesOf_eq h, List.countP_map, countNotices]
  simp [hall, Function.comp_def]

section Laws

variable {ops : List Operation} {log : List Visit}
  {steps : List (Except AliasError Outcome × Registry)}

theorem History.oneSlotEach (h : History fuel ops r log steps) (hr : r.OneSlotEach space) :
    (r.after steps).OneSlotEach space := by
  induction h with
  | nil => exact hr
  | cons first _ ih => exact ih (first.oneSlotEach hr)

/-- Every balanced choice of things to count is a law. -/
theorem History.law (h : History fuel ops r log steps) (hfresh : r.IsFresh space) (price : Int)
    (counter : Counter → Bool) (event : Log.Event → Bool) (rank : Int) (state : AliasState → Bool)
    (visit : Visit.Kind → Bool)
    (hw : (Tariff.counting price counter event rank state visit).Balanced) :
    price * ((Counter.all.filter counter).map ((r.after steps).counted space)).sum +
        (r.after steps).countNotices space event + rank * (r.after steps).countStates space state =
      countVisits log space visit := by
  rw [← worth_counting (h.oneSlotEach hfresh.oneSlotEach),
    ← fees_counting price counter event rank state visit]
  have hpays : Pays _ space r log (r.after steps) := h.pays hw
  rw [hpays, hfresh.worth_eq hw, zero_add]

/-- A counter that is raised exactly when certain events are noted. -/
theorem History.counted_eq_countNotices (h : History fuel ops r log steps)
    (hfresh : r.IsFresh space) (counter : Counter) (event : Log.Event → Bool)
    (hw : (Tariff.counting (-1) (· == counter) event 0 (fun _ => false) fun _ => false).Balanced) :
    (r.after steps).counted space counter = (r.after steps).countNotices space event := by
  have hlaw := h.law hfresh (-1) (· == counter) event 0 (fun _ => false) (fun _ => false) hw
  have hone : Counter.all.filter (· == counter) = [counter] := by cases counter <;> rfl
  rw [hone, countStates_never, countVisits_never, List.map_singleton, List.sum_singleton] at hlaw
  omega

end Laws

/-! ## Names declared ahead -/

end Registry

instance (space : Nat) (name : String) (d : Deed) : Decidable (d.Declares space name) :=
  decidable_of_iff (d.op.declares? = some (space, name) ∧ d.outcome.isOk = true) <|
    and_congr_right fun _ => by cases d.outcome <;> simp [Except.isOk, Except.toBool]

/-- Whether a deed declares a name ahead of its definition. -/
def Deed.isForward (d : Deed) : Bool :=
  match d.op with
  | .declareForward .. => true
  | _ => false

/-- Whether the first deed that declared a name declared it ahead of its definition. -/
def declaredAhead (done : List Deed) (space : Nat) (name : String) : Bool :=
  (done.find? fun d => d.Declares space name).any Deed.isForward

/-- Once a name is declared, later deeds do not matter. -/
theorem declaredAhead_concat_of_mem {done : List Deed} {space : Nat} {name : String}
    (h : ∃ d ∈ done, d.Declares space name) (d : Deed) :
    declaredAhead (done ++ [d]) space name = declaredAhead done space name := by
  have hsome : (done.find? fun d => d.Declares space name).isSome := by simpa using h
  rw [declaredAhead, List.find?_append, Option.or_of_isSome hsome, declaredAhead]

/-- The deed that declares a new name is the first one to do so. -/
theorem declaredAhead_concat_of_new {done : List Deed} {space : Nat} {name : String}
    {d : Deed} (h : ¬ ∃ d ∈ done, d.Declares space name) (hd : d.Declares space name) :
    declaredAhead (done ++ [d]) space name = d.isForward := by
  have hnone : (done.find? fun d => d.Declares space name) = none := by simpa using h
  rw [declaredAhead, List.find?_append, hnone, Option.none_or,
    List.find?_cons_of_pos (by simpa using hd), Option.any_some]

namespace Registry

variable {r r' r₀ : Registry} {space fuel : Nat}

theorem nodup_names (r : Registry) (space : Nat) : (r.names space).Nodup := by
  refine (pairwise_names r space).imp fun {name other} hlt heq => ?_
  exact String.lt_irrefl name (heq ▸ hlt)

/-- Where the same names are declared, the lists of names agree. -/
theorem perm_names {names : List String} (hnodup : names.Nodup)
    (h : ∀ name, (r.alias? (r.accessor space name)).isSome ↔ name ∈ names) :
    (r.names space).Perm names := by
  rw [List.perm_ext_iff_of_nodup (nodup_names r space) hnodup]
  exact fun name => mem_names_iff.trans (h name)

/-- A failure counts as nothing but a failure. -/
theorem counted_noteFailure (r : Registry) (other : Nat) (name : String) (event : Log.Event)
    (error : AliasError) (space : Nat) :
    (r.noteFailure other name event error).counted space .forwardDeclarations =
      r.counted space .forwardDeclarations := by
  rw [noteFailure, counted_note, counted_count_of_ne (.inr (by decide))]

theorem Binds.counted_forwardDeclarations {other : Nat} {name : String} {source : TypeExpr}
    {outcome : Except AliasError Accessor} (h : Binds other name source r outcome r')
    (space : Nat) : r'.counted space .forwardDeclarations = r.counted space .forwardDeclarations := by
  cases h with
  | bound => rw [counted_note, counted_count_of_ne (.inr (by decide)), counted_put]
  | rejected => exact counted_noteFailure ..

/-- Only a new name that is declared ahead raises the counter of such names. -/
theorem Performs.counted_forwardDeclarations {op : Operation} {log : List Visit}
    {outcome : Except AliasError Outcome} (h : Performs fuel r op log outcome r')
    (hop : ∀ name, op = .declareForward space name → r.alias? (r.accessor space name) ≠ none) :
    r'.counted space .forwardDeclarations = r.counted space .forwardDeclarations := by
  have hW := keeps_outlines fuel
  cases h with
  | direct isDirect performed =>
    cases performsDirectly_of isDirect performed with
    | addSpace => exact counted_addSpace ..
    | newType => rfl
    | normalize normalizes => exact counted_of_spaces (spaces_of_normalizes normalizes) _ _
    | @declareForward other name _ _ declares =>
      cases declares with
      | declared noEntry =>
        have hne : other ≠ space := by
          rintro rfl
          exact hop name rfl noEntry
        rw [counted_note, counted_count_of_ne (.inl hne), counted_put]
      | pending => rfl
      | rejected => exact counted_noteFailure ..
    | bind binds => exact binds.counted_forwardDeclarations space
    | lookup => rfl
  | readLiteral reads => exact counted_of_outlines (reads.keeps hW) space (.inl rfl)
  | bindLiteral reads binds =>
    rw [binds.counted_forwardDeclarations,
      counted_of_outlines (reads.keeps hW) space (.inl rfl)]
  | bindLiteralRejected reads =>
    rw [counted_noteFailure, counted_of_outlines (reads.keeps hW) space (.inl rfl)]
  | bindLiteralFailed reads => exact counted_of_outlines (reads.keeps hW) space (.inl rfl)
  | use accesses => exact counted_of_outlines (hW.accesses accesses) space (.inl rfl)
  | call calls => exact counted_of_outlines (hW.callsFunction calls) space (.inl rfl)

/-- A new name that is declared ahead is counted. -/
theorem of_declareForward_new {name : String} {outcome : Except AliasError Outcome}
    (h : perform fuel (.declareForward space name) r = some (outcome, r'))
    (hspace : (r.space? space).isSome) (hnew : r.alias? (r.accessor space name) = none) :
    (∃ x, outcome = .ok x) ∧
      r'.counted space .forwardDeclarations = r.counted space .forwardDeclarations + 1 := by
  obtain ⟨_, hdeclared, rfl⟩ := Action.map_cases h
  cases declaresForward_of hdeclared with
  | declared =>
    have hspace' : ((r.put space name .pending).space? space).isSome := by
      simp [put, setSlots, hspace]
    refine ⟨⟨_, rfl⟩, ?_⟩
    rw [counted_note, counted_count hspace', counted_put, if_pos rfl]
  | pending entry => cases hnew.symm.trans entry
  | rejected entry => cases hnew.symm.trans entry

/-- A deed that declares a new name adds that name. -/
theorem perm_names_of_new {op : Operation} {outcome : Except AliasError Outcome} {name : String}
    (performed : perform fuel op r = some (outcome, r')) (hspace : (r.space? space).isSome)
    (hdeclares : Deed.Declares space name ⟨op, outcome⟩)
    (hnone : r.alias? (r.accessor space name) = none) :
    (r'.names space).Perm (name :: r.names space) := by
  have hnot : name ∉ r.names space := by
    rw [mem_names_iff, hnone]
    exact Bool.false_ne_true
  refine perm_names (List.nodup_cons.2 ⟨hnot, nodup_names r space⟩) fun other => ?_
  rw [isSome_alias?_perform performed hspace, List.mem_cons, mem_names_iff, or_comm]
  refine or_congr_left ⟨fun hother => ?_, fun heq => heq ▸ hdeclares⟩
  have hsame := Option.some.inj (hother.1.symm.trans hdeclares.1)
  exact congrArg Prod.snd hsame

/-- A deed that declares no new name leaves the names. -/
theorem perm_names_of_known {op : Operation} {outcome : Except AliasError Outcome}
    (performed : perform fuel op r = some (outcome, r')) (hspace : (r.space? space).isSome)
    (hknown : ∀ name, Deed.Declares space name ⟨op, outcome⟩ →
      (r.alias? (r.accessor space name)).isSome) : (r'.names space).Perm (r.names space) := by
  refine perm_names (nodup_names r space) fun name => ?_
  rw [isSome_alias?_perform performed hspace, mem_names_iff]
  exact or_iff_left_of_imp (hknown name)

/-- **Names declared ahead are counted once**: those whose first declaration came ahead of their
definition. -/
theorem Leads.forwardDeclarations_eq {done : List Deed} (h : Leads r₀ done r)
    (hfresh : r₀.IsFresh space) : r.counted space .forwardDeclarations =
      (r.names space).countP fun name => declaredAhead done space name := by
  obtain ⟨spaceName, config, hspace₀⟩ := hfresh.space_eq
  have hsome₀ : (r₀.space? space).isSome := by rw [hspace₀]; rfl
  have hnew₀ (name : String) : r₀.alias? (r₀.accessor space name) = none :=
    alias?_eq_none_of_names hspace₀ rfl name
  induction h with
  | start =>
    rw [counted, names, hspace₀]
    rfl
  | @next done fuel op outcome r₁ r₂ before performed ih =>
    have hspace₁ : (r₁.space? space).isSome := before.isSome_space? hsome₀
    have hdone (name : String) : (r₁.alias? (r₁.accessor space name)).isSome ↔
        ∃ d ∈ done, d.Declares space name := before.isSome_alias?_iff hsome₀ (hnew₀ name)
    -- what was declared before was declared first before
    have hearlier : ((r₁.names space).countP fun name =>
        declaredAhead (done ++ [⟨op, outcome⟩]) space name) =
          (r₁.names space).countP fun name => declaredAhead done space name :=
      List.countP_congr fun name hname => by
        rw [declaredAhead_concat_of_mem ((hdone name).1 (mem_names_iff.1 hname))]
    obtain ⟨log, hlog⟩ := exists_performs performed
    by_cases hadds : ∃ name, Deed.Declares space name ⟨op, outcome⟩ ∧
        r₁.alias? (r₁.accessor space name) = none
    · -- the deed declares a new name, which is counted if the deed declares it ahead
      obtain ⟨name, hdeclares, hnone⟩ := hadds
      have hfirst : ¬ ∃ d ∈ done, d.Declares space name := by
        rw [← hdone, hnone]
        exact Bool.false_ne_true
      rw [(perm_names_of_new performed hspace₁ hdeclares hnone).countP_eq, List.countP_cons,
        hearlier, ← ih, declaredAhead_concat_of_new hfirst hdeclares]
      by_cases hforward : ∃ other, op = .declareForward space other
      · obtain ⟨other, rfl⟩ := hforward
        obtain rfl : other = name := congrArg Prod.snd (Option.some.inj hdeclares.1)
        exact (of_declareForward_new performed hspace₁ hnone).2
      · have hfalse : Deed.isForward ⟨op, outcome⟩ = false := by
          cases op with
          | declareForward other name' =>
            obtain rfl : other = space := congrArg Prod.fst (Option.some.inj hdeclares.1)
            exact absurd ⟨name', rfl⟩ hforward
          | _ => rfl
        rw [hlog.counted_forwardDeclarations fun other heq => absurd ⟨other, heq⟩ hforward, hfalse]
        rfl
    · -- the names are the same, and so are the deeds that declared them first
      have hknown (name : String) (hdeclares : Deed.Declares space name ⟨op, outcome⟩) :
          (r₁.alias? (r₁.accessor space name)).isSome :=
        Option.isSome_iff_ne_none.2 fun hnone => hadds ⟨name, hdeclares, hnone⟩
      rw [(perm_names_of_known performed hspace₁ hknown).countP_eq, hearlier, ← ih]
      refine hlog.counted_forwardDeclarations fun name hop hnone => hadds ⟨name, ⟨?_, ?_⟩, hnone⟩
      · rw [hop]
        rfl
      · subst hop
        exact (of_declareForward_new performed hspace₁ hnone).1

end Registry

/-- What the kind of a visit says about what the program did. -/
def Visit.Explained (v : Visit) : Prop :=
  match v.kind with
  | .answered => ∃ source kept t,
      v.before.alias? v.accessor = some (.plain source kept) ∧ v.answer = .ok (.type t)
  | .faulty => ∃ source error, v.before.alias? v.accessor = some (.plain source none) ∧
      v.arguments = [] ∧ source.validator = .error error ∧ v.answer = .error error
  | .remembered => ∃ function memo call types result,
      v.before.alias? v.accessor = some (.function function (some memo)) ∧
        Invocation.ofArguments v.arguments = .ok call ∧ call.parameters = types.map .leaf ∧
        memo.get? types = some result ∧ v.resolved = .ok result
  | .entered => ∃ function memo call types fuel r inner r',
      v.before.alias? v.accessor = some (.function function memo) ∧
        Invocation.ofArguments v.arguments = .ok call ∧
        Expr.validators call.parameters = .ok (types.map Ty.validator) ∧
        (Registry.world fuel).Applies function types r inner v.resolved r'
  | .refused => ∃ error, v.answer = .error error

namespace Registry

variable {r r' : Registry} {fuel : Nat}

/-- An alias that has been resolved explains the visit. -/
theorem Resolves.explained {a : Accessor} {arguments : List TypeExpr} {log : List Visit}
    {resolved : Except AliasError (Normalized Generator)}
    (h : Resolves (world fuel) a arguments r log resolved r') {v : Visit}
    (hbefore : v.before.alias? v.accessor = r.alias? a) (harguments : v.arguments = arguments)
    (hresolved : v.resolved = resolved) : v.Explained := by
  have hfails {error : AliasError} (h : resolved = .error error) : v.answer = .error error := by
    rw [Visit.answer, hresolved, h]
    rfl
  have hanswers {t : Ty} (h : resolved = .ok (.type t)) : v.answer = .ok (.type t) := by
    rw [Visit.answer, hresolved, h]
    exact Demand.require_type v.demand t
  -- the rule by which the alias was resolved gives the kind and what is said of it
  rw [Visit.Explained]
  cases h with
  | undefined undefined =>
    rw [Visit.kind_of_undefined fun entry hentry => undefined entry (hbefore ▸ hentry)]
    exact ⟨_, hfails rfl⟩
  | overApplied entry arguments_ne_nil =>
    have hsome : ¬ arguments.isEmpty = true := by simpa using arguments_ne_nil
    rw [Visit.kind_of_failed (hbefore.trans entry) hresolved, harguments, if_neg hsome]
    exact ⟨_, hfails rfl⟩
  | kept entry =>
    rw [Visit.kind_of_answered (hbefore.trans entry) hresolved]
    exact ⟨_, _, _, hbefore.trans entry, hanswers rfl⟩
  | compiled entry =>
    rw [Visit.kind_of_answered (hbefore.trans entry) hresolved]
    exact ⟨_, _, _, hbefore.trans entry, hanswers rfl⟩
  | faultySource entry arguments_eq_nil compiles =>
    rw [Visit.kind_of_failed (hbefore.trans entry) hresolved, harguments, arguments_eq_nil,
      List.isEmpty_nil, if_pos rfl]
    exact ⟨_, _, hbefore.trans entry, rfl, compiles.validator_eq (faithful_world fuel), hfails rfl⟩
  | misapplied entry invocation =>
    rw [Visit.kind_of_misapplied (hbefore.trans entry) (harguments ▸ invocation)]
    exact ⟨_, hfails rfl⟩
  | faultyParameter entry invocation compiles =>
    rw [Visit.kind_of_faultyParameter (hbefore.trans entry) (harguments ▸ invocation)
      (compiles.validators_eq (faithful_world fuel))]
    exact ⟨_, hfails rfl⟩
  | remembered entry invocation stable compiles found =>
    rw [kind_of_remembered (hbefore.trans entry) (harguments ▸ invocation) stable compiles found]
    exact ⟨_, _, _, _, _, hbefore.trans entry, harguments ▸ invocation,
      compiles.of_leaves (List.all_eq_true.1 stable), found, hresolved⟩
  | ran entry invocation compiles notFound applies =>
    rw [kind_of_entered (hbefore.trans entry) (harguments ▸ invocation) compiles notFound]
    exact ⟨_, _, _, _, _, _, _, _, hbefore.trans entry, harguments ▸ invocation,
      compiles.validators_eq (faithful_world fuel), hresolved ▸ applies⟩
  | failed entry invocation compiles notFound applies =>
    rw [kind_of_entered (hbefore.trans entry) (harguments ▸ invocation) compiles notFound]
    exact ⟨_, _, _, _, _, _, _, _, hbefore.trans entry, harguments ▸ invocation,
      compiles.validators_eq (faithful_world fuel), hresolved ▸ applies⟩

/-- Every visit is explained, those that are made inside of others included. -/
theorem keeps_explained (fuel : Nat) :
    (world fuel).Keeps fun _ log _ => ∀ v ∈ log, v.Explained := by
  refine keeps_world (fun _ => nofun)
    (fun h h' v hv => (List.mem_append.1 hv).elim (h v) (h' v)) (fun _ _ => nofun)
    (fun {fuel a demand arguments r log answer r'} hW h => ?_) fuel
  obtain @⟨inner, resolved, _, r₁, resolves, -⟩ := h
  refine List.forall_mem_append.2 ⟨resolves.keeps hW ⟨nofun, nofun, nofun, nofun⟩, ?_⟩
  rw [List.forall_mem_singleton]
  exact resolves.explained rfl rfl rfl

/-! ## Runs -/

variable {r₀ : Registry} {space : Nat} {ops : List Operation} {log : List Visit}
  {steps : List (Except AliasError Outcome × Registry)} {done : List Deed}

theorem Performs.explained {op : Operation} {outcome : Except AliasError Outcome}
    (h : Performs fuel r op log outcome r') : ∀ v ∈ log, v.Explained := by
  have hW := keeps_explained fuel
  cases h with
  | direct => exact nofun
  | readLiteral reads => exact reads.keeps hW
  | bindLiteral reads => exact reads.keeps hW
  | bindLiteralRejected reads => exact reads.keeps hW
  | bindLiteralFailed reads => exact reads.keeps hW
  | use accesses => exact hW.accesses accesses
  | call calls => exact hW.callsFunction calls

theorem History.explained (h : History fuel ops r log steps) : ∀ v ∈ log, v.Explained := by
  induction h with
  | nil => exact nofun
  | cons first _ ih => exact List.forall_mem_append.2 ⟨first.explained, ih⟩

/-- The deeds of a run. -/
def deeds (ops : List Operation) (steps : List (Except AliasError Outcome × Registry)) :
    List Deed :=
  List.zipWith (fun op step => ⟨op, step.1⟩) ops steps

/-- A run leads on. -/
theorem Leads.run (h : Leads r₀ done r) (hrun : performAll fuel ops r = some steps) :
    Leads r₀ (done ++ deeds ops steps) (r.after steps) := by
  induction ops generalizing done r steps with
  | nil =>
    obtain rfl := Option.some.inj hrun
    rw [deeds, List.zipWith_nil_left, List.append_nil]
    exact h
  | cons op ops ih =>
    obtain ⟨⟨outcome, r₁⟩, hfirst, hrun⟩ := Option.bind_eq_some_iff.1 hrun
    obtain ⟨rest, hrest, hrun⟩ := Option.bind_eq_some_iff.1 hrun
    obtain rfl := Option.some.inj hrun
    have hnext := ih (h.next hfirst) hrest
    rwa [List.append_assoc] at hnext

/-- The first operations of a run are a run. -/
theorem performAll_take (h : performAll fuel ops r = some steps) (count : Nat) :
    performAll fuel (ops.take count) r = some (steps.take count) := by
  induction ops generalizing r steps count with
  | nil =>
    obtain rfl := Option.some.inj h
    rw [List.take_nil, List.take_nil]
    rfl
  | cons op ops ih =>
    obtain ⟨⟨outcome, r₁⟩, hfirst, h⟩ := Option.bind_eq_some_iff.1 h
    obtain ⟨rest, hrest, h⟩ := Option.bind_eq_some_iff.1 h
    obtain rfl := Option.some.inj h
    cases count with
    | zero => rfl
    | succ count =>
      rw [List.take_succ_cons, List.take_succ_cons, performAll, hfirst, Option.bind_eq_bind,
        Option.bind_some]
      simp only [ih hrest count]
      rfl

/-- What the counters of a namespace say about its names, about deeds and about visits. -/
structure CountersTell (r : Registry) (space : Nat) (done : List Deed) (log : List Visit) :
    Prop where
  /-- Bindings are names with a definition. -/
  bindings_eq : r.counted space .bindings = r.countStates space (· != .unresolved)
  /-- Forward declarations are names whose first declaration came ahead of their definition. -/
  forwardDeclarations_eq : r.counted space .forwardDeclarations =
    (r.names space).countP fun name => declaredAhead done space name
  /-- Every plain access that succeeds hits the cache or resolves its name. -/
  answered_eq : r.counted space .cacheHits + r.countStates space (· == .resolved) =
    countVisits log space (· == .answered)
  /-- Every normalization resolves its name or fails. -/
  faulty_eq : (r.counted space .normalizations : Int) - r.countStates space (· == .resolved) =
    countVisits log space (· == .faulty)
  /-- Every well-formed call hits the memo or enters the body. -/
  called_eq : r.counted space .functionInvocations + r.counted space .memoHits =
    countVisits log space fun kind => kind == .entered || kind == .remembered
  /-- Invocations are bodies that are entered. -/
  entered_eq : r.counted space .functionInvocations = countVisits log space (· == .entered)

/-- What the lines of a namespace say about its counters. -/
structure LinesTell (r : Registry) (space : Nat) : Prop where
  forwardDeclarations_eq : r.countLines space (· == .forwardDeclared) =
    r.counted space .forwardDeclarations
  bindings_eq : r.countLines space (fun e => e == .aliasBound || e == .functionBound) =
    r.counted space .bindings
  resolved_eq : r.countLines space (· == .aliasResolved) = r.countStates space (· == .resolved)
  cacheHits_eq : r.countLines space (· == .cacheHit) = r.counted space .cacheHits
  functionInvocations_eq : r.countLines space (· == .functionInvoked) =
    r.counted space .functionInvocations
  memoHits_eq : r.countLines space (· == .memoHit) = r.counted space .memoHits
  errors_eq : r.countLines space (fun e => e == .bindingRejected || e == .resolutionFailed) =
    r.counted space .errors

/-- Each of these laws is a balanced tariff. -/
theorem History.countersTell (h : History fuel ops r₀ log steps) (hfresh : r₀.IsFresh space)
    (hrun : performAll fuel ops r₀ = some steps) :
    (r₀.after steps).CountersTell space (deeds ops steps) log where
  bindings_eq := by
    -- a name that is bound costs one, and its binding is taken off
    have hlaw := h.law hfresh (-1) (· == .bindings) (fun _ => false) 1 (· != .unresolved)
      (fun _ => false) (by constructor <;> rfl)
    simp [Counter.all] at hlaw
    omega
  forwardDeclarations_eq := (Leads.start.run hrun).forwardDeclarations_eq hfresh
  answered_eq := by
    have hlaw := h.law hfresh 1 (· == .cacheHits) (fun _ => false) 1 (· == .resolved)
      (· == .answered) (by constructor <;> rfl)
    simp [Counter.all] at hlaw
    omega
  faulty_eq := by
    -- a normalization costs one, which is given back if the name is resolved
    have hlaw := h.law hfresh 1 (· == .normalizations) (fun _ => false) (-1) (· == .resolved)
      (· == .faulty) (by constructor <;> rfl)
    simp [Counter.all] at hlaw
    omega
  called_eq := by
    have hlaw := h.law hfresh 1 (fun c => c == .functionInvocations || c == .memoHits)
      (fun _ => false) 0 (fun _ => false) (fun kind => kind == .entered || kind == .remembered)
      (by constructor <;> rfl)
    simp [Counter.all] at hlaw
    omega
  entered_eq := by
    have hlaw := h.law hfresh 1 (· == .functionInvocations) (fun _ => false) 0 (fun _ => false)
      (· == .entered) (by constructor <;> rfl)
    simp [Counter.all] at hlaw
    omega

theorem History.linesTell (h : History fuel ops r₀ log steps) (hfresh : r₀.IsFresh space)
    {n : Namespace} (hn : (r₀.after steps).space? space = some n)
    (htrace : n.config.logLevel = .trace) : (r₀.after steps).LinesTell space := by
  have hcount (counter : Counter) (event : Log.Event → Bool)
      (hw : (Tariff.counting (-1) (· == counter) event 0 (fun _ => false)
        fun _ => false).Balanced) :
      (r₀.after steps).countLines space event = (r₀.after steps).counted space counter := by
    rw [countLines_eq hn htrace, h.counted_eq_countNotices hfresh counter event hw]
  -- no counter tells how many names are resolved, so their notices are compared with their states
  have hresolved := h.law hfresh 0 (fun _ => false) (· == .aliasResolved) (-1) (· == .resolved)
    (fun _ => false) (by constructor <;> rfl)
  simp at hresolved
  exact
    { forwardDeclarations_eq := hcount _ _ (by constructor <;> rfl)
      bindings_eq := hcount _ _ (by constructor <;> rfl)
      resolved_eq := by rw [countLines_eq hn htrace]; omega
      cacheHits_eq := hcount _ _ (by constructor <;> rfl)
      functionInvocations_eq := hcount _ _ (by constructor <;> rfl)
      memoHits_eq := hcount _ _ (by constructor <;> rfl)
      errors_eq := hcount _ _ (by constructor <;> rfl) }

/-- A namespace is fresh when it is added. -/
theorem isFresh_addSpace (r : Registry) (name : String) (config : Config)
    (h : ∀ notice ∈ r.notices.toList, notice.space < r.spaces.size) :
    (r.addSpace name config).2.IsFresh r.spaces.size where
  space_eq := by
    refine ⟨name, config, ?_⟩
    simp only [addSpace, note, space?, Array.getElem?_push_size]
  notices_eq := by
    intro notice hnotice
    rw [noticesOf, addSpace, note, space?, Array.getElem?_push_size, Array.toList_push,
      List.filter_append, List.mem_append] at hnotice
    obtain hold | hnew := hnotice
    · -- notices of other namespaces
      obtain ⟨hmem, hspace⟩ := List.mem_filter.1 hold
      exact absurd (eq_of_beq hspace) (h notice hmem).ne
    · rw [List.mem_singleton.1 (List.mem_filter.1 hnew).1]

end Registry

/-- **Counters tell the truth.** Let a run start with a namespace in which nothing has happened,
with whatever other namespaces, and stop after any number of its operations. The accesses that it
has led to until then, those of bodies and literals included, can be logged; and whenever they are,
counters, states of names, deeds and accesses tell the same (`Registry.CountersTell`). If the
namespace writes everything, so do the lines that it has written (`Registry.LinesTell`). The kind
under which an access is counted tells what it met and what came of it: a type function is entered
if its body runs and decides what the access results in (`Visit.Explained`). -/
theorem counters_tell_truth {fuel space : Nat} {ops : List Operation} {r₀ : Registry}
    {steps : List (Except AliasError Outcome × Registry)} (hfresh : r₀.IsFresh space)
    (hrun : Registry.performAll fuel ops r₀ = some steps) (count : Nat) :
    (∃ log, Registry.History fuel (ops.take count) r₀ log (steps.take count)) ∧
      ∀ log, Registry.History fuel (ops.take count) r₀ log (steps.take count) →
        let r := r₀.after (steps.take count)
        r.CountersTell space (Registry.deeds (ops.take count) (steps.take count)) log ∧
          ((∃ n, r.space? space = some n ∧ n.config.logLevel = .trace) → r.LinesTell space) ∧
          ∀ v ∈ log, v.Explained := by
  -- the run that has been stopped is a run itself
  have hstopped := Registry.performAll_take hrun count
  refine ⟨Registry.exists_history hstopped, fun log hlog => ?_⟩
  exact ⟨hlog.countersTell hfresh hstopped, fun ⟨_, hn, htrace⟩ => hlog.linesTell hfresh hn htrace,
    hlog.explained⟩

/-- A name is declared ahead, used too early, bound and used twice; another one stands for no type;
a function uses the first name and remembers; and the first name is bound again in vain. -/
theorem counters_of_mixed_run :
    let int : Ty := ⟨0, .primitive .int⟩
    let id : Accessor := ⟨0, "Id", 0⟩
    let listed : TypeExpr := .generator (.mk [] fun _ => .access id .type [] fun
      | .ok _ => .finish (.leaf int)
      | .error error => .fail error)
    let r₀ := ((Registry.newType {} int.validator).2.addSpace "main"
      { logLevel := .trace, memoize := true }).2
    let ops : List Operation :=
      [.declareForward 0 "Id", .use .get id [], .bind 0 "Id" (.leaf int), .use .get id [],
        .use .get id [], .bind 0 "Bad" (.data .null), .use .get ⟨0, "Bad", 0⟩ [],
        .bind 0 "Listed" listed, .use .apply ⟨0, "Listed", 0⟩ [.leaf int],
        .use .apply ⟨0, "Listed", 0⟩ [.leaf int], .bind 0 "Id" (.leaf int)]
    r₀.IsFresh 0 ∧ ∃ steps log, Registry.performAll 2 ops r₀ = some steps ∧
      Registry.History 2 ops r₀ log steps ∧ (r₀.after steps).LinesTell 0 ∧
      (r₀.after steps).CountersTell 0 (Registry.deeds ops steps) log ∧
      ((r₀.after steps).space? 0).map (·.metrics.values) = some [1, 3, 2, 2, 1, 1, 3] := by
  intro int id listed r₀ ops
  have hfresh : r₀.IsFresh 0 := Registry.isFresh_addSpace _ _ _ (by decide)
  obtain ⟨steps, hsteps, hrun⟩ : ∃ steps, Registry.performAll 2 ops r₀ = some steps ∧
      (steps.length, ((r₀.after steps).space? 0).map (·.metrics.values),
        ((r₀.after steps).space? 0).map (·.config.logLevel)) =
          (11, some [1, 3, 2, 2, 1, 1, 3], some .trace) :=
    Option.map_eq_some_iff.1 (by decide +kernel)
  obtain ⟨hlength, hrun⟩ := Prod.mk.inj hrun
  obtain ⟨hmetrics, hlevel⟩ := Prod.mk.inj hrun
  obtain ⟨n, hn, htrace⟩ := Option.map_eq_some_iff.1 hlevel
  have htell := counters_tell_truth hfresh hsteps 11
  rw [show ops.take 11 = ops from rfl, List.take_of_length_le hlength.le] at htell
  obtain ⟨⟨log, hlog⟩, hall⟩ := htell
  obtain ⟨hcounters, hlines, -⟩ := hall log hlog
  exact ⟨hfresh, steps, log, hsteps, hlog, hlines ⟨n, hn, htrace⟩, hcounters, hmetrics⟩

end NamedTypes
