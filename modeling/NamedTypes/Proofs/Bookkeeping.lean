import NamedTypes.Proofs.History
import NamedTypes.Proofs.SessionProvenance
import NamedTypes.Proofs.Standing

/-! # Bookkeeping
Counters, notices and the states of aliases of a namespace keep each other's books. A **tariff**
gives each of them a price, and each kind of visit as well; it is balanced (`Tariff.Balanced`) if
everything that can happen to an alias is free on balance, or costs what the visit pays. Under a
balanced tariff the worth of a namespace is what it was before, together with what all visits have
paid (`Registry.History.pays`). Each balanced tariff thereby is a law of conservation. -/

namespace NamedTypes

/-! ## Kinds of visits -/

/-- The parameters of a call that are existing types. -/
def Invocation.leaves {F : Type} (i : Invocation F) : List Ty :=
  i.parameters.filterMap fun
    | .leaf type => some type
    | _ => none

namespace Visit

/-- What an access to an alias amounts to. -/
inductive Kind
  /-- A plain alias answered. -/
  | answered
  /-- A plain alias was accessed without arguments and failed. -/
  | faulty
  /-- A type function was called as it must be, with parameters that all describe types, and had
  remembered the result. -/
  | remembered
  /-- A type function was called as it must be, with parameters that all describe types, and had no
  such result. -/
  | entered
  /-- There was no definition, or the arguments were refused. -/
  | refused
deriving DecidableEq, Repr

/-- The kind of a visit. -/
def kind (v : Visit) : Kind :=
  match v.before.alias? v.accessor with
  | some (.plain _ _) =>
    match v.answer with
    | .ok _ => .answered
    | .error _ => if v.arguments.isEmpty then .faulty else .refused
  | some (.function _ memo) =>
    match Invocation.ofArguments v.arguments with
    | .ok call =>
      match Expr.validators call.parameters with
      | .ok _ =>
        if call.isStable && (memo.bind fun m => m.get? call.leaves).isSome then .remembered
        else .entered
      | .error _ => .refused
    | .error _ => .refused
  | _ => .refused

section Kinds

variable {v : Visit} {source : TypeExpr} {type : Option Ty} {function : Generator}
  {memo : Option Memo} {call : Invocation Generator} {error : AliasError}

theorem kind_of_undefined
    (h : ∀ entry, v.before.alias? v.accessor = some entry → entry = .pending) :
    v.kind = .refused := by
  rw [kind]
  cases hentry : v.before.alias? v.accessor with
  | none => rfl
  | some entry => rw [h entry hentry]

theorem kind_of_answered {t : Ty} (entry : v.before.alias? v.accessor = some (.plain source type))
    (h : v.resolved = .ok (.type t)) : v.kind = .answered := by
  have hanswer : v.answer = .ok (.type t) := by
    rw [answer, h]
    exact Demand.require_type v.demand t
  rw [kind, entry]
  simp only [hanswer]

theorem kind_of_failed (entry : v.before.alias? v.accessor = some (.plain source type))
    (h : v.resolved = .error error) :
    v.kind = if v.arguments.isEmpty then .faulty else .refused := by
  have hanswer : v.answer = .error error := by rw [answer, h]; rfl
  rw [kind, entry]
  simp only [hanswer]

theorem kind_of_misapplied (entry : v.before.alias? v.accessor = some (.function function memo))
    (h : Invocation.ofArguments v.arguments = .error error) : v.kind = .refused := by
  rw [kind, entry]
  simp only [h]

theorem kind_of_faultyParameter
    (entry : v.before.alias? v.accessor = some (.function function memo))
    (invocation : Invocation.ofArguments v.arguments = .ok call)
    (h : Expr.validators call.parameters = .error error) : v.kind = .refused := by
  rw [kind, entry]
  simp only [invocation, h]

theorem kind_of_called {ts : List Validator}
    (entry : v.before.alias? v.accessor = some (.function function memo))
    (invocation : Invocation.ofArguments v.arguments = .ok call)
    (h : Expr.validators call.parameters = .ok ts) :
    v.kind = if call.isStable && (memo.bind fun m => m.get? call.leaves).isSome then .remembered
      else .entered := by
  rw [kind, entry]
  simp only [invocation, h]

end Kinds

end Visit

/-! ## Tariffs -/

/-- The prices of what a namespace holds and of what is asked of it. -/
structure Tariff where
  /-- The price of every unit of a counter. -/
  counter : Counter → Int
  /-- The price of every notice of an event. -/
  event : Log.Event → Int
  /-- The price of every slot in a state. -/
  state : AliasState → Int
  /-- What a visit pays. -/
  visit : Visit.Kind → Int

/-- Whatever happens to a namespace is free on balance, or costs what a visit pays. -/
structure Tariff.Balanced (w : Tariff) : Prop where
  created : w.event .namespaceCreated = 0
  pending : w.state .unresolved = 0
  declared : w.counter .forwardDeclarations + w.event .forwardDeclared = 0
  boundPlain : w.state .bound + w.counter .bindings + w.event .aliasBound = 0
  boundFunction : w.state .generatorBound + w.counter .bindings + w.event .functionBound = 0
  rejected : w.counter .errors + w.event .bindingRejected = 0
  failed : w.counter .errors + w.event .resolutionFailed = 0
  kept : w.counter .cacheHits + w.event .cacheHit = w.visit .answered
  compiled : w.counter .normalizations + (w.state .resolved - w.state .bound) +
    w.event .aliasResolved = w.visit .answered
  faulty : w.counter .normalizations = w.visit .faulty
  remembered : w.counter .memoHits + w.event .memoHit = w.visit .remembered
  entered : w.counter .functionInvocations + w.event .functionInvoked = w.visit .entered
  refused : w.visit .refused = 0

namespace Registry

/-- The slots of a namespace by name. -/
def slotsOf (r : Registry) (space : Nat) : Entries Slots :=
  ((r.space? space).map fun n => n.slots.entries).getD []

end Registry

namespace Tariff

variable (w : Tariff) (space : Nat)

/-- What a namespace has counted, at a tariff. -/
def countersWorth (r : Registry) : Int :=
  (Counter.all.map fun counter => w.counter counter * r.counted space counter).sum

/-- What was noted for a namespace, at a tariff. -/
def noticesWorth (r : Registry) : Int :=
  ((r.noticesOf space).map fun notice => w.event notice.event).sum

/-- How far the slots of a name have come, at a tariff. -/
def heldWorth (s : Slots) : Int := (s.held.map fun entry => w.state entry.state).sum

/-- How far the slots of a namespace have come, at a tariff. -/
def statesWorth (r : Registry) : Int := ((r.slotsOf space).map fun e => w.heldWorth e.2).sum

/-- What a namespace is worth. -/
def worth (r : Registry) : Int :=
  w.countersWorth space r + w.noticesWorth space r + w.statesWorth space r

/-- What a visit pays to a namespace. -/
def fee (v : Visit) : Int := if v.accessor.space = space then w.visit v.kind else 0

/-- What visits pay to a namespace. -/
def fees (log : List Visit) : Int := (log.map (w.fee space)).sum

@[simp] theorem fees_nil : w.fees space [] = 0 := rfl

@[simp] theorem fees_append (log log' : List Visit) :
    w.fees space (log ++ log') = w.fees space log + w.fees space log' := by
  rw [fees, List.map_append, List.sum_append]
  rfl

end Tariff

namespace Registry

variable {w : Tariff} {space : Nat} {r r' : Registry}

/-! ## What changes are worth -/

/-- What is read off the namespaces and notices alone is worth the same. -/
theorem worth_of_spaces (h : r'.spaces = r.spaces) (hnotices : r'.notices = r.notices) :
    w.worth space r' = w.worth space r := by
  have hspace : r'.space? space = r.space? space := by rw [space?, space?, h]
  simp only [Tariff.worth, Tariff.countersWorth, Tariff.noticesWorth, Tariff.statesWorth, slotsOf,
    noticesOf, counted, hspace, hnotices]

theorem worth_count {other : Nat} (h : (r.space? other).isSome) (counter : Counter) :
    w.worth space (r.count other counter) =
      w.worth space r + if other = space then w.counter counter else 0 := by
  have hslots : (r.count other counter).slotsOf space = r.slotsOf space := by
    rw [slotsOf, slotsOf, count, space?_modifySpace]
    split
    · cases r.space? space <;> rfl
    · rfl
  have hstates : w.statesWorth space (r.count other counter) = w.statesWorth space r := by
    rw [Tariff.statesWorth, hslots, Tariff.statesWorth]
  have hnotices : w.noticesWorth space (r.count other counter) = w.noticesWorth space r := rfl
  -- one summand of the counters changes, and only for the namespace that counts
  have hcounters : w.countersWorth space (r.count other counter) =
      w.countersWorth space r + if other = space then w.counter counter else 0 := by
    rw [Tariff.countersWorth, Tariff.countersWorth]
    by_cases hspace : other = space
    · subst hspace
      simp only [counted_count h]
      cases counter <;> simp [Counter.all] <;> ring
    · simp only [counted_count_of_ne (.inl hspace), if_neg hspace, add_zero]
  rw [Tariff.worth, Tariff.worth, hstates, hnotices, hcounters]
  ring

theorem worth_note {other : Nat} (h : (r.space? other).isSome) (event : Log.Event)
    (fields : Entries String) :
    w.worth space (r.note other event fields) =
      w.worth space r + if other = space then w.event event else 0 := by
  obtain ⟨n, hn⟩ := Option.isSome_iff_exists.1 h
  have hcounters : w.countersWorth space (r.note other event fields) = w.countersWorth space r := by
    simp only [Tariff.countersWorth, counted_note]
  have hstates : w.statesWorth space (r.note other event fields) = w.statesWorth space r := by
    rw [note, hn]
    rfl
  have hnotices : w.noticesWorth space (r.note other event fields) =
      w.noticesWorth space r + if other = space then w.event event else 0 := by
    rw [Tariff.noticesWorth, Tariff.noticesWorth, noticesOf, noticesOf, note, hn]
    simp only [Array.toList_push, List.filter_append, List.map_append, List.sum_append]
    by_cases hspace : other = space <;> simp [hspace]
  rw [Tariff.worth, Tariff.worth, hcounters, hstates, hnotices]
  ring

/-- What happens is counted and noted. -/
theorem worth_count_note {other : Nat} (h : (r.space? other).isSome) (counter : Counter)
    (event : Log.Event) (fields : Entries String) :
    w.worth space ((r.count other counter).note other event fields) =
      w.worth space r + if other = space then w.counter counter + w.event event else 0 := by
  have h' : ((r.count other counter).space? other).isSome := by simp [count, h]
  rw [worth_note h', worth_count h]
  split <;> ring

/-- An insertion adds the new value and takes away the one that it replaces. -/
theorem sum_map_insert {α : Type} (f : α → Int) {es : Entries α} (h : es.Ascending) (key : String)
    (value : α) : ((Entries.insert key value es).map fun e => f e.2).sum =
      (es.map fun e => f e.2).sum + f value - ((es.lookup key).map f).getD 0 := by
  induction es with
  | nil => simp [Entries.insert]
  | cons e es ih =>
    obtain ⟨k, v⟩ := e
    obtain ⟨hk, hrest⟩ := Entries.ascending_cons.1 h
    -- the new key comes before the first one, is the first one, or comes later
    rw [Entries.insert]
    split
    case isTrue hlt =>
      -- a key before the first one is not there
      have hnone : List.lookup key ((k, v) :: es) = none := by
        rw [← Option.not_isSome_iff_eq_none, Entries.isSome_lookup_iff, Entries.keys_cons,
          List.mem_cons, Entries.mem_keys_iff]
        rintro (rfl | ⟨u, hu⟩)
        · exact String.lt_irrefl _ hlt
        · exact String.lt_irrefl _ (String.lt_trans hlt (hk _ hu))
      rw [hnone]
      simp only [List.map_cons, List.sum_cons, Option.map_none, Option.getD_none]
      ring
    case isFalse =>
      split
      case isTrue heq =>
        subst heq
        simp only [List.map_cons, List.sum_cons, List.lookup_cons_self, Option.map_some,
          Option.getD_some]
        ring
      case isFalse hne =>
        rw [List.map_cons, List.sum_cons, ih hrest, List.lookup_cons, beq_false_of_ne hne]
        simp only [List.map_cons, List.sum_cons]
        ring

/-- Changing the slots of a name adds what the new ones are worth and takes away what the old ones
were worth. -/
theorem worth_setSlots {other : Nat} (h : (r.space? other).isSome) (name : String) (s : Slots) :
    w.worth space (r.setSlots other name s) = w.worth space r + if other = space then
      w.heldWorth s - ((r.slots? other name).map w.heldWorth).getD 0 else 0 := by
  have hcounters : w.countersWorth space (r.setSlots other name s) = w.countersWorth space r := by
    have htallies (counter : Counter) :
        (r.setSlots other name s).tallies counter = r.tallies counter :=
      perSpace_modifySpace fun _ => rfl
    simp only [Tariff.countersWorth, counted_eq, htallies]
  have hnotices : w.noticesWorth space (r.setSlots other name s) = w.noticesWorth space r := rfl
  have hstates : w.statesWorth space (r.setSlots other name s) = w.statesWorth space r +
      if other = space then
        w.heldWorth s - ((r.slots? other name).map w.heldWorth).getD 0 else 0 := by
    rw [Tariff.statesWorth, Tariff.statesWorth, slotsOf, slotsOf, setSlots, space?_modifySpace]
    split
    case isTrue hspace =>
      obtain ⟨n, hn⟩ := Option.isSome_iff_exists.1 h
      have hsum := sum_map_insert w.heldWorth n.slots.ascending name s
      rw [slots?, hn, ← hspace, hn]
      simp only [Option.map_some, Option.getD_some, Option.bind_some, Table.insert]
      rw [hsum, Table.get?]
      ring
    case isFalse => rw [add_zero]
  rw [Tariff.worth, Tariff.worth, hcounters, hnotices, hstates]
  ring

/-- Filling one of the slots of a name. -/
theorem heldWorth_set {s : Slots} {slot : Nat} {old : Alias} (hold : s.held[slot]? = some old)
    (entry : Alias) : w.heldWorth (s.set slot entry) =
      w.heldWorth s + (w.state entry.state - w.state old.state) := by
  obtain ⟨hlt, hold⟩ := List.getElem?_eq_some_iff.1 hold
  rw [Tariff.heldWorth, Tariff.heldWorth, Slots.set, List.map_set, List.sum_set',
    dif_pos (by simpa using hlt), List.getElem_map, hold]
  ring

theorem worth_setAlias {a : Accessor} {old : Alias} (hold : r.alias? a = some old)
    (entry : Alias) : w.worth space (r.setAlias a entry) =
      w.worth space r + if a.space = space then w.state entry.state - w.state old.state else 0 := by
  obtain ⟨s, hs, hslot⟩ := Option.bind_eq_some_iff.1 hold
  rw [setAlias, hs]
  dsimp only
  rw [worth_setSlots (isSome_space?_of_alias? hold), hs, Option.map_some, Option.getD_some,
    heldWorth_set hslot]
  split <;> ring

/-- Giving a name something to stand for adds that, and takes away what it stood for. -/
theorem worth_put {other : Nat} (h : (r.space? other).isSome) (name : String) (entry : Alias) :
    w.worth space (r.put other name entry) = w.worth space r + if other = space then
      w.state entry.state -
        ((r.alias? (r.accessor other name)).map fun old => w.state old.state).getD 0 else 0 := by
  rw [put, worth_setSlots h, alias?_accessor]
  cases r.slots? other name with
  | none => simp [Slots.put, Tariff.heldWorth]
  | some s =>
    have hnow : s.held[s.current]? = some s.now := List.getElem?_eq_getElem s.current_lt
    simp only [Slots.put, Option.map_some, Option.getD_some, heldWorth_set hnow]
    split <;> ring

/-- A change of an alias that leaves its state. -/
theorem worth_modifyAlias {a : Accessor} {f : Alias → Alias}
    (hf : ∀ entry, (f entry).state = entry.state) :
    w.worth space (r.modifyAlias a f) = w.worth space r := by
  rw [modifyAlias]
  cases hentry : r.alias? a with
  | none => rfl
  | some entry =>
    dsimp only
    rw [worth_setAlias hentry, hf]
    simp

/-- A failure is counted and noted, or there is nowhere to count and note it. -/
theorem worth_noteFailure {event : Log.Event} (hw : w.counter .errors + w.event event = 0)
    (other : Nat) (name : String) (error : AliasError) :
    w.worth space (r.noteFailure other name event error) = w.worth space r := by
  rw [noteFailure]
  by_cases h : (r.space? other).isSome
  · rw [worth_count_note h, hw, ite_self, add_zero]
  · have hnone := Option.not_isSome_iff_eq_none.1 h
    have hcount : r.count other .errors = r := modifySpace_of_missing h _
    rw [hcount, note, hnone]

/-! ## What accesses are worth -/

/-- A namespace is worth what it was worth before and what visits have paid. -/
def Pays (w : Tariff) (space : Nat) (r : Registry) (log : List Visit) (r' : Registry) : Prop :=
  w.worth space r' = w.worth space r + w.fees space log

theorem Pays.trans {r₁ r₂ r₃ : Registry} {log log' : List Visit} (h : Pays w space r₁ log r₂)
    (h' : Pays w space r₂ log' r₃) : Pays w space r₁ (log ++ log') r₃ := by
  rw [Pays] at *
  rw [h', h, Tariff.fees_append, add_assoc]

theorem worth_leave (hw : w.Balanced) {α : Type} (a : Accessor) (outcome : Except AliasError α)
    (after : Registry) : w.worth space (r.leave a outcome after) = w.worth space after := by
  have hdepth : w.worth space { after with depth := r.depth } = w.worth space after :=
    worth_of_spaces rfl rfl
  cases outcome with
  | ok result => exact hdepth
  | error error =>
    rw [leave]
    split
    · rw [worth_noteFailure hw.failed, hdepth]
    · exact hdepth

variable {fuel : Nat} {a : Accessor} {arguments : List TypeExpr} {log : List Visit}

/-- Compiling parameters takes no namespace away. -/
theorem isSome_of_compilesAll {es : List TypeExpr} {outcome : Except AliasError (List Ty)}
    {other : Nat} (h : (r.space? other).isSome)
    (compiles : (world fuel).CompilesAll es r outcome r') : (r'.space? other).isSome := by
  rwa [isSome_space?_of_outlines ((keeps_outlines fuel).compilesAll compiles)]

/-- Existing types among parameters are what the parameters come to. -/
theorem leaves_of_compilesAll {call : Invocation Generator} {types : List Ty}
    (stable : call.isStable = true)
    (h : (world fuel).CompilesAll call.parameters r (.ok types) r') : call.leaves = types := by
  have hparameters := h.of_leaves (List.all_eq_true.1 stable)
  rw [Invocation.leaves, hparameters, List.filterMap_map]
  exact List.filterMap_some

section Calls

variable {v : Visit} {function : Generator} {call : Invocation Generator} {types : List Ty}

/-- A call whose result the memo has. -/
theorem kind_of_remembered {memo : Memo} {result : Normalized Generator}
    (entry : v.before.alias? v.accessor = some (.function function (some memo)))
    (invocation : Invocation.ofArguments v.arguments = .ok call) (stable : call.isStable = true)
    (compiles : (world fuel).CompilesAll call.parameters r (.ok types) r')
    (found : memo.get? types = some result) : v.kind = .remembered := by
  rw [Visit.kind_of_called entry invocation (compiles.validators_eq (faithful_world fuel)),
    leaves_of_compilesAll stable compiles, stable, Option.bind_some, found]
  rfl

/-- A call whose result no memo has. -/
theorem kind_of_entered {memo : Option Memo}
    (entry : v.before.alias? v.accessor = some (.function function memo))
    (invocation : Invocation.ofArguments v.arguments = .ok call)
    (compiles : (world fuel).CompilesAll call.parameters r (.ok types) r')
    (notFound : call.isStable = true → (memo.bind fun m => m.get? types) = none) :
    v.kind = .entered := by
  rw [Visit.kind_of_called entry invocation (compiles.validators_eq (faithful_world fuel))]
  cases hstable : call.isStable with
  | false => rfl
  | true =>
    rw [leaves_of_compilesAll hstable compiles, notFound hstable]
    rfl

end Calls

/-- Entering a body costs what the visit pays; the accesses inside pay for themselves. -/
theorem worth_of_applies (hw : w.Balanced) (hW : (world fuel).Keeps (Pays w space))
    (hspace : (r.space? a.space).isSome) {es : List TypeExpr} {types : List Ty}
    {function : Generator} {r₁ : Registry} {fields : Entries String}
    {outcome : Except AliasError (Normalized Generator)}
    (compiles : (world fuel).CompilesAll es r (.ok types) r₁)
    (applies : (world fuel).Applies function types
      ((r₁.count a.space .functionInvocations).note a.space .functionInvoked fields) log outcome
      r') :
    w.worth space r' = w.worth space r + w.fees space log +
      if a.space = space then w.visit .entered else 0 := by
  have hcompiled : w.worth space r₁ = w.worth space r := by
    simpa [Pays] using hW.compilesAll compiles
  have hbody := hW.applies applies
  rw [Pays, worth_count_note (isSome_of_compilesAll hspace compiles), hcompiled,
    hw.entered] at hbody
  rw [hbody]
  ring

/-- Compiling a plain alias costs what an answered visit pays: the compilation is counted first, and
the new state and its notice come after it. -/
theorem worth_of_compiled (hw : w.Balanced) (hW : (world fuel).Keeps (Pays w space))
    {source : TypeExpr} {type : Ty} {r₁ : Registry} {fields : Entries String}
    (entry : r.alias? a = some (.plain source none))
    (compiles : (world fuel).Compiles source (r.count a.space .normalizations) (.ok type) r₁) :
    w.worth space ((r₁.modifyAlias a (Alias.keep type)).note a.space .aliasResolved fields) =
      w.worth space r + if a.space = space then w.visit .answered else 0 := by
  have hspace := isSome_space?_of_alias? entry
  have hworth : w.worth space r₁ = w.worth space (r.count a.space .normalizations) := by
    simpa [Pays] using hW.compiles compiles
  have hentry : r₁.alias? a = some (.plain source none) := by
    rw [alias?_of_spaces (spaces_of_compiles compiles), alias?_count, entry]
  have hspace' : ((r₁.modifyAlias a (Alias.keep type)).space? a.space).isSome :=
    isSome_space?_of_alias? (alias?_modifyAlias_self hentry _)
  have hkeep :
      r₁.modifyAlias a (Alias.keep type) = r₁.setAlias a (.plain source (some type)) := by
    rw [modifyAlias, hentry]
    rfl
  rw [worth_note hspace', hkeep, worth_setAlias hentry, hworth, worth_count hspace, ← hw.compiled]
  simp only [Alias.state]
  split <;> omega

/-- **Resolving an alias pays for what it does.** -/
theorem Resolves.pays (hw : w.Balanced) (hW : (world fuel).Keeps (Pays w space))
    {resolved : Except AliasError (Normalized Generator)}
    (h : Resolves (world fuel) a arguments r log resolved r') {v : Visit}
    (haccessor : v.accessor = a) (harguments : v.arguments = arguments)
    (hresolved : v.resolved = resolved)
    (hbefore : v.before.alias? v.accessor = r.alias? a) :
    w.worth space r' = w.worth space r + w.fees space log + w.fee space v := by
  have hfee : w.fee space v = if a.space = space then w.visit v.kind else 0 := by
    rw [Tariff.fee, haccessor]
  -- compiling parameters is free
  have hcompiled {es : List TypeExpr} {r r' : Registry} {outcome : Except AliasError (List Ty)}
      (h : (world fuel).CompilesAll es r outcome r') : w.worth space r' = w.worth space r := by
    simpa [Pays] using hW.compilesAll h
  -- each case has its equation in the tariff, and the visit is of the kind that the equation names
  cases h with
  | undefined undefined =>
    rw [hfee, Visit.kind_of_undefined fun entry hentry => undefined entry (hbefore ▸ hentry),
      hw.refused]
    simp
  | overApplied entry arguments_ne_nil =>
    have hsome : ¬ arguments.isEmpty = true := by simpa using arguments_ne_nil
    rw [hfee, Visit.kind_of_failed (hbefore.trans entry) hresolved, harguments, if_neg hsome,
      hw.refused]
    simp
  | kept entry =>
    rw [hfee, Visit.kind_of_answered (hbefore.trans entry) hresolved,
      worth_count_note (isSome_space?_of_alias? entry), ← hw.kept, Tariff.fees_nil, add_zero]
  | compiled entry _ compiles =>
    rw [hfee, Visit.kind_of_answered (hbefore.trans entry) hresolved,
      worth_of_compiled hw hW entry compiles, Tariff.fees_nil, add_zero]
  | @faultySource _ _ r₁ entry arguments_eq_nil compiles =>
    have hspace := isSome_space?_of_alias? entry
    have hworth : w.worth space r' = w.worth space (r.count a.space .normalizations) := by
      simpa [Pays] using hW.compiles compiles
    rw [hfee, Visit.kind_of_failed (hbefore.trans entry) hresolved, harguments, arguments_eq_nil,
      hworth, worth_count hspace, List.isEmpty_nil, if_pos rfl, ← hw.faulty, Tariff.fees_nil]
    omega
  | misapplied entry invocation =>
    rw [hfee, Visit.kind_of_misapplied (hbefore.trans entry) (harguments ▸ invocation), hw.refused]
    simp
  | faultyParameter entry invocation compiles =>
    rw [hfee, Visit.kind_of_faultyParameter (hbefore.trans entry) (harguments ▸ invocation)
      (compiles.validators_eq (faithful_world fuel)), hw.refused, hcompiled compiles]
    simp
  | @remembered _ _ _ types _ r₁ entry invocation stable compiles found =>
    have hkind : v.kind = .remembered :=
      kind_of_remembered (hbefore.trans entry) (harguments ▸ invocation) stable compiles found
    have hspace := isSome_of_compilesAll (isSome_space?_of_alias? entry) compiles
    rw [hfee, hkind, worth_count_note hspace, hcompiled compiles, ← hw.remembered, Tariff.fees_nil,
      add_zero]
  | @ran _ _ call types _ _ r₁ r₂ entry invocation compiles notFound applies =>
    have hkind : v.kind = .entered :=
      kind_of_entered (hbefore.trans entry) (harguments ▸ invocation) compiles notFound
    have hbody := worth_of_applies hw hW (isSome_space?_of_alias? entry) compiles applies
    rw [hfee, hkind, ← hbody]
    -- remembering the result changes no state
    split
    · exact worth_modifyAlias fun entry => by rcases entry with _ | _ | ⟨_, _ | _⟩ <;> rfl
    · rfl
  | failed entry invocation compiles notFound applies =>
    have hkind : v.kind = .entered :=
      kind_of_entered (hbefore.trans entry) (harguments ▸ invocation) compiles notFound
    rw [hfee, hkind, ← worth_of_applies hw hW (isSome_space?_of_alias? entry) compiles applies]

/-- **Accesses pay for what they do**, whatever runs inside of them. -/
theorem keeps_pays (hw : w.Balanced) (space fuel : Nat) :
    (world fuel).Keeps (Pays w space) := by
  refine keeps_world (fun r => (add_zero _).symm) (fun h h' => h.trans h')
    (fun r validator => ?_) (fun {fuel a demand arguments r log answer r'} hW h => ?_) fuel
  · rw [Pays, Tariff.fees_nil, add_zero]
    exact worth_of_spaces rfl rfl
  · obtain @⟨inner, resolved, _, r₁, resolves, -⟩ := h
    -- the accesses inside have paid for themselves before this one is entered into the log
    have henter : w.worth space r.enter = w.worth space r := worth_of_spaces rfl rfl
    have hpays := resolves.pays (v := ⟨a, demand, arguments, r, resolved, r.leave a answer r₁⟩) hw
      hW rfl rfl rfl rfl
    rw [Pays, worth_leave hw, hpays, henter, Tariff.fees_append]
    simp [Tariff.fees, add_assoc]

/-! ## What operations are worth -/

theorem DeclaresForward.pays (hw : w.Balanced) {other : Nat} {name : String}
    {outcome : Except AliasError Accessor} (h : DeclaresForward other name r outcome r') :
    w.worth space r' = w.worth space r := by
  cases h with
  | declared noEntry =>
    by_cases hspace : (r.space? other).isSome
    · have hspace' : ((r.put other name .pending).space? other).isSome := by
        simp [put, setSlots, hspace]
      rw [worth_count_note hspace', worth_put hspace, noEntry, hw.declared]
      simp [Alias.state, hw.pending]
    · have hset : r.put other name .pending = r := modifySpace_of_missing hspace _
      rw [hset, count, modifySpace_of_missing hspace, note, Option.not_isSome_iff_eq_none.1 hspace]
  | pending => rfl
  | rejected => exact worth_noteFailure hw.rejected _ _ _

theorem Binds.pays (hw : w.Balanced) {other : Nat} {name : String} {source : TypeExpr}
    {outcome : Except AliasError Accessor} (h : Binds other name source r outcome r') :
    w.worth space r' = w.worth space r := by
  cases h with
  | bound undefined =>
    -- what can be bound has been worth nothing so far
    have hold : ((r.alias? (r.accessor other name)).map fun old => w.state old.state).getD 0 =
        0 := by
      cases hentry : r.alias? (r.accessor other name) with
      | none => rfl
      | some entry =>
        obtain rfl : entry = .pending := Classical.not_not.1 (undefined entry hentry)
        exact hw.pending
    have hbound : w.state (Alias.ofSource (r.config other) source).state + w.counter .bindings +
        w.event (bindingEvent source) = 0 := by
      cases source with
      | generator f => exact hw.boundFunction
      | leaf | sequence | record | data => exact hw.boundPlain
    by_cases hspace : (r.space? other).isSome
    · have hspace' : ((r.put other name
          (Alias.ofSource (r.config other) source)).space? other).isSome := by
        simp [put, setSlots, hspace]
      rw [worth_count_note hspace', worth_put hspace, hold]
      split <;> omega
    · have hset (entry : Alias) : r.put other name entry = r := modifySpace_of_missing hspace _
      rw [hset, count, modifySpace_of_missing hspace, note, Option.not_isSome_iff_eq_none.1 hspace]
  | rejected => exact worth_noteFailure hw.rejected _ _ _

/-- A new namespace is worth nothing. -/
theorem worth_addSpace (hw : w.Balanced) (r : Registry) (name : String) (config : Config) :
    w.worth space (r.addSpace name config).2 = w.worth space r := by
  have hcounters : w.countersWorth space (r.addSpace name config).2 = w.countersWorth space r := by
    simp only [Tariff.countersWorth, counted_addSpace]
  have hstates : w.statesWorth space (r.addSpace name config).2 = w.statesWorth space r := by
    rw [Tariff.statesWorth, Tariff.statesWorth, slotsOf, r.getD_addSpace space rfl, slotsOf]
  have hnotices : w.noticesWorth space (r.addSpace name config).2 = w.noticesWorth space r := by
    rw [Tariff.noticesWorth, Tariff.noticesWorth, noticesOf, noticesOf, addSpace, note, space?,
      Array.getElem?_push_size]
    simp only [Array.toList_push, List.filter_append, List.map_append, List.sum_append]
    by_cases hspace : r.spaces.size = space <;> simp [hspace, hw.created]
  rw [Tariff.worth, Tariff.worth, hcounters, hnotices, hstates]

theorem pays_of_direct (hw : w.Balanced) {op : Operation} {outcome : Except AliasError Outcome}
    (isDirect : op.isDirect = true) (h : perform fuel op r = some (outcome, r')) :
    w.worth space r' = w.worth space r := by
  cases performsDirectly_of isDirect h with
  | addSpace => exact worth_addSpace hw r ..
  | newType => exact worth_of_spaces rfl rfl
  | normalize normalizes => simpa [Pays] using (keeps_pays hw space fuel).normalizes normalizes
  | declareForward declares => exact declares.pays hw
  | bind binds => exact binds.pays hw
  | lookup => rfl

/-- Whatever users do, only the accesses that it leads to pay, and they pay for all of it. -/
theorem Performs.pays (hw : w.Balanced) {op : Operation} {outcome : Except AliasError Outcome}
    (h : Performs fuel r op log outcome r') : Pays w space r log r' := by
  have hW := keeps_pays hw space fuel
  cases h with
  | direct isDirect performed =>
    rw [Pays, Tariff.fees_nil, add_zero]
    exact pays_of_direct hw isDirect performed
  | readLiteral reads => exact reads.keeps hW
  | bindLiteral reads binds => exact (binds.pays hw).trans (reads.keeps hW)
  | bindLiteralRejected reads =>
    exact (worth_noteFailure hw.rejected _ _ _).trans (reads.keeps hW)
  | bindLiteralFailed reads => exact reads.keeps hW
  | use accesses => exact hW.accesses accesses
  | call calls => exact hW.callsFunction calls

/-- **Conservation.** Under a balanced tariff a namespace is worth at the end of a session what it
was worth before, together with what all visits of the session have paid. -/
theorem History.pays (hw : w.Balanced) {ops : List Operation}
    {steps : List (Except AliasError Outcome × Registry)} (h : History fuel ops r log steps) :
    Pays w space r log (r.after steps) := by
  induction h with
  | nil => exact (add_zero _).symm
  | cons first _ ih => exact (first.pays hw).trans ih

end Registry

end NamedTypes
