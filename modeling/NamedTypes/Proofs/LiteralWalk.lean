import NamedTypes.Proofs.Faults
import NamedTypes.Proofs.LifeCycle
import NamedTypes.Proofs.OrderedValues
import NamedTypes.Proofs.Replay

/-! # Walking literals
A literal is read by looking up the strings in it that stand for values, one after the other
(`Json.Value.names`), and by giving each the type that was found (`Json.Value.mirror`). What a string
stands for is found out by a bare access where the namespace declares it, and in the prelude where it
does not (`Registry.Finds`), so reading a literal is a walk along its names that ends with the first
one that fails (`literal_walked`). -/

namespace NamedTypes

namespace Json.Value

/-! ## Names in literals -/

mutual

/-- The strings that stand for values, those of items in order and those of members by ascending
key. Keys are no names. -/
def names : Value → List String
  | .string name => [name]
  | .array items => namesOfItems items
  | .object members => (namesByKey members).sort.flatMap Prod.snd
  | .null => []
  | .bool _ => []
  | .number _ => []

/-- The names in a list of values, in order. -/
def namesOfItems : List Value → List String
  | [] => []
  | v :: vs => names v ++ namesOfItems vs

/-- The names in the value of each member. -/
def namesByKey : List (String × Value) → Entries (List String)
  | [] => []
  | (key, v) :: members => (key, names v) :: namesByKey members

end

mutual

/-- The expression of the shape of a value, in which each string is one of the types, in order; a
string for which no type is left stays raw, like everything that is no array and no object. -/
def mirror : Value → List Ty → TypeExpr
  | .string name, types => types.head?.elim (.data (.string name)) .leaf
  | .array items, types => .sequence (mirrorItems items types)
  | .object members, types => .record (mirrorMembers members types)
  | .null, _ => .data .null
  | .bool value, _ => .data (.bool value)
  | .number value, _ => .data (.number value)

/-- The expressions of items, each with the types of its own names. -/
def mirrorItems : List Value → List Ty → List TypeExpr
  | [], _ => []
  | v :: vs, types =>
    mirror v (types.take v.names.length) :: mirrorItems vs (types.drop v.names.length)

/-- The expressions of members with their keys, each with the types of its own names. -/
def mirrorMembers : List (String × Value) → List Ty → List (String × TypeExpr)
  | [], _ => []
  | (key, v) :: members, types =>
    (key, mirror v (types.take v.names.length)) ::
      mirrorMembers members (types.drop v.names.length)

end

/-- A number, a boolean or a null occurs in a value. -/
inductive HoldsData : Value → Prop
  | null : HoldsData .null
  | bool (value : Bool) : HoldsData (.bool value)
  | number (value : Number) : HoldsData (.number value)
  | item {items : List Value} {v : Value} (mem : v ∈ items) (holds : HoldsData v) :
    HoldsData (.array items)
  | member {members : List (String × Value)} {m : String × Value} (mem : m ∈ members)
    (holds : HoldsData m.2) : HoldsData (.object members)

theorem namesOfItems_eq_flatMap (vs : List Value) : namesOfItems vs = vs.flatMap names := by
  induction vs with
  | nil => rw [namesOfItems, List.flatMap_nil]
  | cons v vs ih => rw [namesOfItems, List.flatMap_cons, ih]

theorem namesByKey_eq_map (members : List (String × Value)) :
    namesByKey members = members.map fun m => (m.1, names m.2) := by
  induction members with
  | nil => rw [namesByKey, List.map_nil]
  | cons m members ih => rw [namesByKey, List.map_cons, ih]

/-- Members that stand by ascending key are walked as they stand. -/
theorem names_object {members : Entries Value} (h : members.Ascending) :
    names (.object members) = namesOfItems (members.map Prod.snd) := by
  rw [names, namesByKey_eq_map, Entries.sort_map (α := Value) names, h.sort_eq,
    namesOfItems_eq_flatMap, List.flatMap_map, List.flatMap_map]

/-- The names in an object are those in the values of its members. -/
theorem mem_names_object {members : List (String × Value)} {name : String} :
    name ∈ names (.object members) ↔ ∃ m ∈ members, name ∈ m.2.names := by
  rw [names, List.mem_flatMap, namesByKey_eq_map]
  constructor
  · rintro ⟨e, he, hname⟩
    obtain ⟨m, hm, rfl⟩ := List.mem_map.1 ((Entries.perm_sort _).mem_iff.1 he)
    exact ⟨m, hm, hname⟩
  · rintro ⟨m, hm, hname⟩
    exact ⟨_, (Entries.perm_sort _).mem_iff.2 (List.mem_map_of_mem hm), hname⟩

/-! ## Mirrored literals -/

theorem mirrorMembers_eq_zip (members : List (String × Value)) (types : List Ty) :
    mirrorMembers members types =
      (members.map Prod.fst).zip (mirrorItems (members.map Prod.snd) types) := by
  induction members generalizing types with
  | nil => rw [mirrorMembers, List.map_nil, List.zip_nil_left]
  | cons m members ih =>
    rw [mirrorMembers, ih, List.map_cons, List.map_cons, mirrorItems, List.zip_cons_cons]

/-- Items are mirrored with the types of their own names. -/
theorem mirrorItems_cons {v : Value} {vs : List Value} {types : List Ty}
    (h : types.length = v.names.length) (others : List Ty) :
    mirrorItems (v :: vs) (types ++ others) = mirror v types :: mirrorItems vs others := by
  rw [mirrorItems, List.take_left' h, List.drop_left' h]

end Json.Value

/-! ## Reading is looking names up -/

namespace Literal

variable {m : Type → Type} [Monad m] [MonadExceptOf AliasError m]

/-- The type of a name, where `known?` looks it up before the prelude does. -/
def find (known? : String → m (Option Ty)) (prelude : Prelude) (name : String) : m Ty := do
  match ← known? name with
  | some type => return type
  | none => match prelude.get? name with
    | some type => return type
    | none => throw (.unsupportedValidator name)

end Literal

namespace Action

variable {α β : Type} {r r' : Registry}

/-- What follows an action matters only for the results that the action has. -/
theorem bind_congr {x : Action α} {f g : α → Action β}
    (h : ∀ a r₁, x r = some (.ok a, r₁) → f a r₁ = g a r₁) : (x >>= f) r = (x >>= g) r := by
  rw [bind_apply, bind_apply]
  cases hx : x r with
  | none => rfl
  | some p =>
    obtain ⟨outcome, r₁⟩ := p
    cases outcome with
    | ok a => exact h a r₁ hx
    | error error => rfl

/-- One thing after another gives as many results. -/
theorem length_of_mapM {f : α → Action β} {as : List α} {bs : List β}
    (h : as.mapM f r = some (.ok bs, r')) : bs.length = as.length := by
  induction as generalizing r r' bs with
  | nil =>
    obtain ⟨⟨⟩, -⟩ := Prod.mk.inj (Option.some.inj h)
    rfl
  | cons a as ih =>
    rw [List.mapM_cons] at h
    obtain ⟨b, r₁, -, h⟩ | ⟨_, -, ⟨⟩⟩ := bind_cases h
    obtain ⟨rest, r₂, hrest, h⟩ | ⟨_, -, ⟨⟩⟩ := bind_cases h
    obtain ⟨⟨⟩, -⟩ := Prod.mk.inj (Option.some.inj h)
    rw [List.length_cons, List.length_cons, ih hrest]

end Action

namespace Literal

section Reading

variable {known? : String → Action (Option Ty)} {prelude : Prelude}

theorem readItems_eq {vs : List Json.Value}
    (h : ∀ v ∈ vs, read known? prelude v = v.mirror <$> v.names.mapM (find known? prelude)) :
    readItems known? prelude vs =
      Json.Value.mirrorItems vs <$> (Json.Value.namesOfItems vs).mapM (find known? prelude) := by
  induction vs with
  | nil => simp [readItems, Json.Value.namesOfItems, Json.Value.mirrorItems]
  | cons v vs ih =>
    have hrest := ih fun w hw => h w (List.mem_cons_of_mem _ hw)
    rw [readItems, h v List.mem_cons_self, hrest, Json.Value.namesOfItems, List.mapM_append]
    simp only [map_eq_pure_bind, bind_assoc, pure_bind]
    funext r
    -- the names of the first item get as many types as there are
    refine Action.bind_congr fun types r₁ htypes => ?_
    simp only [Json.Value.mirrorItems_cons (Action.length_of_mapM htypes)]

theorem readMembers_eq (members : List (String × Json.Value)) :
    readMembers known? prelude members = (fun es => (members.map Prod.fst).zip es) <$>
      readItems known? prelude (members.map Prod.snd) := by
  induction members with
  | nil => simp [readMembers, readItems]
  | cons m members ih =>
    obtain ⟨key, v⟩ := m
    simp [readMembers, readItems, ih]

/-- **A literal is read by looking its names up**, one after the other, and giving each the type that
was found. -/
theorem read_eq {v : Json.Value} (hv : v.Ordered) :
    read known? prelude v = v.mirror <$> v.names.mapM (find known? prelude) := by
  induction v using Json.Value.memberInduction with
  | null | bool value | number value =>
    simp [read, Json.Value.names, Json.Value.mirror]
  | string name =>
    simp only [read, Json.Value.names, List.mapM_cons, List.mapM_nil, find, map_eq_pure_bind,
      bind_assoc, pure_bind]
    refine bind_congr fun known => ?_
    cases known with
    | some t => rfl
    | none => cases prelude.get? name <;> rfl
  | array items ih =>
    cases hv with
    | array items_ordered =>
      rw [read, readItems_eq fun v hv => ih v hv (items_ordered v hv)]
      simp [Json.Value.names, Json.Value.mirror]
  | object members ih =>
    cases hv with
    | object ascending members_ordered =>
      -- Members are read in the order they are stored in, and this is the order of their keys.
      have hvalues : ∀ v ∈ members.map Prod.snd,
          read known? prelude v = v.mirror <$> v.names.mapM (find known? prelude) := by
        rintro v hv
        obtain ⟨m, hm, rfl⟩ := List.mem_map.1 hv
        exact ih m hm (members_ordered m hm)
      rw [read, readMembers_eq, readItems_eq hvalues, Json.Value.names_object ascending]
      simp [Json.Value.mirror, Json.Value.mirrorMembers_eq_zip]

end Reading

end Literal

namespace Registry

/-! ## Walks -/

section Walks

variable {fuel space : Nat} {prelude : Prelude} {name : String} {r r' : Registry}

/-- What a name in a literal stands for, with the names that are accessed to find it out. A name that
the namespace declares is accessed without arguments, pending or not; any other one is left to the
prelude. -/
inductive Finds (fuel space : Nat) (prelude : Prelude) (name : String) (r : Registry) :
    List String → Except AliasError Ty → Registry → Prop
  | declared {outcome : Except AliasError Ty} {r' : Registry} (isDeclared : name ∈ r.names space)
    (accessed : Accessor.get fuel (r.accessor space name) r = some (outcome, r')) :
    Finds fuel space prelude name r [name] outcome r'
  | supplied {t : Ty} (notDeclared : name ∉ r.names space)
    (supplied : prelude.get? name = some t) : Finds fuel space prelude name r [] (.ok t) r
  | unknown (notDeclared : name ∉ r.names space) (notSupplied : prelude.get? name = none) :
    Finds fuel space prelude name r [] (.error (.unsupportedValidator name)) r

/-- A name that is declared stands for what a bare access comes to. -/
theorem find_of_declared (h : name ∈ r.names space) :
    Literal.find (declared? fuel space) prelude name r =
      Accessor.get fuel (r.accessor space name) r := by
  obtain ⟨entry, hentry⟩ := Option.isSome_iff_exists.1 (mem_names_iff.1 h)
  rw [Literal.find, Action.bind_apply, declared?, Action.get_bind_apply, accessor?_eq_map, hentry]
  simp only [Option.map_some, Action.bind_apply]
  cases Accessor.get fuel (r.accessor space name) r with
  | none => rfl
  | some p =>
    obtain ⟨outcome, r₁⟩ := p
    cases outcome <;> rfl

/-- Any other name stands for what the prelude has. -/
theorem find_of_not_declared (h : name ∉ r.names space) :
    Literal.find (declared? fuel space) prelude name r =
      some ((prelude.get? name).elim (.error (.unsupportedValidator name)) .ok, r) := by
  rw [mem_names_iff, Option.not_isSome_iff_eq_none] at h
  rw [Literal.find, Action.bind_apply, declared?, Action.get_bind_apply, accessor?_eq_map, h]
  cases hsupplied : prelude.get? name <;> simp

/-- Names are looked up as they are found. -/
theorem find_eq_some_iff {outcome : Except AliasError Ty} :
    Literal.find (declared? fuel space) prelude name r = some (outcome, r') ↔
      ∃ accessed, Finds fuel space prelude name r accessed outcome r' := by
  by_cases hdeclared : name ∈ r.names space
  · rw [find_of_declared hdeclared]
    constructor
    · exact fun h => ⟨_, .declared hdeclared h⟩
    · rintro ⟨_, h⟩
      cases h with
      | declared _ accessed => exact accessed
      | supplied notDeclared | unknown notDeclared => exact absurd hdeclared notDeclared
  · rw [find_of_not_declared hdeclared]
    constructor
    · intro h
      obtain ⟨rfl, rfl⟩ := Prod.mk.inj (Option.some.inj h)
      cases hsupplied : prelude.get? name with
      | none => exact ⟨_, .unknown hdeclared hsupplied⟩
      | some t => exact ⟨_, .supplied hdeclared hsupplied⟩
    · rintro ⟨_, h⟩
      cases h with
      | declared isDeclared => exact absurd isDeclared hdeclared
      | supplied _ supplied => rw [supplied]; rfl
      | unknown _ notSupplied => rw [notSupplied]; rfl

/-- Names are looked up in turn, up to the first that stands for nothing. -/
theorem mapM_find_eq_some_iff {names : List String} {outcome : Except AliasError (List Ty)} :
    names.mapM (Literal.find (declared? fuel space) prelude) r = some (outcome, r') ↔
      ∃ accessed, InTurn (Finds fuel space prelude) names r accessed outcome r' := by
  induction names generalizing r outcome with
  | nil =>
    constructor
    · intro h
      obtain ⟨rfl, rfl⟩ := Prod.mk.inj (Option.some.inj h)
      exact ⟨[], .nil⟩
    · rintro ⟨_, h⟩
      cases h
      rfl
  | cons name names ih =>
    rw [List.mapM_cons]
    constructor
    · intro h
      obtain ⟨t, r₁, hfirst, h⟩ | ⟨error, hfirst, rfl⟩ := Action.bind_cases h
      · obtain ⟨log, hfinds⟩ := find_eq_some_iff.1 hfirst
        obtain ⟨ts, r₂, hrest, h⟩ | ⟨error, hrest, rfl⟩ := Action.bind_cases h
        · obtain ⟨rfl, rfl⟩ := Prod.mk.inj (Option.some.inj h)
          obtain ⟨log', hturn⟩ := ih.1 hrest
          exact ⟨log ++ log', .cons hfinds hturn⟩
        · obtain ⟨log', hturn⟩ := ih.1 hrest
          exact ⟨log ++ log', .failedRest hfinds hturn⟩
      · obtain ⟨log, hfinds⟩ := find_eq_some_iff.1 hfirst
        exact ⟨log, .failedFirst hfinds⟩
    · rintro ⟨_, h⟩
      cases h with
      | cons first rest =>
        rw [bind_of_ok (find_eq_some_iff.2 ⟨_, first⟩), bind_of_ok (ih.2 ⟨_, rest⟩)]
        rfl
      | failedFirst first => rw [bind_of_error (find_eq_some_iff.2 ⟨_, first⟩)]
      | failedRest first rest =>
        rw [bind_of_ok (find_eq_some_iff.2 ⟨_, first⟩), bind_of_error (ih.2 ⟨_, rest⟩)]

/-- Finding out what a name stands for declares nothing. -/
theorem Finds.names_eq {accessed : List String} {outcome : Except AliasError Ty}
    (h : Finds fuel space prelude name r accessed outcome r') :
    r'.names space = r.names space := by
  cases h with
  | declared _ accessed =>
    have hcall :
        (.type <$> Accessor.call fuel (r.accessor space name) [] : Action (Normalized Generator)) r =
        some (.type <$> outcome, r') := by
      rw [Action.map_apply, ← Accessor.get, accessed]
      rfl
    obtain ⟨log, hlog⟩ := exists_accesses (Accessor.access_of_call hcall)
    exact names_of_outlines ((keeps_outlines fuel).accesses hlog) space
  | supplied | unknown => rfl

/-- A name is accessed once if it is declared, and not at all if not. -/
theorem Finds.accessed_eq {accessed : List String} {outcome : Except AliasError Ty}
    (h : Finds fuel space prelude name r accessed outcome r') :
    accessed = [name].filter (· ∈ r.names space) := by
  cases h with
  | declared isDeclared => simp [isDeclared]
  | supplied notDeclared | unknown notDeclared => simp [notDeclared]

section InTurn

variable {names accessed : List String}

/-- A walk that gets to the end has accessed all names that are declared, each as often as it
occurs. -/
theorem accessed_of_inTurn {types : List Ty}
    (h : InTurn (Finds fuel space prelude) names r accessed (.ok types) r') :
    accessed = names.filter (· ∈ r.names space) ∧ types.length = names.length := by
  generalize houtcome : Except.ok types = outcome at h
  induction h generalizing types with
  | nil =>
    obtain rfl := Except.ok.inj houtcome
    exact ⟨rfl, rfl⟩
  | @cons name names t ts _ _ _ _ _ first _ ih =>
    obtain rfl := Except.ok.inj houtcome
    obtain ⟨hrest, hlength⟩ := ih rfl
    rw [first.names_eq] at hrest
    rw [first.accessed_eq, hrest, ← List.filter_append, List.length_cons, hlength]
    exact ⟨rfl, rfl⟩
  | failedFirst | failedRest => cases houtcome

/-- A walk that fails has accessed the declared names up to and with the first one that stands for
nothing, and none after it. -/
theorem stopped_of_inTurn {error : AliasError}
    (h : InTurn (Finds fuel space prelude) names r accessed (.error error) r') :
    ∃ front name rest before types r₁ last, names = front ++ name :: rest ∧
      InTurn (Finds fuel space prelude) front r before (.ok types) r₁ ∧
      Finds fuel space prelude name r₁ last (.error error) r' ∧
      accessed = (front ++ [name]).filter (· ∈ r.names space) := by
  generalize houtcome : Except.error error = outcome at h
  induction h with
  | nil | cons => cases houtcome
  | @failedFirst name names _ _ _ log first =>
    cases houtcome
    exact ⟨[], name, names, [], [], _, log, rfl, .nil, first, first.accessed_eq⟩
  | @failedRest name names _ _ _ _ _ _ _ first _ ih =>
    obtain ⟨front, failing, rest, before, types, r₁, last, rfl, hfront, hlast, hrest⟩ := ih houtcome
    refine ⟨name :: front, failing, rest, _, _, r₁, last, rfl, .cons first hfront, hlast, ?_⟩
    rw [first.names_eq] at hrest
    rw [first.accessed_eq, hrest, ← List.filter_append]
    rfl

end InTurn

end Walks

end Registry

/-! ## Data in literals -/

namespace Json.Value

theorem holdsData_array_iff {items : List Value} :
    HoldsData (.array items) ↔ ∃ v ∈ items, v.HoldsData := by
  constructor
  · intro h
    cases h with
    | item mem holds => exact ⟨_, mem, holds⟩
  · rintro ⟨v, hv, holds⟩
    exact .item hv holds

theorem holdsData_object_iff {members : List (String × Value)} :
    HoldsData (.object members) ↔ ∃ v ∈ members.map Prod.snd, v.HoldsData := by
  constructor
  · intro h
    cases h with
    | member mem holds => exact ⟨_, List.mem_map_of_mem mem, holds⟩
  · rintro ⟨v, hv, holds⟩
    obtain ⟨m, hm, rfl⟩ := List.mem_map.1 hv
    exact .member hm holds

theorem length_mirrorItems (vs : List Value) (types : List Ty) :
    (mirrorItems vs types).length = vs.length := by
  induction vs generalizing types with
  | nil => rw [mirrorItems, List.length_nil, List.length_nil]
  | cons v vs ih => rw [mirrorItems, List.length_cons, ih, List.length_cons]

/-- What holds of the data in items holds of the data in all of them. -/
theorem describesType_mirrorItems_iff {vs : List Value}
    (h : ∀ v ∈ vs, ∀ types : List Ty, types.length = v.names.length →
      ((v.mirror types).DescribesType ↔ ¬ v.HoldsData)) {types : List Ty}
    (hlength : types.length = (namesOfItems vs).length) :
    (∀ e ∈ mirrorItems vs types, e.DescribesType) ↔ ¬ ∃ v ∈ vs, v.HoldsData := by
  induction vs generalizing types with
  | nil => simp [mirrorItems]
  | cons v vs ih =>
    rw [namesOfItems, List.length_append] at hlength
    have hfirst := h v List.mem_cons_self (types.take v.names.length)
      (List.length_take_of_le (by omega))
    have hlengths : (types.drop v.names.length).length = (namesOfItems vs).length := by
      rw [List.length_drop]
      omega
    have hrest := ih (fun w hw => h w (List.mem_cons_of_mem _ hw)) hlengths
    rw [mirrorItems, List.forall_mem_cons, List.exists_mem_cons_iff, not_or, hfirst, hrest]

/-- A mirrored literal describes a type unless the literal holds data. -/
theorem describesType_mirror_iff {v : Value} (hv : v.Ordered) : ∀ {types : List Ty},
    types.length = v.names.length → ((v.mirror types).DescribesType ↔ ¬ v.HoldsData) := by
  induction v using memberInduction with
  | null =>
    exact fun _ => iff_of_false (Expr.not_describesType_data _) (not_not_intro .null)
  | bool value =>
    exact fun _ => iff_of_false (Expr.not_describesType_data _) (not_not_intro (.bool value))
  | number value =>
    exact fun _ => iff_of_false (Expr.not_describesType_data _) (not_not_intro (.number value))
  | string name =>
    intro types htypes
    obtain ⟨t, rfl⟩ := List.length_eq_one_iff.1 (htypes.trans (by rw [names, List.length_singleton]))
    exact iff_of_true (Expr.describesType_leaf t) nofun
  | array items ih =>
    cases hv with
    | array items_ordered =>
      intro types htypes
      rw [names] at htypes
      rw [mirror, Expr.describesType_sequence_iff, holdsData_array_iff,
        describesType_mirrorItems_iff (fun v hv _ => ih v hv (items_ordered v hv)) htypes]
  | object members ih =>
    cases hv with
    | object ascending members_ordered =>
      intro types htypes
      rw [names_object ascending] at htypes
      have hvalues : ∀ v ∈ members.map Prod.snd, ∀ types : List Ty,
          types.length = v.names.length → ((v.mirror types).DescribesType ↔ ¬ v.HoldsData) := by
        intro v hv types
        obtain ⟨m, hm, rfl⟩ := List.mem_map.1 hv
        exact ih m hm (members_ordered m hm)
      have hlength : (members.map Prod.fst).length =
          (mirrorItems (members.map Prod.snd) types).length := by
        rw [length_mirrorItems, List.length_map, List.length_map]
      -- the keys are those of the members, so none is repeated
      have hkeys : (Entries.keys ((members.map Prod.fst).zip
          (mirrorItems (members.map Prod.snd) types))).Nodup := by
        rw [Entries.keys, List.map_fst_zip hlength.le]
        exact ascending.nodup_keys
      rw [mirror, mirrorMembers_eq_zip, Expr.describesType_record_iff, and_iff_right hkeys,
        holdsData_object_iff, ← describesType_mirrorItems_iff hvalues htypes,
        ← List.forall_mem_map, List.map_snd_zip hlength.ge]

end Json.Value

/-- **A literal is read by a walk along its names.** Reading a literal in a namespace is finding out
what its names stand for, one after the other and up to the first that stands for nothing, and giving
each the type that was found; nothing else happens. Where all stand for types, every name that the
namespace declares has been accessed, in order and as often as it occurs, and the resulting
expression is compiled unless a number, a boolean or a null occurs in the literal. Otherwise the walk
has ended with the access that failed, or with a name that neither the namespace nor the prelude
knows. -/
theorem literal_walked {literal : Json.Value} (hordered : literal.Ordered) (fuel space : Nat)
    (prelude : Prelude) (r : Registry) :
    (∀ outcome r', Registry.readLiteral fuel space literal prelude r = some (outcome, r') ↔
      ∃ accessed types,
        InTurn (Registry.Finds fuel space prelude) literal.names r accessed types r' ∧
          outcome = literal.mirror <$> types) ∧
    (∀ accessed types r',
      InTurn (Registry.Finds fuel space prelude) literal.names r accessed (.ok types) r' →
        accessed = literal.names.filter (· ∈ r.names space) ∧
        types.length = literal.names.length ∧
        ∀ s, (∃ error s', Action.normalizeType (literal.mirror types) s = some (.error error, s')) ↔
          literal.HoldsData) ∧
    ∀ accessed error r',
      InTurn (Registry.Finds fuel space prelude) literal.names r accessed (.error error) r' →
        ∃ front name rest before types r₁ last, literal.names = front ++ name :: rest ∧
          InTurn (Registry.Finds fuel space prelude) front r before (.ok types) r₁ ∧
          Registry.Finds fuel space prelude name r₁ last (.error error) r' ∧
          accessed = (front ++ [name]).filter (· ∈ r.names space) := by
  refine ⟨fun outcome r' => ?_, fun accessed types r' h => ?_,
    fun _ _ _ => Registry.stopped_of_inTurn⟩
  · rw [Registry.readLiteral, Literal.read_eq hordered]
    constructor
    · intro h
      obtain ⟨types, hfound, rfl⟩ := Action.map_cases h
      obtain ⟨accessed, hwalk⟩ := Registry.mapM_find_eq_some_iff.1 hfound
      exact ⟨accessed, types, hwalk, rfl⟩
    · rintro ⟨accessed, types, hwalk, rfl⟩
      rw [Action.map_apply, Registry.mapM_find_eq_some_iff.2 ⟨accessed, hwalk⟩]
      rfl
  · obtain ⟨haccessed, hlength⟩ := Registry.accessed_of_inTurn h
    refine ⟨haccessed, hlength, fun s => ?_⟩
    -- Which types the names stand for does not matter here: data stay data.
    have hiff := Json.Value.describesType_mirror_iff hordered hlength
    constructor
    · rintro ⟨error, s', hfails⟩
      by_contra hnone
      obtain ⟨t, s'', hcompiled⟩ := Action.exists_normalizeType (hiff.2 hnone) s
      cases hfails.symm.trans hcompiled
    · intro hdata
      obtain ⟨fault, hfault⟩ := Expr.exists_firstFault _ fun hd => hiff.1 hd hdata
      obtain ⟨name, called⟩ := fault.exists_called
      exact ⟨_, s, Action.normalizeType_of_firstFault hfault called s⟩

/-- A name that occurs twice is accessed twice, and a null is read but not compiled. -/
theorem literal_walked_twice_by_name :
    let int : Ty := ⟨0, .primitive .int⟩
    let str : Ty := ⟨1, .primitive .str⟩
    let prelude : Prelude := ({} : Table Ty).insert "Str" str
    let literal : Json.Value := .object [("a", .array [.string "ID", .string "Str"]),
      ("b", .string "ID"), ("c", .null)]
    let r₀ := ((Registry.newType (Registry.newType {} int.validator).2 str.validator).2.addSpace
      "main" {}).2
    literal.Ordered ∧ ∃ r source r',
      Registry.perform 2 (.bind 0 "ID" (.leaf int)) r₀ = some (.ok (.accessor ⟨0, "ID", 0⟩), r) ∧
      Registry.readLiteral 2 0 literal prelude r = some (.ok source, r') ∧
      (∃ types, InTurn (Registry.Finds 2 0 prelude) ["ID", "Str", "ID"] r ["ID", "ID"]
        (.ok types) r' ∧ source = literal.mirror types ∧ types.length = 3) ∧
      ∃ error s', Action.normalizeType source r' = some (.error error, s') := by
  intro int str prelude literal r₀
  have hordered : literal.Ordered :=
    .object (by unfold Entries.Ascending; decide +kernel)
      (by simpa using ⟨.array (by simpa using ⟨.string _, .string _⟩), .string _, .null⟩)
  refine ⟨hordered, ?_⟩
  obtain ⟨r, hbind⟩ : ∃ r, Registry.perform 2 (.bind 0 "ID" (.leaf int)) r₀ =
      some (.ok (.accessor ⟨0, "ID", 0⟩), r) := ⟨_, rfl⟩
  obtain ⟨⟨outcome, r'⟩, hread, hend⟩ : ∃ p,
      Registry.readLiteral 2 0 literal prelude r = some p ∧
        (p.1.toOption.isSome, r.names 0) = (true, ["ID"]) := by
    obtain ⟨-, rfl⟩ := Prod.mk.inj (Option.some.inj hbind)
    exact Option.map_eq_some_iff.1 (by decide +kernel)
  obtain ⟨hok, hnames⟩ := Prod.mk.inj hend
  obtain ⟨hwalks, hreaches, -⟩ := literal_walked hordered 2 0 prelude r
  obtain ⟨accessed, types, hwalk, rfl⟩ := (hwalks outcome r').1 hread
  cases types with
  | error error => cases hok
  | ok types =>
    obtain ⟨haccessed, hlength, hdata⟩ := hreaches accessed types r' hwalk
    rw [hnames] at haccessed
    have hID : accessed = ["ID", "ID"] := by rw [haccessed]; rfl
    refine ⟨r, _, r', hbind, hread, ⟨types, hID ▸ hwalk, rfl, hlength⟩, (hdata r').2 ?_⟩
    exact .member (m := ("c", .null)) (by simp) .null

end NamedTypes
