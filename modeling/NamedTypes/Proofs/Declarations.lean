import NamedTypes.Proofs.Readings
import NamedTypes.Registry.Declare

/-! # Declarations
The rules of declaring, binding and looking up a name, by what the name stands for. Every name has
one slot for good, the one that its first declaration makes (`Registry.accessor`): a declaration
gives that slot something to hold (`Registry.put`), and no name ever gets another one
(`DeclaresForward.accessor_eq`, `Binds.accessor_eq`). A name that has a definition keeps it, whatever
is declared or bound later (`DeclaresForward.alias?_of_some`, `Binds.alias?_of_defined`). -/

namespace NamedTypes

namespace Alias

/-- Whether an alias has a definition, so that it waits for none. -/
def IsDefined (entry : Alias) : Prop := entry ≠ .pending

end Alias

/-- The slots of a name of which the one that the name stands for, or the first one if there is
none, was given something to hold. -/
def Slots.put : Option Slots → Alias → Slots
  | none, entry => ⟨[entry], 0, Nat.zero_lt_one⟩
  | some s, entry => s.set s.current entry

/-- The only slot of a name is the one that the name stands for. -/
theorem Slots.held_eq_of_length {s : Slots} (h : s.held.length = 1) : s.held = [s.now] := by
  obtain ⟨held, current, hlt⟩ := s
  obtain ⟨entry, rfl⟩ := List.length_eq_one_iff.1 h
  obtain rfl : current = 0 := Nat.lt_one_iff.1 hlt
  rfl

namespace Registry

variable {space : Nat} {name : String} {r r' : Registry}

/-! ## The slot of a name -/

/-- The handle to the slot that a name stands for, or will stand for once it is declared. -/
def accessor (r : Registry) (space : Nat) (name : String) : Accessor :=
  (r.accessor? space name).getD ⟨space, name, 0⟩

/-- Gives the slot of a name something to hold. A name that has no slot gets one. -/
def put (r : Registry) (space : Nat) (name : String) (entry : Alias) : Registry :=
  r.setSlots space name (Slots.put (r.slots? space name) entry)

theorem accessor_eq (r : Registry) (space : Nat) (name : String) :
    r.accessor space name = ⟨space, name, ((r.slots? space name).map Slots.current).getD 0⟩ := by
  rw [accessor, accessor?]
  cases r.slots? space name <;> rfl

@[simp] theorem space_accessor (r : Registry) (space : Nat) (name : String) :
    (r.accessor space name).space = space := by rw [accessor_eq]

@[simp] theorem name_accessor (r : Registry) (space : Nat) (name : String) :
    (r.accessor space name).name = name := by rw [accessor_eq]

/-- The slot of a name holds what the name stands for; without a slot, the name stands for
nothing. -/
theorem alias?_accessor (r : Registry) (space : Nat) (name : String) :
    r.alias? (r.accessor space name) = (r.slots? space name).map Slots.now := by
  rw [accessor_eq, alias?]
  cases r.slots? space name with
  | none => rfl
  | some s => exact List.getElem?_eq_getElem s.current_lt

/-- A name that stands for something has a slot, and so does no other name. -/
theorem accessor?_eq_map (r : Registry) (space : Nat) (name : String) :
    r.accessor? space name =
      (r.alias? (r.accessor space name)).map fun _ => r.accessor space name := by
  rw [alias?_accessor, accessor_eq, accessor?, Option.map_map]
  cases r.slots? space name <;> rfl

theorem accessor_of_accessor? {a : Accessor} (h : r.accessor? space name = some a) :
    r.accessor space name = a := by
  rw [accessor, h]
  rfl

/-- Where the slots are the same, names stand for the same ones. -/
theorem accessor_congr (h : r'.slots? space name = r.slots? space name) :
    r'.accessor space name = r.accessor space name := by
  rw [accessor_eq, accessor_eq, h]

theorem alias?_congr {a : Accessor} (h : r'.slots? a.space a.name = r.slots? a.space a.name) :
    r'.alias? a = r.alias? a := by
  rw [alias?, h, alias?]

theorem accessor_of_outlines (h : r'.outlines = r.outlines) (space : Nat) (name : String) :
    r'.accessor space name = r.accessor space name := by
  rw [accessor, accessor, accessor?_of_outlines h]

/-- A namespace that is not there cannot be changed. -/
theorem modifySpace_of_missing (h : ¬ (r.space? space).isSome) (f : Namespace → Namespace) :
    r.modifySpace space f = r := by
  have hnone : r.spaces[space]? = none := Option.not_isSome_iff_eq_none.1 h
  have hspaces : r.spaces.modify space f = r.spaces := by
    refine Array.ext_getElem? fun other => ?_
    rw [Array.getElem?_modify]
    split
    · next heq => rw [← heq, hnone]; rfl
    · rfl
  rw [modifySpace, hspaces]

/-- The last of two changes of the slots of a name stays. -/
theorem setSlots_setSlots (r : Registry) (space : Nat) (name : String) (s last : Slots) :
    (r.setSlots space name s).setSlots space name last = r.setSlots space name last := by
  have hinsert (t : Table Slots) : (t.insert name s).insert name last = t.insert name last := by
    simp only [Table.insert, Entries.insert_insert]
  have hmodify (spaces : Array Namespace) {f g h : Namespace → Namespace}
      (hfg : ∀ n, g (f n) = h n) :
      (spaces.modify space f).modify space g = spaces.modify space h := by
    refine Array.ext_getElem? fun other => ?_
    rw [Array.getElem?_modify, Array.getElem?_modify, Array.getElem?_modify]
    split
    · rw [Option.map_map]
      exact congrArg (Option.map · _) (funext hfg)
    · rfl
  rw [setSlots, setSlots, setSlots, modifySpace, modifySpace, modifySpace]
  dsimp only
  rw [hmodify r.spaces fun n => congrArg (fun slots => { n with slots }) (hinsert n.slots)]

theorem slots?_put (r : Registry) (space other : Nat) (name otherName : String) (entry : Alias) :
    (r.put space name entry).slots? other otherName =
      if (other = space ∧ otherName = name) ∧ (r.space? space).isSome then
        some (Slots.put (r.slots? space name) entry)
      else r.slots? other otherName :=
  slots?_setSlots ..

/-- What a name was given to stand for is seen through its accessor and through no other one. -/
theorem alias?_put (r : Registry) (space : Nat) (name : String) (b : Accessor) (entry : Alias) :
    (r.put space name entry).alias? b =
      if b = r.accessor space name ∧ (r.space? space).isSome then some entry
      else r.alias? b := by
  obtain ⟨other, otherName, slot⟩ := b
  rw [alias?, alias?, slots?_put, accessor_eq]
  simp only [Accessor.mk.injEq]
  by_cases hname : (other = space ∧ otherName = name) ∧ (r.space? space).isSome
  · obtain ⟨⟨rfl, rfl⟩, hspace⟩ := hname
    rw [if_pos ⟨⟨rfl, rfl⟩, hspace⟩]
    cases r.slots? other otherName with
    | none =>
      cases slot <;> simp [Slots.put, hspace]
    | some s =>
      by_cases hslot : slot = s.current
      · subst hslot
        simp [Slots.put, Slots.set, hspace, s.current_lt]
      · simp [Slots.put, Slots.set, hslot, Ne.symm hslot]
  · rw [if_neg hname, if_neg fun h => hname ⟨⟨h.1.1, h.1.2.1⟩, h.2⟩]

/-- No name gets another slot when some name is given something to stand for. -/
theorem accessor_put (r : Registry) (space other : Nat) (name otherName : String) (entry : Alias) :
    (r.put space name entry).accessor other otherName = r.accessor other otherName := by
  rw [accessor_eq, accessor_eq, slots?_put]
  split
  · next h =>
    obtain ⟨⟨rfl, rfl⟩, -⟩ := h
    cases r.slots? other otherName <;> rfl
  · rfl

theorem perSpace_put {α : Type} {reading : Namespace → α} {entry : Alias}
    (hf : ∀ n slots, reading { n with slots } = reading n) :
    (r.put space name entry).perSpace reading = r.perSpace reading :=
  perSpace_modifySpace fun n => hf n _

theorem tallies_put (r : Registry) (space : Nat) (name : String) (entry : Alias)
    (counter : Counter) : (r.put space name entry).tallies counter = r.tallies counter :=
  perSpace_put fun _ _ => rfl

@[simp] theorem counted_put (r : Registry) (space other : Nat) (name : String) (entry : Alias)
    (counter : Counter) :
    (r.put space name entry).counted other counter = r.counted other counter := by
  rw [counted_eq, counted_eq, tallies_put]

/-! ## The rules -/

/-- Declaring a name ahead of its definition. -/
inductive DeclaresForward (space : Nat) (name : String) (r : Registry) :
    Except AliasError Accessor → Registry → Prop
  | declared (noEntry : r.alias? (r.accessor space name) = none) :
    DeclaresForward space name r (.ok (r.accessor space name))
      (((r.put space name .pending).count space .forwardDeclarations).note space
        .forwardDeclared [("alias", name)])
  | pending (entry : r.alias? (r.accessor space name) = some .pending) :
    DeclaresForward space name r (.ok (r.accessor space name)) r
  | rejected {entry : Alias} (isEntry : r.alias? (r.accessor space name) = some entry)
    (isDefined : entry.IsDefined) :
    DeclaresForward space name r (.error (.nameCollision name))
      (r.noteFailure space name .bindingRejected (.nameCollision name))

/-- Binding a name to an expression. -/
inductive Binds (space : Nat) (name : String) (source : TypeExpr) (r : Registry) :
    Except AliasError Accessor → Registry → Prop
  | bound
    (undefined : ∀ entry, r.alias? (r.accessor space name) = some entry → ¬ entry.IsDefined) :
    Binds space name source r (.ok (r.accessor space name))
      (((r.put space name (Alias.ofSource (r.config space) source)).count space
        .bindings).note space (bindingEvent source) [("alias", name)])
  | rejected {entry : Alias} (isEntry : r.alias? (r.accessor space name) = some entry)
    (isDefined : entry.IsDefined) :
    Binds space name source r (.error (.nameCollision name))
      (r.noteFailure space name .bindingRejected (.nameCollision name))

/-- Looking a name up. -/
inductive LooksUp (space : Nat) (name : String) (r : Registry) :
    Except AliasError Accessor → Registry → Prop
  | found {entry : Alias} (isEntry : r.alias? (r.accessor space name) = some entry) :
    LooksUp space name r (.ok (r.accessor space name)) r
  | missing (noEntry : r.alias? (r.accessor space name) = none) :
    LooksUp space name r (.error (.undefinedAlias name)) r

/-! ## Declarations follow the rules -/

theorem get_bind_toAction {α : Type} (f : Registry → Declaration α) (r : Registry) :
    (get >>= f : Declaration α).toAction r = (f r).toAction r := rfl

theorem isDefined_eq (r : Registry) (space : Nat) (name : String) :
    r.isDefined space name = r.isFilled (r.accessor space name) := by
  rw [isDefined, accessor?_eq_map]
  cases hentry : r.alias? (r.accessor space name) with
  | none => simp [isFilled, hentry]
  | some entry => rfl

/-- A name that has a slot is given something to stand for in place. -/
theorem setAlias_accessor {old : Alias} (h : r.alias? (r.accessor space name) = some old)
    (entry : Alias) : r.setAlias (r.accessor space name) entry = r.put space name entry := by
  rw [alias?_accessor] at h
  obtain ⟨s, hs, -⟩ := Option.map_eq_some_iff.1 h
  rw [accessor_eq, setAlias, put, hs]
  rfl

/-- A name that was given something to stand for just now may be given something else. -/
theorem setAlias_put (r : Registry) (space : Nat) (name : String) (first entry : Alias) :
    (r.put space name first).setAlias (r.accessor space name) entry = r.put space name entry := by
  by_cases hspace : (r.space? space).isSome
  · have hput (s : Option Slots) : (Slots.put s first).set ((s.map Slots.current).getD 0) entry =
        Slots.put s entry := by
      cases s with
      | none => rfl
      | some s => simp [Slots.put, Slots.set]
    rw [accessor_eq, setAlias, slots?_put, if_pos ⟨⟨rfl, rfl⟩, hspace⟩]
    simp only [hput]
    exact setSlots_setSlots ..
  · have hmissing (s : Slots) : r.setSlots space name s = r := modifySpace_of_missing hspace _
    have hnone : r.slots? space name = none := by
      rw [slots?, Option.not_isSome_iff_eq_none.1 hspace]
      rfl
    rw [put, put, hmissing, hmissing, accessor_eq, setAlias]
    simp only [hnone]

/-- Making a slot for a new name answers with the handle that the name was to get. -/
theorem insertSlot_bind_toAction {α : Type} (h : r.alias? (r.accessor space name) = none)
    (f : Accessor → Declaration α) :
    (insertSlot space name >>= f).toAction r =
      (f (r.accessor space name)).toAction (r.put space name .pending) := by
  have hslots : r.slots? space name = none := by
    rwa [alias?_accessor, Option.map_eq_none_iff] at h
  have hadd : r.addSlot space name = (r.accessor space name, r.put space name .pending) := by
    rw [addSlot, put, accessor_eq, hslots]
    rfl
  change (f (r.addSlot space name).1).toAction (r.addSlot space name).2 = _
  rw [hadd]

/-- Declaring ahead, by what the name stands for. -/
theorem declareForward_toAction (r : Registry) (space : Nat) (name : String) :
    (declareForward space name).toAction r = some (match r.alias? (r.accessor space name) with
      | none => (.ok (r.accessor space name), ((r.put space name .pending).count space
          .forwardDeclarations).note space .forwardDeclared [("alias", name)])
      | some .pending => (.ok (r.accessor space name), r)
      | some _ => (.error (.nameCollision name),
          r.noteFailure space name .bindingRejected (.nameCollision name))) := by
  have hmatch := accessor?_eq_map r space name
  rw [declareForward, get_bind_toAction, isDefined_eq, isFilled]
  rcases hentry : r.alias? (r.accessor space name) with _ | _ | _ | _
  · rw [hentry] at hmatch
    rw [if_neg Bool.false_ne_true, get_bind_toAction, hmatch]
    dsimp only [Option.map_none]
    rw [insertSlot_bind_toAction hentry]
    rfl
  · rw [hentry] at hmatch
    rw [if_neg Bool.false_ne_true, get_bind_toAction, hmatch]
    rfl
  · rfl
  · rfl

/-- Binding, by what the name stands for. -/
theorem bind_toAction (r : Registry) (space : Nat) (name : String) (source : TypeExpr) :
    (bind space name source).toAction r = some (match r.alias? (r.accessor space name) with
      | none | some .pending => (.ok (r.accessor space name),
          ((r.put space name (Alias.ofSource (r.config space) source)).count space
            .bindings).note space (bindingEvent source) [("alias", name)])
      | some _ => (.error (.nameCollision name),
          r.noteFailure space name .bindingRejected (.nameCollision name))) := by
  have hmatch := accessor?_eq_map r space name
  let answer (filled : Registry) : Option (Except AliasError Accessor × Registry) :=
    some (.ok (r.accessor space name),
      (filled.count space .bindings).note space (bindingEvent source) [("alias", name)])
  rw [bind, get_bind_toAction, isDefined_eq, isFilled]
  rcases hentry : r.alias? (r.accessor space name) with _ | _ | _ | _
  · -- the slot that was made just now is pending
    have hpending : (r.put space name .pending).isFilled (r.accessor space name) = false := by
      rw [isFilled, alias?_put, hentry]
      split <;> simp_all
    rw [hentry] at hmatch
    rw [if_neg Bool.false_ne_true, get_bind_toAction, get_bind_toAction, hmatch]
    dsimp only [Option.map_none]
    rw [insertSlot_bind_toAction hentry, get_bind_toAction, hpending, if_neg Bool.false_ne_true]
    exact congrArg answer (setAlias_put r space name .pending _)
  · have hpending : r.isFilled (r.accessor space name) = false := by rw [isFilled, hentry]
    rw [hentry] at hmatch
    rw [if_neg Bool.false_ne_true, get_bind_toAction, get_bind_toAction, hmatch]
    dsimp only [Option.map_some]
    rw [pure_bind, get_bind_toAction, hpending, if_neg Bool.false_ne_true]
    exact congrArg answer (setAlias_accessor hentry _)
  · rfl
  · rfl

/-- Looking up, by what the name stands for. -/
theorem lookup_toAction (r : Registry) (space : Nat) (name : String) :
    (lookup space name).toAction r = some (match r.alias? (r.accessor space name) with
      | none => (.error (.undefinedAlias name), r)
      | some _ => (.ok (r.accessor space name), r)) := by
  rw [lookup, get_bind_toAction, accessor?_eq_map]
  cases r.alias? (r.accessor space name) <;> rfl

theorem declaresForward_of {outcome : Except AliasError Accessor}
    (h : (declareForward space name).toAction r = some (outcome, r')) :
    DeclaresForward space name r outcome r' := by
  rw [declareForward_toAction] at h
  rcases hentry : r.alias? (r.accessor space name) with _ | _ | _ | _ <;> rw [hentry] at h <;>
    obtain ⟨rfl, rfl⟩ := Prod.mk.inj (Option.some.inj h)
  · exact .declared hentry
  · exact .pending hentry
  · exact .rejected hentry nofun
  · exact .rejected hentry nofun

theorem binds_of {source : TypeExpr} {outcome : Except AliasError Accessor}
    (h : (bind space name source).toAction r = some (outcome, r')) :
    Binds space name source r outcome r' := by
  rw [bind_toAction] at h
  rcases hentry : r.alias? (r.accessor space name) with _ | _ | _ | _ <;> rw [hentry] at h <;>
    obtain ⟨rfl, rfl⟩ := Prod.mk.inj (Option.some.inj h)
  · exact .bound fun entry he => by rw [hentry] at he; cases he
  · refine .bound fun entry he hdefined => hdefined ?_
    exact Option.some.inj (he.symm.trans hentry)
  · exact .rejected hentry nofun
  · exact .rejected hentry nofun

theorem looksUp_of {outcome : Except AliasError Accessor}
    (h : (lookup space name).toAction r = some (outcome, r')) :
    LooksUp space name r outcome r' := by
  rw [lookup_toAction] at h
  cases hentry : r.alias? (r.accessor space name) <;> rw [hentry] at h <;>
    obtain ⟨rfl, rfl⟩ := Prod.mk.inj (Option.some.inj h)
  · exact .missing hentry
  · exact .found hentry

/-! ## Slots stay -/

/-- Reporting a failure leaves every slot as it is. -/
theorem slots?_noteFailure (r : Registry) (space other : Nat) (name otherName : String)
    (event : Log.Event) (error : AliasError) :
    (r.noteFailure space name event error).slots? other otherName = r.slots? other otherName := by
  rw [noteFailure, slots?_note, slots?_count]

/-- Declaring ahead gives no name another slot. -/
theorem DeclaresForward.accessor_eq {outcome : Except AliasError Accessor}
    (h : DeclaresForward space name r outcome r') (other : Nat) (otherName : String) :
    r'.accessor other otherName = r.accessor other otherName := by
  cases h with
  | declared =>
    rw [← accessor_put r space other name otherName .pending]
    exact accessor_congr (by rw [slots?_note, slots?_count])
  | pending => rfl
  | rejected => exact accessor_congr (slots?_noteFailure ..)

/-- Binding gives no name another slot. -/
theorem Binds.accessor_eq {source : TypeExpr} {outcome : Except AliasError Accessor}
    (h : Binds space name source r outcome r') (other : Nat) (otherName : String) :
    r'.accessor other otherName = r.accessor other otherName := by
  cases h with
  | bound =>
    rw [← accessor_put r space other name otherName (Alias.ofSource (r.config space) source)]
    exact accessor_congr (by rw [slots?_note, slots?_count])
  | rejected => exact accessor_congr (slots?_noteFailure ..)

/-- A new namespace has no slots, and leaves those of the others as they are. -/
theorem slots?_addSpace (r : Registry) (space : Nat) (name spaceName : String) (config : Config) :
    (r.addSpace spaceName config).2.slots? space name = r.slots? space name := by
  rw [addSpace, slots?_note]
  change ((r.spaces.push _)[space]?).bind _ = (r.spaces[space]?).bind _
  rw [Array.getElem?_push]
  split
  · next heq =>
    rw [Array.getElem?_eq_none (Nat.le_of_eq heq.symm)]
    rfl
  · rfl

/-! ## Definitions stay -/

/-- Reporting a failure leaves every alias as it is. -/
@[simp] theorem alias?_noteFailure (r : Registry) (space : Nat) (name : String)
    (event : Log.Event) (error : AliasError) (b : Accessor) :
    (r.noteFailure space name event error).alias? b = r.alias? b := by
  rw [noteFailure, alias?_note, alias?_count]

/-- A slot that holds something belongs to a namespace. -/
theorem isSome_space?_of_alias? {a : Accessor} {entry : Alias} (h : r.alias? a = some entry) :
    (r.space? a.space).isSome := by
  obtain ⟨s, hs, -⟩ := Option.bind_eq_some_iff.1 h
  obtain ⟨n, hn, -⟩ := Option.bind_eq_some_iff.1 hs
  rw [hn]
  rfl

/-- Giving one name something to stand for leaves every slot but its own as it is. -/
theorem alias?_put_of_ne {b : Accessor} (hne : b ≠ r.accessor space name) (entry : Alias) :
    (r.put space name entry).alias? b = r.alias? b := by
  rw [alias?_put, if_neg fun h => hne h.1]

/-- What a slot holds after some name was given something to stand for is that, or what it held. -/
theorem alias?_put_cases {b : Accessor} {entry found : Alias}
    (h : (r.put space name entry).alias? b = some found) :
    (b = r.accessor space name ∧ found = entry) ∨ r.alias? b = some found := by
  rw [alias?_put] at h
  split at h
  · next hb => exact .inl ⟨hb.1, (Option.some.inj h).symm⟩
  · exact .inr h

/-- Changing one alias leaves every other one as it is. -/
theorem alias?_modifyAlias_of_ne {a b : Accessor} (hne : b ≠ a) (f : Alias → Alias) :
    (r.modifyAlias a f).alias? b = r.alias? b := by
  unfold modifyAlias
  split
  · next entry hentry =>
    rw [alias?_setAlias r a b _ (by rw [hentry]; rfl), if_neg hne]
  · rfl

/-- Changing an alias shows through every accessor of it. -/
theorem alias?_modifyAlias_self {a : Accessor} {entry : Alias} (h : r.alias? a = some entry)
    (f : Alias → Alias) : (r.modifyAlias a f).alias? a = some (f entry) := by
  rw [modifyAlias, h]
  exact (alias?_setAlias r a a _ (by rw [h]; rfl)).trans (if_pos rfl)

/-- What a slot holds after some alias was changed is the change of what it held, or that itself. -/
theorem alias?_modifyAlias_cases {a b : Accessor} {f : Alias → Alias} {found : Alias}
    (h : (r.modifyAlias a f).alias? b = some found) :
    (∃ entry, r.alias? b = some entry ∧ found = f entry) ∨ r.alias? b = some found := by
  by_cases hb : b = a
  · subst hb
    cases hentry : r.alias? b with
    | none =>
      rw [modifyAlias, hentry] at h
      exact .inr (hentry.symm.trans h)
    | some entry =>
      rw [alias?_modifyAlias_self hentry] at h
      exact .inl ⟨entry, rfl, (Option.some.inj h).symm⟩
  · exact .inr ((alias?_modifyAlias_of_ne hb f).symm.trans h)

/-- After a declaration ahead a slot holds what it held, or waits for a definition. -/
theorem DeclaresForward.entry_cases {outcome : Except AliasError Accessor} {a : Accessor}
    {entry : Alias} (h : DeclaresForward space name r outcome r')
    (hentry : r'.alias? a = some entry) : r.alias? a = some entry ∨ entry = .pending := by
  cases h with
  | declared =>
    rw [alias?_note, alias?_count] at hentry
    exact (alias?_put_cases hentry).symm.imp_right And.right
  | pending => exact .inl hentry
  | rejected => exact .inl ((alias?_noteFailure ..).symm.trans hentry)

/-- After a binding a slot holds what it held, or what was bound. -/
theorem Binds.entry_cases {source : TypeExpr} {outcome : Except AliasError Accessor} {a : Accessor}
    {entry : Alias} (h : Binds space name source r outcome r') (hentry : r'.alias? a = some entry) :
    r.alias? a = some entry ∨ entry = Alias.ofSource (r.config space) source := by
  cases h with
  | bound =>
    rw [alias?_note, alias?_count] at hentry
    exact (alias?_put_cases hentry).symm.imp_right And.right
  | rejected => exact .inl ((alias?_noteFailure ..).symm.trans hentry)

/-- Declaring ahead leaves everything that a slot holds. -/
theorem DeclaresForward.alias?_of_some {outcome : Except AliasError Accessor} {a : Accessor}
    {entry : Alias} (h : DeclaresForward space name r outcome r') (ha : r.alias? a = some entry) :
    r'.alias? a = some entry := by
  cases h with
  | declared noEntry =>
    have hne : a ≠ r.accessor space name := fun heq => by rw [← heq, ha] at noEntry; cases noEntry
    rw [alias?_note, alias?_count, alias?_put_of_ne hne, ha]
  | pending => exact ha
  | rejected => rw [alias?_noteFailure, ha]

/-- Binding leaves every definition. -/
theorem Binds.alias?_of_defined {source : TypeExpr} {outcome : Except AliasError Accessor}
    {a : Accessor} {entry : Alias} (h : Binds space name source r outcome r')
    (ha : r.alias? a = some entry) (hdefined : entry.IsDefined) : r'.alias? a = some entry := by
  cases h with
  | bound undefined =>
    have hne : a ≠ r.accessor space name := fun heq => undefined entry (heq ▸ ha) hdefined
    rw [alias?_note, alias?_count, alias?_put_of_ne hne, ha]
  | rejected => rw [alias?_noteFailure, ha]

/-- A new namespace has no aliases, and leaves those of the others as they are. -/
theorem alias?_addSpace (r : Registry) (a : Accessor) (spaceName : String) (config : Config) :
    (r.addSpace spaceName config).2.alias? a = r.alias? a := by
  rw [alias?, slots?_addSpace, alias?]

/-- Binding answers with the accessor of the slot that the name has had, which holds what the name
was bound to. -/
theorem Binds.of_ok {source : TypeExpr} {a : Accessor}
    (h : Binds space name source r (.ok a) r') (hspace : (r.space? space).isSome) :
    a = r.accessor space name ∧ r'.alias? a = some (Alias.ofSource (r.config space) source) := by
  cases h with
  | bound =>
    refine ⟨rfl, ?_⟩
    rw [alias?_note, alias?_count, alias?_put, if_pos ⟨rfl, hspace⟩]

end Registry

end NamedTypes
