import NamedTypes.Proofs.Entries
import NamedTypes.Proofs.Evaluation

/-! # Readings
What can be read off the namespaces of a registry (`Registry.perSpace`), and which steps change a
reading. Accesses never change the **outline** of a namespace (`Registry.keeps_outlines`): its name
and configuration, what is declared and bound in it, and to what. -/

namespace NamedTypes

/-! ## Outlines -/

/-- What a name was given to stand for. -/
inductive Definition
  | pending
  | plain (source : TypeExpr)
  | function (function : Generator)

/-- The definition of an alias, without what it keeps or remembers. -/
def Alias.definition : Alias → Definition
  | .pending => .pending
  | .plain source _ => .plain source
  | .function f _ => .function f

@[simp] theorem Alias.definition_keep (type : Ty) (entry : Alias) :
    (entry.keep type).definition = entry.definition := by
  cases entry <;> rfl

@[simp] theorem Alias.definition_remember (types : List Ty) (result : Normalized Generator)
    (entry : Alias) : (entry.remember types result).definition = entry.definition := by
  rcases entry with _ | _ | ⟨f, _ | memo⟩ <;> rfl

/-- What accesses never change of the slots of a name. -/
structure SlotsOutline where
  /-- The definitions that the slots hold. -/
  definitions : List Definition
  /-- The number of the slot that the name stands for. -/
  current : Nat

/-- The outline of the slots of a name. -/
def Slots.outline (s : Slots) : SlotsOutline where
  definitions := s.held.map Alias.definition
  current := s.current

/-- What accesses never change of a namespace. -/
structure Outline where
  /-- The name. -/
  name : String
  /-- The configuration. -/
  config : Config
  /-- The number of names declared ahead. -/
  forwardDeclarations : Nat
  /-- The number of definitions bound. -/
  bindings : Nat
  /-- The outlines of the slots, by name. -/
  slots : Entries SlotsOutline

/-- The outline of a namespace. -/
def Namespace.outline (n : Namespace) : Outline where
  name := n.name
  config := n.config
  forwardDeclarations := n.metrics.get .forwardDeclarations
  bindings := n.metrics.get .bindings
  slots := n.slots.entries.map fun e => (e.1, e.2.outline)

namespace Registry

/-! ## Readings of all namespaces -/

/-- What is read off the namespaces, in the order of their numbers. -/
def perSpace {α : Type} (r : Registry) (reading : Namespace → α) : List α :=
  r.spaces.toList.map reading

section Readings

variable {α : Type} {r : Registry} {reading : Namespace → α}

@[simp] theorem getElem?_perSpace (r : Registry) (reading : Namespace → α) (space : Nat) :
    (r.perSpace reading)[space]? = (r.space? space).map reading := by
  simp [perSpace, space?]

/-- A change that the reading does not see. -/
theorem perSpace_modifySpace {space : Nat} {f : Namespace → Namespace}
    (hf : ∀ n, reading (f n) = reading n) :
    (r.modifySpace space f).perSpace reading = r.perSpace reading := by
  refine List.ext_getElem? fun other => ?_
  rw [getElem?_perSpace, getElem?_perSpace, space?_modifySpace]
  split
  · rw [Option.map_map]
    exact congrArg (Option.map · _) (funext hf)
  · rfl

theorem perSpace_note {space : Nat} {event : Log.Event} {fields : Entries String} :
    (r.note space event fields).perSpace reading = r.perSpace reading := by
  unfold note
  split <;> rfl

/-- A change of what a slot holds that the reading does not see. -/
theorem perSpace_setAlias {a : Accessor} {entry : Alias}
    (hf : ∀ n slots, reading { n with slots } = reading n) :
    (r.setAlias a entry).perSpace reading = r.perSpace reading := by
  unfold setAlias
  split
  · exact perSpace_modifySpace fun n => hf n _
  · rfl

theorem perSpace_modifyAlias {a : Accessor} {f : Alias → Alias}
    (hf : ∀ n slots, reading { n with slots } = reading n) :
    (r.modifyAlias a f).perSpace reading = r.perSpace reading := by
  unfold modifyAlias
  split
  · exact perSpace_setAlias hf
  · rfl

/-- A new namespace is read last. -/
theorem perSpace_addSpace (name : String) (config : Config) :
    (r.addSpace name config).2.perSpace reading = r.perSpace reading ++ [reading { name, config }] := by
  rw [addSpace, perSpace_note, perSpace, Array.toList_push, List.map_append]
  rfl

/-- The values of a counter. -/
def tallies (r : Registry) (counter : Counter) : List Nat :=
  r.perSpace fun n => n.metrics.get counter

/-- Counting changes one value of one counter. -/
theorem tallies_count (r : Registry) (space : Nat) (counter read : Counter) :
    (r.count space counter).tallies read =
      (r.tallies read).modify space (· + if counter = read then 1 else 0) := by
  unfold tallies
  refine List.ext_getElem? fun other => ?_
  rw [getElem?_perSpace, count, space?_modifySpace, List.getElem?_modify, getElem?_perSpace]
  split
  · cases r.space? other <;> simp [Metrics.get_increment]
  · cases r.space? other <;> rfl

end Readings

/-- What happened in a namespace, in order. -/
def noticesOf (r : Registry) (space : Nat) : List Notice :=
  r.notices.toList.filter fun notice => notice.space == space

/-! ## Single counters -/

/-- The value of a counter of a namespace. -/
def counted (r : Registry) (space : Nat) (counter : Counter) : Nat :=
  ((r.space? space).map fun n => n.metrics.get counter).getD 0

theorem counted_eq (r : Registry) (space : Nat) (counter : Counter) :
    r.counted space counter = ((r.tallies counter)[space]?).getD 0 := by
  rw [tallies, getElem?_perSpace, counted]

@[simp] theorem counted_note (r : Registry) (space other : Nat) (event : Log.Event)
    (fields : Entries String) (counter : Counter) :
    (r.note space event fields).counted other counter = r.counted other counter := by
  rw [counted_eq, counted_eq, tallies, perSpace_note, tallies]

@[simp] theorem counted_modifyAlias (r : Registry) (a : Accessor) (f : Alias → Alias) (other : Nat)
    (counter : Counter) :
    (r.modifyAlias a f).counted other counter = r.counted other counter := by
  rw [counted_eq, counted_eq, tallies, perSpace_modifyAlias fun _ _ => rfl, tallies]

/-- Of a new namespace there is nothing to read yet. -/
theorem getD_addSpace {α : Type} (r : Registry) {name : String} {config : Config} (space : Nat)
    {reading : Namespace → α} {nothing : α} (h : reading { name, config } = nothing) :
    (((r.addSpace name config).2.space? space).map reading).getD nothing =
      ((r.space? space).map reading).getD nothing := by
  rw [← getElem?_perSpace, ← getElem?_perSpace, perSpace_addSpace, List.getElem?_append]
  split
  · rfl
  · next hlt =>
    rw [List.getElem?_eq_none (Nat.le_of_not_lt hlt)]
    cases space - _ with
    | zero => exact h
    | succ => rfl

/-- A new namespace has counted nothing. -/
theorem counted_addSpace (r : Registry) (name : String) (config : Config) (space : Nat)
    (counter : Counter) :
    (r.addSpace name config).2.counted space counter = r.counted space counter :=
  r.getD_addSpace space (by cases counter <;> rfl)

/-- Counting raises one counter of one namespace. -/
theorem counted_count {r : Registry} {space : Nat} (h : (r.space? space).isSome)
    (counter read : Counter) :
    (r.count space counter).counted space read =
      r.counted space read + if counter = read then 1 else 0 := by
  obtain ⟨n, hn⟩ := Option.isSome_iff_exists.1 h
  rw [counted, counted, count, space?_modifySpace, if_pos rfl, hn]
  exact Metrics.get_increment n.metrics counter read

/-- Reporting a failure leaves all slots. -/
theorem slots_noteFailure (r : Registry) (space : Nat) (name : String) (event : Log.Event)
    (error : AliasError) :
    (r.noteFailure space name event error).perSpace Namespace.slots = r.perSpace Namespace.slots := by
  rw [noteFailure, perSpace_note]
  exact perSpace_modifySpace fun _ => rfl

/-- Reporting a failure counts an error. -/
theorem tallies_noteFailure (r : Registry) (space : Nat) (name : String) (event : Log.Event)
    (error : AliasError) (counter : Counter) :
    (r.noteFailure space name event error).tallies counter =
      if counter = .errors then (r.tallies .errors).modify space (· + 1)
      else r.tallies counter := by
  rw [noteFailure, tallies, perSpace_note, ← tallies, tallies_count]
  by_cases h : counter = .errors
  · rw [if_pos h, if_pos h.symm, h]
  · rw [if_neg h, if_neg (Ne.symm h)]
    exact List.modify_id ..

/-- What is read off the slots tells the slots of every name. -/
theorem slots?_of_slots_eq {r r' : Registry}
    (h : r'.perSpace Namespace.slots = r.perSpace Namespace.slots) (space : Nat) (name : String) :
    r'.slots? space name = r.slots? space name := by
  have hget (s : Registry) : s.slots? space name =
      (s.perSpace Namespace.slots)[space]?.bind fun slots => slots.get? name := by
    rw [getElem?_perSpace, Option.bind_map]
    rfl
  rw [hget, h, ← hget]

theorem alias?_of_slots_eq {r r' : Registry}
    (h : r'.perSpace Namespace.slots = r.perSpace Namespace.slots) (a : Accessor) :
    r'.alias? a = r.alias? a := by
  rw [alias?, alias?, slots?_of_slots_eq h]

/-- Leaving an access counts nothing but failures. -/
theorem counted_leave {α : Type} (r : Registry) (a : Accessor) (outcome : Except AliasError α)
    (after : Registry) (space : Nat) {counter : Counter} (h : counter ≠ .errors) :
    (r.leave a outcome after).counted space counter = after.counted space counter := by
  cases outcome with
  | ok result => rfl
  | error error =>
    rw [leave]
    split
    · rw [counted_eq, tallies_noteFailure, if_neg h, counted_eq]
      rfl
    · rfl

@[simp] theorem alias?_leave {α : Type} (r : Registry) (a : Accessor)
    (outcome : Except AliasError α) (after : Registry) (b : Accessor) :
    (r.leave a outcome after).alias? b = after.alias? b := by
  cases outcome with
  | ok result => rfl
  | error error =>
    rw [leave]
    split
    · rw [noteFailure, alias?_note, alias?_count]
      rfl
    · rfl

/-! ## Single aliases -/

theorem state_of_alias? {r : Registry} {a : Accessor} {entry : Alias}
    (h : r.alias? a = some entry) : r.state a = entry.state := by
  rw [state, h]
  rfl

theorem slots?_of_spaces {r r' : Registry} (h : r'.spaces = r.spaces) (space : Nat)
    (name : String) : r'.slots? space name = r.slots? space name := by
  rw [slots?, slots?, space?, space?, h]

theorem alias?_of_spaces {r r' : Registry} (h : r'.spaces = r.spaces) (a : Accessor) :
    r'.alias? a = r.alias? a := by
  rw [alias?, alias?, slots?_of_spaces h]

theorem counted_of_spaces {r r' : Registry} (h : r'.spaces = r.spaces) (space : Nat)
    (counter : Counter) :
    r'.counted space counter = r.counted space counter := by
  rw [counted, counted, space?, space?, h]

/-! ## Accesses keep outlines -/

/-- The outlines of the namespaces. -/
def outlines (r : Registry) : List Outline := r.perSpace Namespace.outline

/-- The definition of the alias of an accessor. -/
def definition? (r : Registry) (a : Accessor) : Option Definition :=
  (r.alias? a).map Alias.definition

/-- Outlines tell everything that can be read off them. -/
theorem perSpace_of_outlines {α : Type} {r r' : Registry} (h : r'.outlines = r.outlines)
    (f : Outline → α) : r'.perSpace (fun n => f n.outline) = r.perSpace fun n => f n.outline := by
  have hmap := congrArg (List.map f) h
  rw [outlines, outlines, perSpace, perSpace, List.map_map, List.map_map] at hmap
  exact hmap

/-- Outlines tell the outlines of the slots of every name. -/
theorem outline_slots? (r : Registry) (space : Nat) (name : String) :
    (r.slots? space name).map Slots.outline =
      (r.outlines[space]?).bind fun o => o.slots.lookup name := by
  rw [slots?, outlines, getElem?_perSpace]
  cases r.space? space with
  | none => rfl
  | some n => exact (Entries.lookup_map _ _ _).symm

/-- Outlines tell which slots names stand for. -/
theorem accessor?_eq (r : Registry) (space : Nat) (name : String) :
    r.accessor? space name =
      ((r.slots? space name).map Slots.outline).map fun s => ⟨space, name, s.current⟩ := by
  rw [accessor?, Option.map_map]
  rfl

/-- Outlines tell the definitions. -/
theorem definition?_eq (r : Registry) (a : Accessor) :
    r.definition? a =
      ((r.slots? a.space a.name).map Slots.outline).bind fun s => s.definitions[a.slot]? := by
  rw [definition?, alias?, Option.map_bind, Option.bind_map]
  exact congrArg _ (funext fun s => (List.getElem?_map ..).symm)

theorem accessor?_of_outlines {r r' : Registry} (h : r'.outlines = r.outlines) (space : Nat)
    (name : String) : r'.accessor? space name = r.accessor? space name := by
  rw [accessor?_eq, accessor?_eq, outline_slots?, outline_slots?, h]

theorem definition?_of_outlines {r r' : Registry} (h : r'.outlines = r.outlines) (a : Accessor) :
    r'.definition? a = r.definition? a := by
  rw [definition?_eq, definition?_eq, outline_slots?, outline_slots?, h]

theorem isSome_space?_of_outlines {r r' : Registry} (h : r'.outlines = r.outlines) (space : Nat) :
    (r'.space? space).isSome = (r.space? space).isSome := by
  have := congrArg (fun os => os[space]?.isSome) h
  simpa [outlines] using this

/-- Outlines tell how many names were declared ahead and bound. -/
theorem counted_of_outlines {r r' : Registry} (h : r'.outlines = r.outlines) (space : Nat)
    {counter : Counter} (hcounter : counter = .forwardDeclarations ∨ counter = .bindings) :
    r'.counted space counter = r.counted space counter := by
  have htallies : r'.tallies counter = r.tallies counter := by
    obtain rfl | rfl := hcounter
    · exact perSpace_of_outlines h Outline.forwardDeclarations
    · exact perSpace_of_outlines h Outline.bindings
  rw [counted_eq, counted_eq, htallies]

/-- What leaves the definition of a slot leaves the outline of the slots. -/
theorem outline_set {s : Slots} {slot : Nat} {old entry : Alias} (hold : s.held[slot]? = some old)
    (h : entry.definition = old.definition) : (s.set slot entry).outline = s.outline := by
  have hget : (s.held.map Alias.definition)[slot]? = some entry.definition := by
    rw [List.getElem?_map, hold, h]
    rfl
  obtain ⟨hlt, hsame⟩ := List.getElem?_eq_some_iff.1 hget
  have hset : (s.held.map Alias.definition).set slot entry.definition =
      s.held.map Alias.definition := by
    rw [← hsame]
    exact List.set_getElem_self hlt
  rw [Slots.outline, Slots.outline, Slots.set, List.map_set, hset]

/-- A change of an alias that leaves its definition leaves the outlines. -/
theorem outlines_modifyAlias {r : Registry} {a : Accessor} {f : Alias → Alias}
    (hf : ∀ entry, (f entry).definition = entry.definition) :
    (r.modifyAlias a f).outlines = r.outlines := by
  cases ha : r.alias? a with
  | none => rw [modifyAlias, ha]
  | some entry =>
    obtain ⟨s, hs, hslot⟩ := Option.bind_eq_some_iff.1 ha
    obtain ⟨n, hn, hname⟩ := Option.bind_eq_some_iff.1 hs
    have hset : r.modifyAlias a f = r.setSlots a.space a.name (s.set a.slot (f entry)) := by
      rw [modifyAlias, ha]
      simp only [setAlias, hs]
    refine List.ext_getElem? fun other => ?_
    rw [hset, outlines, outlines, getElem?_perSpace, getElem?_perSpace, setSlots,
      space?_modifySpace]
    split
    · next heq =>
      subst heq
      have hinsert := Entries.map_insert_of_lookup n.slots.ascending hname
        (outline_set hslot (hf entry))
      simp only [hn, Option.map_some, Namespace.outline, Table.insert, hinsert]
    · rfl

theorem outlines_count {r : Registry} {space : Nat} {counter : Counter}
    (h : counter ≠ .forwardDeclarations) (h' : counter ≠ .bindings) :
    (r.count space counter).outlines = r.outlines := by
  refine perSpace_modifySpace fun n => ?_
  simp only [Namespace.outline, Metrics.get_increment, if_neg h, if_neg h', Nat.add_zero]

theorem outlines_leave {α : Type} (r : Registry) (a : Accessor) (outcome : Except AliasError α)
    (after : Registry) : (r.leave a outcome after).outlines = after.outlines := by
  cases outcome with
  | ok result => rfl
  | error error =>
    rw [leave]
    split
    · rw [noteFailure, outlines, perSpace_note]
      exact outlines_count (by decide) (by decide)
    · rfl

/-- **Accesses leave the outlines of all namespaces.** -/
theorem keeps_outlines (fuel : Nat) : (world fuel).Keeps fun r _ r' => r'.outlines = r.outlines := by
  refine keeps_world (fun _ => rfl) (fun h₁ h₂ => h₂.trans h₁) (fun _ _ => rfl)
    (fun {_ a demand arguments r log answer r'} hW h => ?_) fuel
  have hadmits : Admits (fun r _ r' => r'.outlines = r.outlines) a :=
    { count := fun h => outlines_count (by rintro rfl; cases h) (by rintro rfl; cases h)
      note := fun _ => perSpace_note
      keep := outlines_modifyAlias (Alias.definition_keep _)
      remember := outlines_modifyAlias (Alias.definition_remember _ _) }
  obtain ⟨resolves, -⟩ := h
  have hinner : _ = r.enter.outlines := resolves.keeps hW hadmits
  rw [outlines_leave, hinner]
  rfl

end Registry

end NamedTypes
