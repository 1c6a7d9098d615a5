import NamedTypes.Json.Reader

/-! # Ordered values
A value is **ordered** (`Json.Value.Ordered`) if the members of every object in it stand by strictly
ascending key. The reader puts members in order and lets the last one of a key count, so every value
that is read from a text is ordered (`Json.ordered_of_read`). -/

namespace NamedTypes.Json

/-- A value all of whose objects have their members by strictly ascending key. -/
inductive Value.Ordered : Value → Prop
  | null : Ordered .null
  | bool (value : Bool) : Ordered (.bool value)
  | number (value : Number) : Ordered (.number value)
  | string (value : String) : Ordered (.string value)
  | array {items : List Value} (items_ordered : ∀ v ∈ items, Ordered v) : Ordered (.array items)
  | object {members : Entries Value} (ascending : members.Ascending)
    (members_ordered : ∀ m ∈ members, Ordered m.2) : Ordered (.object members)

/-- What comes of one reading after another comes of both. -/
theorem exists_ok_of_bind {ε α β : Type} {x : Except ε α} {f : α → Except ε β} {b : β}
    (h : (x >>= f) = .ok b) : ∃ a, x = .ok a ∧ f a = .ok b := by
  cases x with
  | error e => cases h
  | ok a => exact ⟨a, rfl, h⟩

/-- Members that are inserted one after the other stand by ascending key. -/
theorem ordered_ofMembers {members : Entries Value} (h : ∀ m ∈ members, m.2.Ordered) :
    (Value.ofMembers members).Ordered := by
  have hfold (es : Entries Value) (hasc : es.Ascending) (hes : ∀ m ∈ es, m.2.Ordered) :
      Entries.Ascending (members.foldl (fun es e => Entries.insert e.1 e.2 es) es) ∧
        ∀ m ∈ members.foldl (fun es e => Entries.insert e.1 e.2 es) es, m.2.Ordered := by
    induction members generalizing es with
    | nil => exact ⟨hasc, hes⟩
    | cons m members ih =>
      refine ih (fun m hm => h m (List.mem_cons_of_mem _ hm)) _ (hasc.insert ..) fun e he => ?_
      obtain rfl | he := Entries.mem_insert he
      · exact h m List.mem_cons_self
      · exact hes e he
  exact .object (hfold [] Entries.ascending_nil nofun).1 (hfold [] Entries.ascending_nil nofun).2

/-! ## Reading -/

section Readers

variable {readItem : Reader Value} (h : ∀ {cs v rest}, readItem cs = .ok (v, rest) → v.Ordered)

include h

/-- Where single values are read as ordered ones, those of an array are ordered. -/
theorem ordered_of_readElements {bound : Nat} {isFirst : Bool} {cs rest : List Char}
    {items : List Value} (hread : readElements readItem bound isFirst cs = .ok (items, rest)) :
    ∀ v ∈ items, v.Ordered := by
  induction bound generalizing isFirst cs items with
  | zero => cases hread
  | succ bound ih =>
    rw [readElements] at hread
    obtain ⟨⟨more, after⟩, -, hread⟩ := exists_ok_of_bind hread
    cases more with
    | false =>
      obtain ⟨rfl, -⟩ := Prod.mk.inj (Except.ok.inj hread)
      exact nofun
    | true =>
      obtain ⟨⟨v, after⟩, hfirst, hread⟩ := exists_ok_of_bind hread
      obtain ⟨⟨vs, after⟩, hrest, hread⟩ := exists_ok_of_bind hread
      obtain ⟨rfl, rfl⟩ := Prod.mk.inj (Except.ok.inj hread)
      exact List.forall_mem_cons.2 ⟨h hfirst, ih hrest⟩

/-- Where single values are read as ordered ones, those of an object are ordered. -/
theorem ordered_of_readMembers {bound : Nat} {isFirst : Bool} {cs rest : List Char}
    {members : Entries Value}
    (hread : readMembers readItem bound isFirst cs = .ok (members, rest)) :
    ∀ m ∈ members, m.2.Ordered := by
  induction bound generalizing isFirst cs members with
  | zero => cases hread
  | succ bound ih =>
    rw [readMembers] at hread
    obtain ⟨⟨key, after⟩, -, hread⟩ := exists_ok_of_bind hread
    cases key with
    | none =>
      obtain ⟨rfl, -⟩ := Prod.mk.inj (Except.ok.inj hread)
      exact nofun
    | some key =>
      obtain ⟨⟨⟨⟩, after⟩, -, hread⟩ := exists_ok_of_bind hread
      obtain ⟨⟨v, after⟩, hfirst, hread⟩ := exists_ok_of_bind hread
      obtain ⟨⟨ms, after⟩, hrest, hread⟩ := exists_ok_of_bind hread
      obtain ⟨rfl, rfl⟩ := Prod.mk.inj (Except.ok.inj hread)
      exact List.forall_mem_cons.2 ⟨h hfirst, ih hrest⟩

end Readers

/-- A word stands for one value. -/
theorem ordered_of_readWord {word after rest : List Char} {v w : Value} (hw : w.Ordered)
    (h : (do let (_, rest) ← readWord word after; return (w, rest) :
      Except ReadError (Value × List Char)) = .ok (v, rest)) : v.Ordered := by
  obtain ⟨⟨⟨⟩, _⟩, -, h⟩ := exists_ok_of_bind h
  obtain ⟨rfl, -⟩ := Prod.mk.inj (Except.ok.inj h)
  exact hw

theorem ordered_of_readValue {nesting : Nat} {cs rest : List Char} {v : Value}
    (h : readValue nesting cs = .ok (v, rest)) : v.Ordered := by
  -- By induction on the nesting that is left, which items and members are read with one less of.
  induction nesting using Nat.strongRecOn generalizing cs v rest with
  | _ nesting ih =>
    rw [readValue] at h
    split at h
    · cases h
    · split at h
      · exact ordered_of_readWord .null h
      split at h
      · exact ordered_of_readWord (.bool true) h
      split at h
      · exact ordered_of_readWord (.bool false) h
      split at h
      · obtain ⟨⟨number, _⟩, -, h⟩ := exists_ok_of_bind h
        obtain ⟨rfl, -⟩ := Prod.mk.inj (Except.ok.inj h)
        exact .number number
      split at h
      · obtain ⟨⟨text, _⟩, -, h⟩ := exists_ok_of_bind h
        obtain ⟨rfl, -⟩ := Prod.mk.inj (Except.ok.inj h)
        exact .string text
      split at h
      · cases nesting with
        | zero => cases h
        | succ nesting =>
          obtain ⟨⟨items, _⟩, hitems, h⟩ := exists_ok_of_bind h
          obtain ⟨rfl, -⟩ := Prod.mk.inj (Except.ok.inj h)
          exact .array (ordered_of_readElements (ih nesting (Nat.lt_succ_self _)) hitems)
      split at h
      · cases nesting with
        | zero => cases h
        | succ nesting =>
          obtain ⟨⟨members, _⟩, hmembers, h⟩ := exists_ok_of_bind h
          obtain ⟨rfl, -⟩ := Prod.mk.inj (Except.ok.inj h)
          exact ordered_ofMembers (ordered_of_readMembers (ih nesting (Nat.lt_succ_self _)) hmembers)
      · cases h

/-- **Every value that is read from a text is ordered.** -/
theorem ordered_of_read {text : String} {v : Value} (h : read text = .ok v) : v.Ordered := by
  rw [read] at h
  obtain ⟨⟨v, rest⟩, hread, h⟩ := exists_ok_of_bind h
  obtain ⟨⟨⟩, -, h⟩ := exists_ok_of_bind h
  obtain rfl := Except.ok.inj h
  exact ordered_of_readValue hread

end NamedTypes.Json
