/-! # Entries and tables keyed by text
**Entries** are lists of key-value pairs, as they stand in a record literal or a log line: any
order, keys may repeat. `Entries.sort` arranges them by ascending key and keeps the order of equal
keys; `Entries.insert` adds to an ascending list, replacing an earlier entry of the same key. A
**table** (`Table`) is a list of entries whose keys ascend strictly, so every key occurs once. Keys
are ordered by code point. -/

namespace NamedTypes

/-- Key-value pairs in the order in which they were written. -/
abbrev Entries (α : Type) : Type := List (String × α)

namespace Entries

variable {α : Type}

/-- The keys, in the order of the entries. -/
def keys (es : Entries α) : List String := es.map Prod.fst

@[simp] theorem keys_nil : keys ([] : Entries α) = [] := rfl

@[simp] theorem keys_cons (e : String × α) (es : Entries α) : keys (e :: es) = e.1 :: keys es := rfl

/-- Entries whose keys ascend strictly; in particular no key occurs twice. -/
def Ascending (es : Entries α) : Prop := es.Pairwise fun a b => a.1 < b.1

@[simp] theorem ascending_nil : Ascending ([] : Entries α) := List.Pairwise.nil

theorem ascending_cons {e : String × α} {es : Entries α} :
    Ascending (e :: es) ↔ (∀ f ∈ es, e.1 < f.1) ∧ Ascending es :=
  List.pairwise_cons

/-! ## Adding an entry -/

/-- Adds an entry before the first greater key; an entry of the same key is replaced. -/
def insert (key : String) (value : α) : Entries α → Entries α
  | [] => [(key, value)]
  | (k, v) :: rest =>
    if key < k then (key, value) :: (k, v) :: rest
    else if key = k then (key, value) :: rest
    else (k, v) :: insert key value rest

/-- An entry after an insertion is the new one or was there before. -/
theorem mem_insert {key : String} {value : α} {e : String × α} {es : Entries α}
    (h : e ∈ insert key value es) : e = (key, value) ∨ e ∈ es := by
  induction es with
  | nil => simpa [insert] using h
  | cons f rest ih =>
    obtain ⟨k, v⟩ := f
    rw [insert] at h
    split at h
    · simpa using h
    · split at h
      · rcases List.mem_cons.1 h with h | h
        · exact Or.inl h
        · exact Or.inr (List.mem_cons_of_mem _ h)
      · rcases List.mem_cons.1 h with h | h
        · exact Or.inr (by simp [h])
        · exact (ih h).imp id (List.mem_cons_of_mem _)

/-- Insertion keeps the keys strictly ascending. -/
theorem Ascending.insert {es : Entries α} (h : Ascending es) (key : String) (value : α) :
    Ascending (Entries.insert key value es) := by
  induction es with
  | nil => simp [Entries.insert, ascending_cons]
  | cons f rest ih =>
    obtain ⟨k, v⟩ := f
    obtain ⟨hk, hrest⟩ := ascending_cons.1 h
    rw [Entries.insert]
    split
    case isTrue hlt =>
      refine ascending_cons.2 ⟨fun g hg => ?_, h⟩
      rcases List.mem_cons.1 hg with rfl | hg
      · exact hlt
      · exact String.lt_trans hlt (hk g hg)
    case isFalse hlt =>
      split
      case isTrue heq => exact ascending_cons.2 ⟨fun g hg => heq ▸ hk g hg, hrest⟩
      case isFalse hne =>
        refine ascending_cons.2 ⟨fun g hg => ?_, ih hrest⟩
        rcases mem_insert hg with rfl | hg
        · exact Decidable.byContradiction fun hle =>
            hne (String.le_antisymm (String.not_lt.1 hle) (String.not_lt.1 hlt))
        · exact hk g hg

/-- The inserted value is found under its key. -/
@[simp] theorem lookup_insert_self (key : String) (value : α) (es : Entries α) :
    (insert key value es).lookup key = some value := by
  induction es with
  | nil => simp [insert]
  | cons f rest ih =>
    obtain ⟨k, v⟩ := f
    rw [insert]
    split
    · simp
    · split
      · simp
      · next hne => simp [List.lookup_cons, beq_false_of_ne hne, ih]

/-- Insertion leaves the other keys as they were. -/
theorem lookup_insert_of_ne {key other : String} (hne : other ≠ key) (value : α) (es : Entries α) :
    (insert key value es).lookup other = es.lookup other := by
  have hfalse : (other == key) = false := beq_false_of_ne hne
  induction es with
  | nil => simp [insert, List.lookup_cons, hfalse]
  | cons f rest ih =>
    obtain ⟨k, v⟩ := f
    rw [insert]
    split
    · simp [List.lookup_cons, hfalse]
    · split
      · next heq => subst heq; simp [List.lookup_cons, hfalse]
      · simp [List.lookup_cons, ih]

/-! ## Arranging entries by key -/

/-- Puts an entry before the first one whose key is not smaller. -/
def place (e : String × α) : Entries α → Entries α
  | [] => [e]
  | f :: rest => if f.1 < e.1 then f :: place e rest else e :: f :: rest

/-- The entries by ascending key; entries of one key keep their order. -/
def sort (es : Entries α) : Entries α := es.foldr place []

@[simp] theorem sort_nil : sort ([] : Entries α) = [] := rfl

@[simp] theorem sort_cons (e : String × α) (es : Entries α) : sort (e :: es) = place e (sort es) :=
  rfl

/-- The first key that equals the key after it. In sorted entries this is the smallest key that
occurs more than once. -/
def repeatedKey? : Entries α → Option String
  | e :: f :: rest => if e.1 = f.1 then some e.1 else repeatedKey? (f :: rest)
  | _ => none

end Entries

/-- A **table**: entries whose keys ascend strictly. -/
structure Table (α : Type) where
  /-- The entries, by ascending key. -/
  entries : Entries α := []
  /-- The keys ascend strictly. -/
  ascending : entries.Ascending := by exact Entries.ascending_nil

namespace Table

variable {α : Type}

/-- The table without entries. -/
def empty : Table α := {}

/-- The value under a key. -/
def get? (t : Table α) (key : String) : Option α := t.entries.lookup key

/-- Whether the key has an entry. -/
def contains (t : Table α) (key : String) : Bool := (t.get? key).isSome

/-- The keys, ascending. -/
def keys (t : Table α) : List String := t.entries.keys

/-- Adds an entry, replacing an earlier one of the same key. -/
def insert (t : Table α) (key : String) (value : α) : Table α :=
  ⟨t.entries.insert key value, t.ascending.insert key value⟩

/-- The table with its values changed. -/
def map {β : Type} (f : α → β) (t : Table α) : Table β where
  entries := t.entries.map fun e => (e.1, f e.2)
  ascending := List.pairwise_map.2 (by exact t.ascending)

@[simp] theorem get?_empty (key : String) : (empty : Table α).get? key = none := rfl

@[simp] theorem get?_insert_self (t : Table α) (key : String) (value : α) :
    (t.insert key value).get? key = some value :=
  Entries.lookup_insert_self key value t.entries

theorem get?_insert_of_ne (t : Table α) {key other : String} (hne : other ≠ key) (value : α) :
    (t.insert key value).get? other = t.get? other :=
  Entries.lookup_insert_of_ne hne value t.entries

end Table

end NamedTypes
