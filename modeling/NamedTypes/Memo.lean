import NamedTypes.Body

/-! # Remembered results
A **memo** keeps the results of calls by the instances that the calls were given. The first result
for a list of instances stays. -/

namespace NamedTypes

/-- The results of calls, by the identities of their arguments. -/
structure Memo where
  /-- The results in the order in which they came. -/
  results : List (List Nat × Normalized Generator) := []

namespace Memo

/-- The identities of arguments. -/
def key (arguments : List Ty) : List Nat := arguments.map Ty.id

/-- The result remembered for arguments. -/
def get? (m : Memo) (arguments : List Ty) : Option (Normalized Generator) :=
  m.results.lookup (key arguments)

/-- Remembers a result for arguments, unless there is one. -/
def insert (m : Memo) (arguments : List Ty) (result : Normalized Generator) : Memo :=
  match m.get? arguments with
  | some _ => m
  | none => ⟨m.results ++ [(key arguments, result)]⟩

/-- Arguments with the same identities are remembered as one. -/
theorem get?_congr {arguments others : List Ty} (h : arguments.map Ty.id = others.map Ty.id)
    (m : Memo) : m.get? arguments = m.get? others := by
  rw [get?, get?, key, key, h]

/-- After an insertion, what was remembered is remembered, and the new result where there was
none. -/
theorem get?_insert (m : Memo) (arguments others : List Ty) (result : Normalized Generator) :
    (m.insert arguments result).get? others = (m.get? others).or
      (if arguments.map Ty.id = others.map Ty.id then some result else none) := by
  unfold insert
  split
  · next first hfirst =>
    split
    · next hids => rw [← get?_congr hids m, hfirst, Option.some_or]
    · rw [Option.or_none]
  · rw [get?, get?, key, key, List.lookup_append, List.lookup_cons, List.lookup_nil]
    by_cases hids : arguments.map Ty.id = others.map Ty.id
    · rw [hids, beq_self_eq_true, if_pos rfl]
    · rw [beq_false_of_ne (Ne.symm hids), if_neg hids]

/-- A result that is remembered stays. -/
theorem get?_insert_of_some {m : Memo} {arguments : List Ty} {result : Normalized Generator}
    (h : m.get? arguments = some result) (others : List Ty) (other : Normalized Generator) :
    (m.insert others other).get? arguments = some result := by
  rw [get?_insert, h, Option.some_or]

/-- A result that is remembered after an insertion was remembered before, or is the new one. -/
theorem get?_insert_cases {m : Memo} {arguments others : List Ty}
    {result found : Normalized Generator} (h : (m.insert arguments result).get? others = some found) :
    m.get? others = some found ∨ key others = key arguments ∧ found = result := by
  rw [get?_insert] at h
  cases hothers : m.get? others with
  | some first =>
    rw [hothers, Option.some_or] at h
    exact .inl h
  | none =>
    rw [hothers, Option.none_or] at h
    split at h
    · next hids => exact .inr ⟨hids.symm, (Option.some.inj h).symm⟩
    · cases h

/-- Types that are told apart by their identities are told apart by keys. -/
theorem eq_of_key_eq {arguments others : List Ty}
    (h : ∀ t ∈ arguments, ∀ u ∈ others, t.id = u.id → t = u)
    (hkey : key arguments = key others) : arguments = others := by
  induction arguments generalizing others with
  | nil =>
    cases others with
    | nil => rfl
    | cons => cases hkey
  | cons t arguments ih =>
    cases others with
    | nil => cases hkey
    | cons u others =>
      obtain ⟨hid, hrest⟩ := List.cons.inj hkey
      rw [h t List.mem_cons_self u List.mem_cons_self hid,
        ih (fun t ht u hu => h t (List.mem_cons_of_mem _ ht) u (List.mem_cons_of_mem _ hu)) hrest]

end Memo

end NamedTypes
