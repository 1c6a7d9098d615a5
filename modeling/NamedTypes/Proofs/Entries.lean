import Mathlib
import NamedTypes.Table

/-! # Arranged entries
`Entries.sort` puts entries in order of their keys and loses none of them, and
`Entries.repeatedKey?` compares neighbours only. In arranged entries that is enough: where no two
neighbours share a key, the keys ascend strictly (`Entries.ascending_sort`), so none occurs
twice, and the first neighbours that do share one have the least repeated key
(`Entries.repeatedKey?_sort_eq_some_iff`). -/

namespace NamedTypes.Entries

variable {α : Type}

/-- Entries whose keys never descend. -/
def Arranged (es : Entries α) : Prop := es.Pairwise fun a b => a.1 ≤ b.1

/-! ## Sorting -/

theorem perm_place (e : String × α) (es : Entries α) : (place e es).Perm (e :: es) := by
  induction es with
  | nil => exact List.Perm.refl _
  | cons f rest ih =>
    rw [place]
    split
    · exact (ih.cons f).trans (List.Perm.swap e f rest)
    · exact List.Perm.refl _

/-- Sorting keeps all entries. -/
theorem perm_sort (es : Entries α) : es.sort.Perm es := by
  induction es with
  | nil => exact List.Perm.refl _
  | cons e es ih => exact (perm_place e (sort es)).trans (ih.cons e)

theorem Arranged.place {es : Entries α} (h : Arranged es) (e : String × α) :
    Arranged (Entries.place e es) := by
  induction es with
  | nil => exact List.pairwise_singleton _ _
  | cons f rest ih =>
    obtain ⟨hf, hrest⟩ := List.pairwise_cons.1 h
    rw [Entries.place]
    split
    case isTrue hlt =>
      refine List.pairwise_cons.2 ⟨fun g hg => ?_, ih hrest⟩
      rcases List.mem_cons.1 ((perm_place e rest).mem_iff.1 hg) with rfl | hg
      · exact String.not_lt.1 (String.lt_asymm hlt)
      · exact hf g hg
    case isFalse hle =>
      -- `e` stands before `f`, and `f` before everything in `rest`
      have hef : e.1 ≤ f.1 := String.not_lt.1 hle
      refine List.pairwise_cons.2 ⟨fun g hg => ?_, h⟩
      rcases List.mem_cons.1 hg with rfl | hg
      · exact hef
      · exact String.le_trans hef (hf g hg)

/-- Sorting arranges the entries. -/
theorem arranged_sort (es : Entries α) : Arranged es.sort := by
  induction es with
  | nil => exact List.Pairwise.nil
  | cons e es ih => exact ih.place e

/-- Sorting looks at the keys only, so it commutes with changing the values. -/
theorem sort_map {β : Type} (g : α → β) (es : Entries α) :
    sort (es.map fun e => (e.1, g e.2)) = es.sort.map fun e => (e.1, g e.2) := by
  have hplace (e : String × α) (fs : Entries α) :
      Entries.place (e.1, g e.2) (fs.map fun f => (f.1, g f.2)) =
        (Entries.place e fs).map fun f => (f.1, g f.2) := by
    induction fs with
    | nil => rfl
    | cons f fs ih =>
      rw [List.map_cons, Entries.place, Entries.place]
      split
      · rw [ih, List.map_cons]
      · rfl
  induction es with
  | nil => rfl
  | cons e es ih => rw [List.map_cons, sort_cons, sort_cons, ih, hplace]

theorem repeatedKey?_map {β : Type} (g : α → β) (es : Entries α) :
    repeatedKey? (es.map fun e => (e.1, g e.2)) = es.repeatedKey? := by
  induction es with
  | nil => rfl
  | cons e es ih =>
    cases es with
    | nil => rfl
    | cons f es =>
      simp only [List.map_cons, repeatedKey?] at ih ⊢
      rw [ih]

theorem mem_keys_sort (es : Entries α) (key : String) : key ∈ es.sort.keys ↔ key ∈ es.keys :=
  ((perm_sort es).map Prod.fst).mem_iff

/-! ## Distinct keys -/

/-- Where no two neighbours of arranged entries share a key, the keys ascend strictly. -/
theorem Arranged.ascending {es : Entries α} (h : Arranged es) (hnone : es.repeatedKey? = none) :
    Ascending es := by
  induction es with
  | nil => exact ascending_nil
  | cons e rest ih =>
    obtain ⟨he, hrest⟩ := List.pairwise_cons.1 h
    cases rest with
    | nil => exact ascending_cons.2 ⟨fun f hf => absurd hf (List.not_mem_nil), ascending_nil⟩
    | cons f rest =>
      rw [repeatedKey?] at hnone
      split at hnone
      · cases hnone
      case isFalse hne =>
        have hasc : Ascending (f :: rest) := ih hrest hnone
        have hef : e.1 < f.1 := Decidable.byContradiction fun hlt =>
          hne (String.le_antisymm (he f List.mem_cons_self) (String.not_lt.1 hlt))
        refine ascending_cons.2 ⟨fun g hg => ?_, hasc⟩
        rcases List.mem_cons.1 hg with rfl | hg
        · exact hef
        · exact String.lt_trans hef ((ascending_cons.1 hasc).1 g hg)

/-- Sorted entries without a repeated key ascend strictly. -/
theorem ascending_sort {es : Entries α} (h : es.sort.repeatedKey? = none) : Ascending es.sort :=
  (arranged_sort es).ascending h

/-- Strictly ascending keys are distinct. -/
theorem Ascending.nodup_keys {es : Entries α} (h : Ascending es) : es.keys.Nodup := by
  refine List.pairwise_map.2 (h.imp fun {a b} hab heq => ?_)
  exact String.lt_irrefl b.1 (heq ▸ hab)

/-- A repeated key of arranged entries is the least key that occurs more than once. -/
theorem Arranged.isLeast {es : Entries α} (h : Arranged es) {key : String}
    (hkey : es.repeatedKey? = some key) : IsLeast {k | 1 < es.keys.count k} key := by
  induction es with
  | nil => cases hkey
  | cons e rest ih =>
    obtain ⟨he, hrest⟩ := List.pairwise_cons.1 h
    cases rest with
    | nil => cases hkey
    | cons f rest =>
      rw [repeatedKey?] at hkey
      split at hkey
      case isTrue heq =>
        obtain rfl := Option.some.inj hkey
        refine ⟨by simp [heq], fun k hk => ?_⟩
        have hk' : k ∈ keys (e :: f :: rest) := List.count_pos_iff.1 (Nat.zero_lt_of_lt hk)
        obtain ⟨g, hg, rfl⟩ := List.mem_map.1 hk'
        rcases List.mem_cons.1 hg with rfl | hg
        · exact String.le_refl _
        · exact he g hg
      case isFalse hne =>
        obtain ⟨hmem, hleast⟩ := ih hrest hkey
        refine ⟨lt_of_lt_of_le hmem List.count_le_count_cons, fun k hk => hleast ?_⟩
        -- the first key stands below all others, so it is not among those that are repeated
        have hlt : e.1 < f.1 := lt_of_le_of_ne (he f List.mem_cons_self) hne
        have hnot : e.1 ∉ keys (f :: rest) := fun hin => by
          obtain ⟨g, hg, heq⟩ := List.mem_map.1 hin
          rcases List.mem_cons.1 hg with rfl | hg
          · exact hne heq.symm
          · have hfg : f.1 ≤ g.1 := (List.pairwise_cons.1 hrest).1 g hg
            exact absurd (lt_of_lt_of_le hlt hfg) (heq ▸ String.lt_irrefl _)
        have hk' : 1 < (e.1 :: keys (f :: rest)).count k := hk
        by_cases hek : e.1 = k
        · subst hek
          rw [List.count_cons_self, List.count_eq_zero.2 hnot] at hk'
          exact absurd hk' (Nat.lt_irrefl 1)
        · rwa [List.count_cons_of_ne hek] at hk'

/-- Sorting brings to light whether keys are distinct. -/
theorem repeatedKey?_sort_eq_none_iff {es : Entries α} :
    es.sort.repeatedKey? = none ↔ es.keys.Nodup := by
  have hperm : es.sort.keys.Perm es.keys := (perm_sort es).map Prod.fst
  constructor
  · intro hnone
    exact hperm.nodup_iff.1 (ascending_sort hnone).nodup_keys
  · intro hnodup
    refine Option.eq_none_iff_forall_ne_some.2 fun key hkey => ?_
    have hcount : 1 < es.sort.keys.count key := ((arranged_sort es).isLeast hkey).1
    exact absurd (List.nodup_iff_count_le_one.1 (hperm.nodup_iff.2 hnodup) key) (not_le.2 hcount)

/-- Sorting brings the least key that is repeated to light. -/
theorem repeatedKey?_sort_eq_some_iff {es : Entries α} {key : String} :
    es.sort.repeatedKey? = some key ↔ IsLeast {k | 1 < es.keys.count k} key := by
  have hsame (k : String) : es.sort.keys.count k = es.keys.count k :=
    ((perm_sort es).map Prod.fst).count_eq k
  have hfound {k : String} (hk : es.sort.repeatedKey? = some k) :
      IsLeast {k | 1 < es.keys.count k} k := by
    simpa only [hsame] using (arranged_sort es).isLeast hk
  refine ⟨hfound, fun hleast => ?_⟩
  cases hk : es.sort.repeatedKey? with
  | none =>
    exact absurd (List.nodup_iff_count_le_one.1 (repeatedKey?_sort_eq_none_iff.1 hk) key)
      (not_le.2 hleast.1)
  | some k => rw [(hfound hk).unique hleast]

/-! ## Entries in another order -/

/-- Which keys are repeated shows in the keys. -/
theorem repeatedKey?_of_keys_eq {es fs : Entries α} (h : es.keys = fs.keys) :
    es.repeatedKey? = fs.repeatedKey? := by
  have bare (gs : Entries α) : gs.repeatedKey? = repeatedKey? (gs.keys.map fun k => (k, ())) := by
    rw [← repeatedKey?_map (fun _ => ()) gs, keys, List.map_map]
    rfl
  rw [bare es, bare fs, h]

/-- The keys of sorted entries do not depend on the order in which the entries were written. -/
theorem keys_sort_of_perm {es fs : Entries α} (h : es.Perm fs) : es.sort.keys = fs.sort.keys := by
  have hperm : es.sort.keys.Perm fs.sort.keys :=
    (((perm_sort es).trans h).trans (perm_sort fs).symm).map Prod.fst
  exact hperm.eq_of_pairwise (fun _ _ _ _ hab hba => String.le_antisymm hab hba)
    (List.pairwise_map.2 (arranged_sort es)) (List.pairwise_map.2 (arranged_sort fs))

/-- Entries that ascend strictly are arranged in one way only. -/
theorem Ascending.eq_of_perm {es fs : Entries α} (h : Ascending es) (h' : Ascending fs)
    (hperm : es.Perm fs) : es = fs :=
  hperm.eq_of_pairwise (fun _ _ _ _ hab hba => absurd hba (String.lt_asymm hab)) h h'

/-- Without repeated keys there is one sorted arrangement. -/
theorem sort_of_perm {es fs : Entries α} (h : es.Perm fs) (hnone : es.sort.repeatedKey? = none) :
    es.sort = fs.sort := by
  have hnone' : fs.sort.repeatedKey? = none :=
    (repeatedKey?_of_keys_eq (keys_sort_of_perm h)).symm.trans hnone
  exact (ascending_sort hnone).eq_of_perm (ascending_sort hnone')
    (((perm_sort es).trans h).trans (perm_sort fs).symm)

/-- Entries that ascend strictly are sorted. -/
theorem Ascending.sort_eq {es : Entries α} (h : Ascending es) : es.sort = es :=
  (ascending_sort (repeatedKey?_sort_eq_none_iff.2 h.nodup_keys)).eq_of_perm h (perm_sort es)

/-! ## Looking up -/

/-- Where keys are distinct, a key is found with the value of its only entry. -/
theorem lookup_eq_some_iff {es : Entries α} (h : es.keys.Nodup) {key : String} {value : α} :
    es.lookup key = some value ↔ (key, value) ∈ es := by
  induction es with
  | nil => simp
  | cons e es ih =>
    obtain ⟨k, w⟩ := e
    rw [keys_cons, List.nodup_cons] at h
    by_cases hk : key = k
    · subst hk
      have hmem : (key, value) ∉ es := fun hin => h.1 (List.mem_map.2 ⟨_, hin, rfl⟩)
      simp [hmem, eq_comm]
    · rw [List.lookup_cons, beq_false_of_ne hk]
      simp [hk, ih h.2]

theorem mem_keys_iff {es : Entries α} {key : String} : key ∈ es.keys ↔ ∃ v, (key, v) ∈ es := by
  simp [keys]

theorem isSome_lookup_iff {es : Entries α} {key : String} :
    (es.lookup key).isSome = true ↔ key ∈ es.keys := by
  induction es with
  | nil => simp
  | cons e es ih =>
    obtain ⟨k, v⟩ := e
    rw [keys_cons, List.mem_cons, List.lookup_cons]
    by_cases hk : key = k
    · simp [hk]
    · rw [beq_false_of_ne hk]
      simp [hk, ih]

/-- Ascending entries in which the same keys are found have the same keys. -/
theorem Ascending.keys_eq {β : Type} {es : Entries α} {fs : Entries β} (h : Ascending es)
    (h' : Ascending fs) (heq : ∀ key, (es.lookup key).isSome = (fs.lookup key).isSome) :
    es.keys = fs.keys := by
  have hperm : es.keys.Perm fs.keys := by
    rw [List.perm_ext_iff_of_nodup h.nodup_keys h'.nodup_keys]
    intro key
    rw [← isSome_lookup_iff, ← isSome_lookup_iff, heq]
  have hasc : es.keys.Pairwise (· < ·) := List.pairwise_map.2 h
  have hasc' : fs.keys.Pairwise (· < ·) := List.pairwise_map.2 h'
  refine hperm.eq_of_pairwise (fun a b _ _ hab hba => ?_) hasc hasc'
  exact absurd hba (String.lt_asymm hab)

theorem lookup_map {β : Type} (es : Entries α) (f : α → β) (key : String) :
    (es.map fun e => (e.1, f e.2)).lookup key = (es.lookup key).map f := by
  induction es with
  | nil => rfl
  | cons e es ih =>
    obtain ⟨k, v⟩ := e
    rw [List.map_cons, List.lookup_cons, List.lookup_cons]
    cases key == k with
    | true => rfl
    | false => exact ih

/-- Replacing the value of a key by one that looks the same leaves the looks of all entries. -/
theorem map_insert_of_lookup {β : Type} {es : Entries α} (h : Ascending es) {key : String}
    {value old : α} {f : α → β} (hold : es.lookup key = some old) (hf : f value = f old) :
    (insert key value es).map (fun e => (e.1, f e.2)) = es.map fun e => (e.1, f e.2) := by
  induction es with
  | nil => cases hold
  | cons e es ih =>
    obtain ⟨k, v⟩ := e
    obtain ⟨hk, hrest⟩ := ascending_cons.1 h
    rw [insert]
    split
    case isTrue hlt =>
      -- a key before the first one is not there
      have hin := (lookup_eq_some_iff h.nodup_keys).1 hold
      rcases List.mem_cons.1 hin with heq | hin
      · exact absurd hlt ((Prod.mk.inj heq).1 ▸ String.lt_irrefl key)
      · exact absurd (String.lt_trans hlt (hk _ hin)) (String.lt_irrefl key)
    case isFalse hlt =>
      split
      case isTrue heq =>
        subst heq
        obtain rfl : v = old := by simpa using hold
        rw [List.map_cons, List.map_cons, hf]
      case isFalse hne =>
        have hold' : List.lookup key es = some old := by
          rwa [List.lookup_cons, beq_false_of_ne hne] at hold
        rw [List.map_cons, List.map_cons, ih hrest hold']

/-- Changing all values, those inserted too. -/
theorem map_insert {β : Type} (f : α → β) (key : String) (value : α) (es : Entries α) :
    (insert key value es).map (fun e => (e.1, f e.2)) =
      insert key (f value) (es.map fun e => (e.1, f e.2)) := by
  induction es with
  | nil => rfl
  | cons e es ih =>
    rw [List.map_cons, insert, insert]
    split
    · rfl
    · split
      · rfl
      · rw [List.map_cons, ih]

theorem insert_cons_of_lt {k k' : String} (h : k < k') (v v' : α) (es : Entries α) :
    insert k v ((k', v') :: es) = (k, v) :: (k', v') :: es :=
  if_pos h

theorem insert_cons_self (k : String) (v v' : α) (es : Entries α) :
    insert k v ((k, v') :: es) = (k, v) :: es := by
  rw [insert, if_neg (String.lt_irrefl k), if_pos rfl]

theorem insert_cons_of_gt {k k' : String} (h : k' < k) (v v' : α) (es : Entries α) :
    insert k v ((k', v') :: es) = (k', v') :: insert k v es := by
  rw [insert, if_neg (String.lt_asymm h), if_neg (ne_of_gt h)]

/-- The last of two values given to one key stays. -/
theorem insert_insert (key : String) (value last : α) (es : Entries α) :
    insert key last (insert key value es) = insert key last es := by
  induction es with
  | nil => simp [insert]
  | cons e es ih =>
    obtain ⟨k, v⟩ := e
    rw [insert, insert]
    split
    · simp [insert]
    · split
      · simp [insert]
      · next hlt hne => rw [insert, if_neg hlt, if_neg hne, ih]

/-- Under two keys, values are inserted in any order. -/
theorem insert_comm {k k' : String} (hne : k ≠ k') (v v' : α) (es : Entries α) :
    insert k v (insert k' v' es) = insert k' v' (insert k v es) := by
  induction es with
  | nil =>
    change insert k v [(k', v')] = insert k' v' [(k, v)]
    obtain hlt | hlt := lt_or_gt_of_ne hne
    · rw [insert_cons_of_lt hlt, insert_cons_of_gt hlt, insert]
    · rw [insert_cons_of_gt hlt, insert_cons_of_lt hlt, insert]
  | cons e es ih =>
    obtain ⟨key, w⟩ := e
    obtain hk | rfl | hk := lt_trichotomy k key
    · obtain hk' | rfl | hk' := lt_trichotomy k' key
      · rw [insert_cons_of_lt hk', insert_cons_of_lt hk]
        obtain hlt | hlt := lt_or_gt_of_ne hne
        · rw [insert_cons_of_lt hlt, insert_cons_of_gt hlt, insert_cons_of_lt hk']
        · rw [insert_cons_of_gt hlt, insert_cons_of_lt hlt, insert_cons_of_lt hk]
      · rw [insert_cons_self, insert_cons_of_lt hk, insert_cons_of_lt hk, insert_cons_of_gt hk,
          insert_cons_self]
      · rw [insert_cons_of_gt hk', insert_cons_of_lt hk, insert_cons_of_lt hk,
          insert_cons_of_gt (hk.trans hk'), insert_cons_of_gt hk']
    · obtain hk' | heq | hk' := lt_trichotomy k' k
      · rw [insert_cons_of_lt hk', insert_cons_of_gt hk', insert_cons_self, insert_cons_of_lt hk']
      · exact absurd heq.symm hne
      · rw [insert_cons_of_gt hk', insert_cons_self, insert_cons_self, insert_cons_of_gt hk']
    · obtain hk' | rfl | hk' := lt_trichotomy k' key
      · rw [insert_cons_of_lt hk', insert_cons_of_gt (hk'.trans hk), insert_cons_of_gt hk,
          insert_cons_of_lt hk']
      · rw [insert_cons_self, insert_cons_of_gt hk, insert_cons_of_gt hk, insert_cons_self]
      · rw [insert_cons_of_gt hk', insert_cons_of_gt hk, insert_cons_of_gt hk, insert_cons_of_gt hk',
          ih]

/-- An entry under a new key is added. -/
theorem perm_insert {key : String} {es : Entries α} (h : key ∉ es.keys) (value : α) :
    (insert key value es).Perm ((key, value) :: es) := by
  induction es with
  | nil => exact List.Perm.refl _
  | cons e es ih =>
    obtain ⟨k, v⟩ := e
    rw [keys_cons, List.mem_cons, not_or] at h
    rw [insert, if_neg h.1]
    split
    · exact List.Perm.refl _
    · exact ((ih h.2).cons (k, v)).trans (List.Perm.swap ..)

/-- Entries under new and distinct keys are all added. -/
theorem perm_foldl_insert {es fs : Entries α} (hfs : fs.Ascending)
    (h : (fs.keys ++ es.keys).Nodup) :
    (es.foldl (fun fs e => insert e.1 e.2 fs) fs).Perm (fs ++ es) ∧
      Ascending (es.foldl (fun fs e => insert e.1 e.2 fs) fs) := by
  induction es generalizing fs with
  | nil => exact ⟨by simp, hfs⟩
  | cons e es ih =>
    rw [keys_cons, List.nodup_middle, List.nodup_cons] at h
    obtain ⟨hnew, hrest⟩ := h
    have hperm := perm_insert (fun hin => hnew (List.mem_append_left _ hin)) e.2
    have hkeys : (keys (insert e.1 e.2 fs) ++ keys es).Perm (e.1 :: (fs.keys ++ keys es)) :=
      (hperm.map Prod.fst).append_right _
    obtain ⟨hall, hasc⟩ := ih (hfs.insert e.1 e.2)
      (hkeys.nodup_iff.2 (List.nodup_cons.2 ⟨hnew, hrest⟩))
    exact ⟨hall.trans ((hperm.append_right es).trans List.perm_middle.symm), hasc⟩

/-- Entries with distinct keys, inserted one after the other, are the sorted entries. -/
theorem foldl_insert_eq_sort {es : Entries α} (h : es.keys.Nodup) :
    es.foldl (fun fs e => insert e.1 e.2 fs) [] = es.sort := by
  obtain ⟨hperm, hasc⟩ := perm_foldl_insert ascending_nil h
  exact hasc.eq_of_perm (ascending_sort (repeatedKey?_sort_eq_none_iff.2 h))
    (hperm.trans (perm_sort es).symm)

end NamedTypes.Entries
