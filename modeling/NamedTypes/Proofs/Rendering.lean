import NamedTypes.Proofs.Provenance
import NamedTypes.Proofs.Quoting

/-! # What renderings tell about validators
A rendering shows a validator up to the grouping of its unions: `Validator.regroup` moves all
brackets of unions to the right, which changes neither the rendering nor what is accepted, and
validators that are grouped so are equal if they render alike
(`Validator.Grouped.eq_of_describe_eq`). Hence types that render alike accept the same values
(`same_structure_same_meaning`).

The argument is that of a grammar. A rendering with one alternative ends where it closes its own
bracket, so no other can start with it; one with several alternatives goes on as long as a bar
follows. Fields are told apart from what follows because keys contain no colon. -/

namespace NamedTypes

namespace Validator

/-! ## Validators without labels and their normal form -/

/-- The characters that renderings are punctuated with. -/
def punctuation : List Char := [',', ':', '|', '[', ']', '\x7b', '\x7d']

/-- Validators that are built of the primitives by the combinators, with fields whose keys contain
no punctuation. -/
inductive Plain : Validator → Prop
  | primitive (p : Primitive) : Plain (.primitive p)
  | tuple {items : List Validator} (items_plain : ∀ t ∈ items, Plain t) : Plain (.tuple items)
  | record {fields : List (String × Validator)}
    (keys_plain : ∀ f ∈ fields, ∀ c ∈ f.1.toList, c ∉ punctuation)
    (fields_plain : ∀ f ∈ fields, Plain f.2) : Plain (.record fields)
  | list {element : Validator} (element_plain : Plain element) : Plain (.list element)
  | union {left right : Validator} (left_plain : Plain left) (right_plain : Plain right) :
    Plain (.union left right)

/-- The union of two validators, grouped to the right if both are. -/
def unite : Validator → Validator → Validator
  | .union left right, v => .union left (unite right v)
  | u, v => .union u v

mutual

/-- Groups all unions to the right. -/
def regroup : Validator → Validator
  | .primitive p => .primitive p
  | .custom label accepts => .custom label accepts
  | .tuple items => .tuple (regroupItems items)
  | .record fields => .record (regroupFields fields)
  | .list element => .list (regroup element)
  | .union left right => unite (regroup left) (regroup right)

/-- Regroups validators in order. -/
def regroupItems : List Validator → List Validator
  | [] => []
  | t :: ts => regroup t :: regroupItems ts

/-- Regroups the validators of fields in order. -/
def regroupFields : List (String × Validator) → List (String × Validator)
  | [] => []
  | (key, t) :: fields => (key, regroup t) :: regroupFields fields

end

theorem regroupItems_eq_map (ts : List Validator) : regroupItems ts = ts.map regroup := by
  induction ts with
  | nil => simp [regroupItems]
  | cons t ts ih => simp [regroupItems, ih]

theorem regroupFields_eq_map (fields : List (String × Validator)) :
    regroupFields fields = fields.map fun f => (f.1, f.2.regroup) := by
  induction fields with
  | nil => simp [regroupFields]
  | cons f fields ih => simp [regroupFields, ih]

mutual

/-- Plain validators that are no unions, with all unions inside grouped to the right. -/
inductive Single : Validator → Prop
  | primitive (p : Primitive) : Single (.primitive p)
  | tuple {items : List Validator} (items_grouped : ∀ t ∈ items, Grouped t) : Single (.tuple items)
  | record {fields : List (String × Validator)}
    (keys_plain : ∀ f ∈ fields, ∀ c ∈ f.1.toList, c ∉ punctuation)
    (fields_grouped : ∀ f ∈ fields, Grouped f.2) : Single (.record fields)
  | list {element : Validator} (element_grouped : Grouped element) : Single (.list element)

/-- Plain validators with all unions grouped to the right. -/
inductive Grouped : Validator → Prop
  | single {v : Validator} (one : Single v) : Grouped v
  | union {left right : Validator} (one : Single left) (others : Grouped right) :
    Grouped (.union left right)

end

/-- **Induction over validators.** What passes from the parts of a validator to the whole holds of
every validator. -/
@[elab_as_elim]
theorem memberInduction {motive : Validator → Prop} (primitive : ∀ p, motive (.primitive p))
    (custom : ∀ label accepts, motive (.custom label accepts))
    (tuple : ∀ items, (∀ t ∈ items, motive t) → motive (.tuple items))
    (record : ∀ fields, (∀ f ∈ fields, motive f.2) → motive (.record fields))
    (list : ∀ element, motive element → motive (.list element))
    (union : ∀ left right, motive left → motive right → motive (.union left right)) :
    ∀ v, motive v
  | .primitive p => primitive p
  | .custom label accepts => custom label accepts
  | .tuple items => tuple items fun t _ =>
    memberInduction primitive custom tuple record list union t
  | .record fields => record fields fun f _ =>
    memberInduction primitive custom tuple record list union f.2
  | .list element => list element (memberInduction primitive custom tuple record list union element)
  | .union left right => union left right
    (memberInduction primitive custom tuple record list union left)
    (memberInduction primitive custom tuple record list union right)
termination_by v => sizeOf v
decreasing_by
  · have := List.sizeOf_lt_of_mem ‹t ∈ items›
    simp only [Validator.tuple.sizeOf_spec]
    omega
  · have := List.sizeOf_lt_of_mem ‹f ∈ fields›
    obtain ⟨key, value⟩ := f
    simp only [Validator.record.sizeOf_spec, Prod.mk.sizeOf_spec] at *
    omega
  all_goals
    simp only [Validator.list.sizeOf_spec, Validator.union.sizeOf_spec]
    omega

/-! ## Regrouping is harmless -/

/-- A united validator accepts what either side accepts. -/
theorem check_unite (u v : Validator) (value : Json.Value) :
    (unite u v).check value = (u.check value || v.check value) := by
  fun_induction unite u v with
  | case1 left right v ih => rw [check, ih, check, Bool.or_assoc]
  | case2 u v => rw [check]

/-- A united validator renders both sides beside each other. -/
theorem describe_unite (u v : Validator) :
    (unite u v).describe = u.describe ++ " | " ++ v.describe := by
  fun_induction unite u v with
  | case1 left right v ih => simp only [describe, ih, String.append_assoc]
  | case2 u v => rw [describe]

theorem checkItems_map {f : Validator → Validator} {ts : List Validator}
    (h : ∀ t ∈ ts, ∀ v, (f t).check v = t.check v) (vs : List Json.Value) :
    checkItems (ts.map f) vs = checkItems ts vs := by
  induction ts generalizing vs with
  | nil => rfl
  | cons t ts ih =>
    cases vs with
    | nil => rfl
    | cons v vs =>
      rw [List.map_cons, checkItems, checkItems, h t List.mem_cons_self,
        ih fun u hu => h u (List.mem_cons_of_mem _ hu)]

theorem checkFields_map {f : Validator → Validator} {fields : List (String × Validator)}
    (h : ∀ g ∈ fields, ∀ v, (f g.2).check v = g.2.check v) (members : Entries Json.Value) :
    checkFields (fields.map fun g => (g.1, f g.2)) members = checkFields fields members := by
  induction fields with
  | nil => rfl
  | cons g fields ih =>
    obtain ⟨key, t⟩ := g
    have ht : ∀ v, (f t).check v = t.check v := h (key, t) List.mem_cons_self
    rw [List.map_cons, checkFields, checkFields, ih fun g hg => h g (List.mem_cons_of_mem _ hg)]
    simp only [ht]

/-- Regrouping changes nothing about which values are accepted. -/
theorem check_regroup (u : Validator) : ∀ v, u.regroup.check v = u.check v := by
  induction u using memberInduction with
  | primitive p => exact fun v => rfl
  | custom label accepts => exact fun v => rfl
  | tuple items ih =>
    intro v
    rw [regroup, regroupItems_eq_map]
    cases v with
    | array vs => rw [check, check, checkItems_map ih]
    | _ => rfl
  | record fields ih =>
    intro v
    rw [regroup, regroupFields_eq_map]
    cases v with
    | object members => rw [check, check, checkFields_map ih, List.length_map]
    | _ => rfl
  | list element ih =>
    intro v
    rw [regroup]
    cases v with
    | array vs => rw [check, check, funext ih]
    | _ => rfl
  | union left right ihl ihr =>
    intro v
    rw [regroup, check_unite, ihl, ihr, check]

/-- Regrouping leaves the rendering. -/
theorem describe_regroup (u : Validator) : u.regroup.describe = u.describe := by
  induction u using memberInduction with
  | primitive p => rfl
  | custom label accepts => rfl
  | tuple items ih =>
    rw [regroup, describe, describe, regroupItems_eq_map, describeItems_eq_map,
      describeItems_eq_map, List.map_map]
    congr 3
    exact List.map_congr_left ih
  | record fields ih =>
    rw [regroup, describe, describe, regroupFields_eq_map, describeFields_eq_map,
      describeFields_eq_map, List.map_map]
    congr 3
    exact List.map_congr_left fun f hf => by simp only [Function.comp_apply, ih f hf]
  | list element ih => rw [regroup, describe, describe, ih]
  | union left right ihl ihr => rw [regroup, describe_unite, ihl, ihr, describe]

theorem Grouped.unite {u v : Validator} (hu : Grouped u) (hv : Grouped v) :
    Grouped (u.unite v) := by
  fun_induction Validator.unite u v with
  | case1 left right v ih =>
    obtain ⟨⟨⟩⟩ | ⟨one, others⟩ := hu
    exact .union one (ih others hv)
  | case2 u v hone =>
    obtain one | ⟨one, others⟩ := hu
    · exact .union one hv
    · exact absurd rfl (hone _ _)

/-- Regrouping groups all unions of a plain validator to the right. -/
theorem Plain.grouped_regroup {v : Validator} (h : Plain v) : Grouped v.regroup := by
  induction h with
  | primitive p => exact .single (.primitive p)
  | tuple _ ih =>
    rw [regroup, regroupItems_eq_map]
    exact .single (.tuple (List.forall_mem_map.2 ih))
  | record keys_plain _ ih =>
    rw [regroup, regroupFields_eq_map]
    exact .single (.record (List.forall_mem_map.2 keys_plain) (List.forall_mem_map.2 ih))
  | list _ ih =>
    rw [regroup]
    exact .single (.list ih)
  | union _ _ ihl ihr =>
    rw [regroup]
    exact ihl.unite ihr

/-! ## Renderings as lists of characters -/

/-- The characters of a rendering. -/
def text (v : Validator) : List Char := v.describe.toList

/-- The characters of a rendered field. -/
def fieldText (f : String × Validator) : List Char := f.1.toList ++ ':' :: ' ' :: f.2.text

theorem text_tuple (items : List Validator) : (tuple items).text =
    'T' :: 'u' :: 'p' :: 'l' :: 'e' :: '[' :: [',', ' '].intercalate (items.map text) ++ [']'] := by
  simp only [text, describe, describeItems_eq_map, String.toList_append, String.toList_intercalate,
    List.map_map, Function.comp_def]
  rfl

theorem text_record (fields : List (String × Validator)) : (record fields).text =
    'R' :: 'e' :: 'c' :: 'o' :: 'r' :: 'd' :: '\x7b' ::
      [',', ' '].intercalate (fields.map fieldText) ++ ['\x7d'] := by
  simp only [text, describe, describeFields_eq_map, String.toList_append,
    String.toList_intercalate, List.map_map, Function.comp_def, List.append_assoc]
  rfl

theorem text_list (element : Validator) : (list element).text =
    'L' :: 'i' :: 's' :: 't' :: '[' :: element.text ++ [']'] := by
  simp only [text, describe, String.toList_append]
  rfl

theorem text_union (left right : Validator) :
    (union left right).text = left.text ++ ' ' :: '|' :: ' ' :: right.text := by
  simp only [text, describe, String.toList_append, List.append_assoc]
  rfl

/-! ## Taking renderings apart -/

/-- What does not go on with another alternative. -/
def Closed (rest : List Char) : Prop := rest.head? ≠ some ' '

section Separated

variable {α : Type} {render : α → List Char} {close : Char}

theorem closed_flatMap_append (hclose : close ≠ ' ') (xs : List α) (rest : List Char) :
    Closed ((xs.map render).flatMap (fun other => [',', ' '] ++ other) ++ close :: rest) := by
  cases xs with
  | nil => simpa [Closed] using hclose
  | cons x xs => simp [Closed]

/-- What follows the first part of a bracket can be told apart, if each part can be told apart from
what follows it. -/
theorem flatMap_cancel {xs ys : List α} (hspace : close ≠ ' ') (hcomma : close ≠ ',')
    (cancel : ∀ x ∈ xs, ∀ y ∈ ys, ∀ p q, Closed p → Closed q →
      render x ++ p = render y ++ q → x = y ∧ p = q) {p q : List Char}
    (h : (xs.map render).flatMap (fun other => [',', ' '] ++ other) ++ close :: p =
      (ys.map render).flatMap (fun other => [',', ' '] ++ other) ++ close :: q) :
    xs = ys ∧ p = q := by
  induction xs generalizing ys with
  | nil =>
    cases ys with
    | nil => exact ⟨rfl, (List.cons.inj h).2⟩
    | cons y ys => exact absurd (List.cons.inj h).1 hcomma
  | cons x xs ih =>
    cases ys with
    | nil => exact absurd (List.cons.inj h).1.symm hcomma
    | cons y ys =>
      simp only [List.map_cons, List.flatMap_cons, List.append_assoc, List.append_cancel_left_eq] at h
      obtain ⟨rfl, hrest⟩ := cancel x List.mem_cons_self y List.mem_cons_self _ _
        (closed_flatMap_append hspace xs p) (closed_flatMap_append hspace ys q) h
      obtain ⟨rfl, hpq⟩ := ih (fun x hx y hy => cancel x (List.mem_cons_of_mem _ hx) y
        (List.mem_cons_of_mem _ hy)) hrest
      exact ⟨rfl, hpq⟩

/-- The parts of a bracket can be told apart, if none starts with the closing character. -/
theorem intercalate_cancel {xs ys : List α} (hspace : close ≠ ' ') (hcomma : close ≠ ',')
    (hstart : ∀ x, x ∈ xs ∨ x ∈ ys → ∃ c rest, render x = c :: rest ∧ c ≠ close)
    (cancel : ∀ x ∈ xs, ∀ y ∈ ys, ∀ p q, Closed p → Closed q →
      render x ++ p = render y ++ q → x = y ∧ p = q) {p q : List Char}
    (h : [',', ' '].intercalate (xs.map render) ++ close :: p =
      [',', ' '].intercalate (ys.map render) ++ close :: q) :
    xs = ys ∧ p = q := by
  cases xs with
  | nil =>
    cases ys with
    | nil => exact ⟨rfl, (List.cons.inj h).2⟩
    | cons y ys =>
      obtain ⟨c, rest, hy, hc⟩ := hstart y (.inr List.mem_cons_self)
      rw [List.map_cons, intercalate_cons, hy] at h
      exact absurd (List.cons.inj h).1.symm hc
  | cons x xs =>
    cases ys with
    | nil =>
      obtain ⟨c, rest, hx, hc⟩ := hstart x (.inl List.mem_cons_self)
      rw [List.map_cons, intercalate_cons, hx] at h
      exact absurd (List.cons.inj h).1 hc
    | cons y ys =>
      rw [List.map_cons, List.map_cons, intercalate_cons, intercalate_cons,
        List.append_assoc, List.append_assoc] at h
      obtain ⟨rfl, hrest⟩ := cancel x List.mem_cons_self y List.mem_cons_self _ _
        (closed_flatMap_append hspace xs p) (closed_flatMap_append hspace ys q) h
      obtain ⟨rfl, hpq⟩ := flatMap_cancel hspace hcomma (fun x hx y hy =>
        cancel x (List.mem_cons_of_mem _ hx) y (List.mem_cons_of_mem _ hy)) hrest
      exact ⟨rfl, hpq⟩

/-- Two texts that end at their first colon can be told apart. -/
theorem colon_cancel {key key' p q : List Char} (hkey : ':' ∉ key) (hkey' : ':' ∉ key')
    (h : key ++ ':' :: p = key' ++ ':' :: q) : key = key' ∧ p = q := by
  induction key generalizing key' with
  | nil =>
    cases key' with
    | nil => exact ⟨rfl, (List.cons.inj h).2⟩
    | cons c key' => exact absurd ((List.cons.inj h).1 ▸ List.mem_cons_self) hkey'
  | cons c key ih =>
    cases key' with
    | nil => exact absurd ((List.cons.inj h).1 ▸ List.mem_cons_self) hkey
    | cons c' key' =>
      obtain ⟨rfl, htail⟩ := List.cons.inj h
      obtain ⟨rfl, hpq⟩ := ih (fun hin => hkey (List.mem_cons_of_mem _ hin))
        (fun hin => hkey' (List.mem_cons_of_mem _ hin)) htail
      exact ⟨rfl, hpq⟩

end Separated

/-- No primitive's name starts another's. -/
theorem name_cancel {p p' : Primitive} {rest rest' : List Char}
    (h : p.name.toList ++ rest = p'.name.toList ++ rest') : p = p' ∧ rest = rest' := by
  cases p <;> cases p' <;> simp [Primitive.name] at h <;> exact ⟨rfl, h⟩

/-- The renderings of primitives and of composites start with different letters. -/
theorem name_append_ne {text : List Char} (h : ∀ c ∈ text.head?, c ∈ ['T', 'R', 'L'])
    (p : Primitive) (rest : List Char) : p.name.toList ++ rest ≠ text := by
  rintro rfl
  cases p <;> simp [Primitive.name] at h

/-- What a rendering with one alternative starts with. -/
def Single.Starts (text : List Char) : Prop :=
  ∃ c rest, text = c :: rest ∧ c ≠ ']' ∧ c ≠ '\x7d'

theorem Single.starts {v : Validator} (h : Single v) : Single.Starts v.text := by
  cases h with
  | primitive p => cases p <;> exact ⟨_, _, rfl, by decide, by decide⟩
  | tuple => exact ⟨_, _, text_tuple _, by decide, by decide⟩
  | record => exact ⟨_, _, text_record _, by decide, by decide⟩
  | list => exact ⟨_, _, text_list _, by decide, by decide⟩

theorem Grouped.starts {v : Validator} (h : Grouped v) : Single.Starts v.text := by
  obtain one | ⟨one, others⟩ := h
  · exact one.starts
  · obtain ⟨c, rest, htext, hc⟩ := one.starts
    exact ⟨c, _, by rw [text_union, htext, List.cons_append], hc⟩

theorem fieldText_starts {f : String × Validator} (h : ∀ c ∈ f.1.toList, c ∉ punctuation) :
    ∃ c rest, fieldText f = c :: rest ∧ c ≠ '\x7d' := by
  rw [fieldText]
  cases hkey : f.1.toList with
  | nil => exact ⟨':', _, rfl, by decide⟩
  | cons c rest =>
    refine ⟨c, _, rfl, fun hc => h c (hkey ▸ List.mem_cons_self) ?_⟩
    simp [hc, punctuation]

/-- Fields can be told apart from what follows if their validators can. -/
theorem fieldText_cancel {f g : String × Validator} (hf : ∀ c ∈ f.1.toList, c ∉ punctuation)
    (hg : ∀ c ∈ g.1.toList, c ∉ punctuation) {p q : List Char}
    (cancel : f.2.text ++ p = g.2.text ++ q → f.2 = g.2 ∧ p = q)
    (h : fieldText f ++ p = fieldText g ++ q) : f = g ∧ p = q := by
  have hcolon {key : String} (hkey : ∀ c ∈ key.toList, c ∉ punctuation) : ':' ∉ key.toList :=
    fun hin => hkey ':' hin (by decide)
  simp only [fieldText, List.append_assoc, List.cons_append] at h
  obtain ⟨hkey, hrest⟩ := colon_cancel (hcolon hf) (hcolon hg) h
  obtain ⟨hvalue, hpq⟩ := cancel (List.cons.inj hrest).2
  exact ⟨Prod.ext (String.toList_inj.1 hkey) hvalue, hpq⟩

/-- A rendering that ends by itself: no rendering with one alternative goes on where it ends. -/
def EndsItself (u : Validator) : Prop :=
  ∀ v p q, Single v → u.text ++ p = v.text ++ q → u = v ∧ p = q

/-- A rendering that ends where no other alternative follows. -/
def EndsWithoutBar (u : Validator) : Prop :=
  ∀ v p q, Grouped v → Closed p → Closed q → u.text ++ p = v.text ++ q → u = v ∧ p = q

theorem endsItself_primitive (kind : Primitive) : EndsItself (.primitive kind) := by
  intro v p q hv h
  cases hv with
  | primitive kind' =>
    obtain ⟨rfl, hpq⟩ := name_cancel h
    exact ⟨rfl, hpq⟩
  | tuple => exact absurd h (name_append_ne (by simp [text_tuple]) kind p)
  | record => exact absurd h (name_append_ne (by simp [text_record]) kind p)
  | list => exact absurd h (name_append_ne (by simp [text_list]) kind p)

theorem endsItself_tuple {items : List Validator} (hitems : ∀ t ∈ items, Grouped t)
    (ends : ∀ t ∈ items, EndsWithoutBar t) : EndsItself (.tuple items) := by
  intro v p q hv h
  cases hv with
  | @tuple items' hitems' =>
    simp only [text_tuple, List.append_assoc, List.cons_append, List.cons.injEq, true_and,
      List.nil_append] at h
    have hstart (t : Validator) (ht : t ∈ items ∨ t ∈ items') : Single.Starts t.text :=
      ht.elim (fun ht => (hitems t ht).starts) fun ht => (hitems' t ht).starts
    obtain ⟨rfl, hpq⟩ := intercalate_cancel (by decide) (by decide)
      (fun t ht => (hstart t ht).imp fun c ⟨rest, htext, hc⟩ => ⟨rest, htext, hc.1⟩)
      (fun t ht u hu p q => ends t ht u p q (hitems' u hu)) h
    exact ⟨rfl, hpq⟩
  | primitive kind => exact absurd h.symm (name_append_ne (by simp [text_tuple]) kind q)
  | record | list => simp [text_tuple, text_record, text_list] at h

theorem endsItself_record {fields : List (String × Validator)}
    (hkeys : ∀ f ∈ fields, ∀ c ∈ f.1.toList, c ∉ punctuation)
    (ends : ∀ f ∈ fields, EndsWithoutBar f.2) : EndsItself (.record fields) := by
  intro v p q hv h
  cases hv with
  | @record fields' hkeys' hfields' =>
    simp only [text_record, List.append_assoc, List.cons_append, List.cons.injEq, true_and,
      List.nil_append] at h
    obtain ⟨rfl, hpq⟩ := intercalate_cancel (by decide) (by decide)
      (fun f hf => fieldText_starts (hf.elim (hkeys f) (hkeys' f)))
      (fun f hf g hg p q hp hq => fieldText_cancel (hkeys f hf) (hkeys' g hg)
        (ends f hf g.2 p q (hfields' g hg) hp hq)) h
    exact ⟨rfl, hpq⟩
  | primitive kind => exact absurd h.symm (name_append_ne (by simp [text_record]) kind q)
  | tuple | list => simp [text_tuple, text_record, text_list] at h

theorem endsItself_list {element : Validator} (ends : EndsWithoutBar element) :
    EndsItself (.list element) := by
  intro v p q hv h
  cases hv with
  | @list element' helement' =>
    simp only [text_list, List.append_assoc, List.cons_append, List.cons.injEq, true_and,
      List.nil_append] at h
    obtain ⟨rfl, hrest⟩ := ends element' _ _ helement' (by simp [Closed]) (by simp [Closed]) h
    exact ⟨rfl, (List.cons.inj hrest).2⟩
  | primitive kind => exact absurd h.symm (name_append_ne (by simp [text_list]) kind q)
  | tuple | record => simp [text_tuple, text_record, text_list] at h

theorem EndsItself.endsWithoutBar {u : Validator} (ends : EndsItself u) : EndsWithoutBar u := by
  intro v p q hv hp hq h
  cases hv with
  | single one => exact ends v p q one h
  | union one others =>
    rw [text_union, List.append_assoc] at h
    obtain ⟨-, rfl⟩ := ends _ _ _ one h
    exact absurd rfl hp

theorem endsWithoutBar_union {left right : Validator} (ends : EndsItself left)
    (ends' : EndsWithoutBar right) : EndsWithoutBar (.union left right) := by
  intro v p q hv hp hq h
  rw [text_union, List.append_assoc] at h
  cases hv with
  | single one =>
    obtain ⟨-, rfl⟩ := ends _ _ _ one h
    exact absurd rfl hq
  | @union left' right' one others =>
    rw [text_union, List.append_assoc] at h
    obtain ⟨rfl, hrest⟩ := ends _ _ _ one h
    simp only [List.cons_append, List.cons.injEq, true_and] at hrest
    obtain ⟨rfl, hpq⟩ := ends' _ _ _ others hp hq hrest
    exact ⟨rfl, hpq⟩

/-- Renderings of grouped validators end where no other alternative follows. -/
theorem Grouped.endsWithoutBar {u : Validator} (h : Grouped u) : EndsWithoutBar u :=
  Grouped.rec (motive_1 := fun u _ => EndsItself u) (motive_2 := fun u _ => EndsWithoutBar u)
    endsItself_primitive endsItself_tuple (fun hkeys _ => endsItself_record hkeys)
    (fun _ => endsItself_list) (fun _ => EndsItself.endsWithoutBar)
    (fun _ _ => endsWithoutBar_union) h

/-- Grouped validators that render alike are the same. -/
theorem Grouped.eq_of_describe_eq {u v : Validator} (hu : Grouped u) (hv : Grouped v)
    (h : u.describe = v.describe) : u = v := by
  have htext : u.text ++ [] = v.text ++ [] := by rw [text, text, h]
  exact (hu.endsWithoutBar v [] [] hv (by simp [Closed]) (by simp [Closed]) htext).1

/-- Plain validators render alike exactly if they differ at most in how unions are grouped. -/
theorem describe_eq_iff_regroup_eq {u v : Validator} (hu : Plain u) (hv : Plain v) :
    u.describe = v.describe ↔ u.regroup = v.regroup := by
  constructor
  · intro h
    refine hu.grouped_regroup.eq_of_describe_eq hv.grouped_regroup ?_
    rw [describe_regroup, describe_regroup, h]
  · intro h
    rw [← describe_regroup u, h, describe_regroup]

end Validator

/-- **Types of one structure accept the same values.** For types that are built of the primitives
by the combinators, with fields whose keys contain no punctuation: they have one structure exactly
if they are one instance or differ at most in how their unions are grouped, and in both cases they
accept the same values. -/
theorem same_structure_same_meaning {r : Registry} {s t : Ty} (hs : r.Made s) (ht : r.Made t)
    (hs' : s.validator.Plain) (ht' : t.validator.Plain) :
    (s.sameStructure t = true ↔ s.validator.regroup = t.validator.regroup) ∧
      (s.sameStructure t = true → ∀ v, s.check v = t.check v) := by
  have hiff : s.sameStructure t = true ↔ s.validator.regroup = t.validator.regroup := by
    rw [← Validator.describe_eq_iff_regroup_eq hs' ht', Ty.sameStructure, Bool.or_eq_true,
      Ty.sameInstance, beq_iff_eq, beq_iff_eq]
    refine ⟨fun h => h.elim (fun hid => ?_) id, .inr⟩
    rw [r.toldApart_made s t hs ht hid]
  refine ⟨hiff, fun h v => ?_⟩
  rw [Ty.check, Ty.check, ← Validator.check_regroup, hiff.1 h, Validator.check_regroup]

/-- Two tuples that group the three alternatives of their only position differently. -/
theorem three_alternatives_same_meaning :
    let int : Validator := .primitive .int
    let str : Validator := .primitive .str
    let point : Validator := .record [("x y", .list int), ("", .primitive .bool)]
    let u : Validator := .tuple [.union (.union int str) point]
    let v : Validator := .tuple [.union int (.union str point)]
    let r : Registry := ((({} : Registry).newType u).2.newType v).2
    r.Made ⟨0, u⟩ ∧ r.Made ⟨1, v⟩ ∧ u.Plain ∧ v.Plain ∧ u ≠ v ∧
      u.describe = "Tuple[Int | Str | Record\x7bx y: List[Int], : Bool\x7d]" ∧
      Ty.sameStructure ⟨0, u⟩ ⟨1, v⟩ = true ∧ ∀ w, u.check w = v.check w := by
  intro int str point u v r
  have hu : r.Made ⟨0, u⟩ := rfl
  have hv : r.Made ⟨1, v⟩ := rfl
  have hpoint : point.Plain := by
    refine .record (by simp [Validator.punctuation]) fun f hf => ?_
    simp only [List.mem_cons, List.not_mem_nil, or_false] at hf
    rcases hf with rfl | rfl
    · exact .list (.primitive .int)
    · exact .primitive .bool
  have hplain : u.Plain :=
    .tuple fun t ht => List.mem_singleton.1 ht ▸ .union (.union (.primitive _) (.primitive _)) hpoint
  have hplain' : v.Plain :=
    .tuple fun t ht => List.mem_singleton.1 ht ▸ .union (.primitive _) (.union (.primitive _) hpoint)
  have hsame : Ty.sameStructure ⟨0, u⟩ ⟨1, v⟩ = true := by decide +kernel
  refine ⟨hu, hv, hplain, hplain', by simp [u, v, int], by decide +kernel, hsame, ?_⟩
  exact (same_structure_same_meaning hu hv hplain hplain').2 hsame

end NamedTypes
