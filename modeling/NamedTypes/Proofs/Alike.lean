import NamedTypes.Expr.Normalize
import NamedTypes.Invocation
import NamedTypes.Proofs.Entries

/-! # Structural likeness
Types are **alike** if they render alike and accept the same values, whatever instances they are
(`Ty.Alike`). Expressions are alike if they have one shape and their parts are alike. What alike
expressions are compiled into is alike again, and if one has a fault, the other has the same
(`Expr.Alike.validator`, `Expr.Alike.compile`). -/

namespace NamedTypes

/-! ## Outcomes and entries -/

/-- Two outcomes are likewise if they are related results or the same error. -/
inductive Likewise {α β : Type} (R : α → β → Prop) :
    Except AliasError α → Except AliasError β → Prop
  | ok {a : α} {b : β} (related : R a b) : Likewise R (.ok a) (.ok b)
  | error {error : AliasError} : Likewise R (.error error) (.error error)

namespace Likewise

variable {α β γ δ : Type} {R : α → β → Prop} {S : γ → δ → Prop}
  {x : Except AliasError α} {y : Except AliasError β}

theorem map {f : α → γ} {g : β → δ} (h : Likewise R x y) (hfg : ∀ a b, R a b → S (f a) (g b)) :
    Likewise S (f <$> x) (g <$> y) := by
  cases h with
  | ok related => exact .ok (hfg _ _ related)
  | error => exact .error

theorem of_map {f : α → γ} {g : β → δ} (h : Likewise S (f <$> x) (g <$> y))
    (hfg : ∀ a b, S (f a) (g b) → R a b) : Likewise R x y := by
  cases x with
  | error error =>
    cases y with
    | error error' =>
      have h : Likewise S (.error error) (.error error') := h
      cases h
      exact .error
    | ok b => nomatch (h : Likewise S (.error error) (.ok (g b)))
  | ok a =>
    cases y with
    | error error => nomatch (h : Likewise S (.ok (f a)) (.error error))
    | ok b =>
      obtain ⟨related⟩ := (h : Likewise S (.ok (f a)) (.ok (g b)))
      exact .ok (hfg a b related)

theorem bind {f : α → Except AliasError γ} {g : β → Except AliasError δ} (h : Likewise R x y)
    (hfg : ∀ a b, R a b → Likewise S (f a) (g b)) : Likewise S (x >>= f) (y >>= g) := by
  cases h with
  | ok related => exact hfg _ _ related
  | error => exact .error

end Likewise

namespace Entries

variable {α β γ δ : Type}

/-- Entries with the same keys in the same order, whose values are related. -/
inductive Paired (R : α → β → Prop) : List (String × α) → List (String × β) → Prop
  | nil : Paired R [] []
  | cons {key : String} {a : α} {b : β} {es : List (String × α)} {fs : List (String × β)}
    (related : R a b) (rest : Paired R es fs) : Paired R ((key, a) :: es) ((key, b) :: fs)

namespace Paired

variable {R : α → β → Prop} {S : γ → δ → Prop} {es : List (String × α)} {fs : List (String × β)}

theorem length_eq (h : Paired R es fs) : es.length = fs.length := by
  induction h with
  | nil => rfl
  | cons _ _ ih => exact congrArg (· + 1) ih

theorem map {f : α → γ} {g : β → δ} (h : Paired R es fs)
    (hfg : ∀ e ∈ es, ∀ b, R e.2 b → S (f e.2) (g b)) :
    Paired S (es.map fun e => (e.1, f e.2)) (fs.map fun e => (e.1, g e.2)) := by
  induction h with
  | nil => exact .nil
  | cons related _ ih =>
    exact .cons (hfg _ List.mem_cons_self _ related) (ih fun e he => hfg e (List.mem_cons_of_mem _ he))

theorem place {key : String} {a : α} {b : β} (hab : R a b) (h : Paired R es fs) :
    Paired R (Entries.place (key, a) es) (Entries.place (key, b) fs) := by
  induction h with
  | nil => exact .cons hab .nil
  | cons related rest ih =>
    rw [Entries.place, Entries.place]
    split
    · exact .cons related ih
    · exact .cons hab (.cons related rest)

/-- Sorting looks at keys only. -/
theorem sort (h : Paired R es fs) : Paired R (Entries.sort es) (Entries.sort fs) := by
  induction h with
  | nil => exact .nil
  | cons related _ ih => exact ih.place related

theorem zip {keys : List String} {as : List α} {bs : List β} (h : List.Forall₂ R as bs) :
    Paired R (keys.zip as) (keys.zip bs) := by
  induction h generalizing keys with
  | nil =>
    rw [List.zip_nil_right, List.zip_nil_right]
    exact .nil
  | cons first _ ih =>
    cases keys with
    | nil => exact .nil
    | cons key keys => exact .cons first ih

theorem repeatedKey?_eq (h : Paired R es fs) :
    Entries.repeatedKey? es = Entries.repeatedKey? fs := by
  induction h with
  | nil => rfl
  | cons _ rest ih =>
    cases rest with
    | nil => rfl
    | cons =>
      rw [Entries.repeatedKey?, Entries.repeatedKey?]
      split
      · rfl
      · exact ih

end Paired

end Entries

/-! ## Validators and types -/

namespace Validator

/-- Validators that render alike and accept the same values. -/
structure Alike (v w : Validator) : Prop where
  describe_eq : v.describe = w.describe
  check_eq : ∀ value, v.check value = w.check value

namespace Alike

theorem refl (v : Validator) : v.Alike v := ⟨rfl, fun _ => rfl⟩

theorem symm {v w : Validator} (h : v.Alike w) : w.Alike v :=
  ⟨h.describe_eq.symm, fun value => (h.check_eq value).symm⟩

theorem trans {u v w : Validator} (h : u.Alike v) (h' : v.Alike w) : u.Alike w :=
  ⟨h.describe_eq.trans h'.describe_eq, fun value => (h.check_eq value).trans (h'.check_eq value)⟩

/-- Tuples of alike items are alike. -/
theorem tuple {ts us : List Validator} (h : List.Forall₂ Alike ts us) :
    (Validator.tuple ts).Alike (.tuple us) := by
  have hdescribe : ts.map describe = us.map describe := by
    induction h with
    | nil => rfl
    | cons hhead _ ih => rw [List.map_cons, List.map_cons, hhead.describe_eq, ih]
  have hcheck (vs : List Json.Value) : checkItems ts vs = checkItems us vs := by
    clear hdescribe
    induction h generalizing vs with
    | nil => rfl
    | cons hhead _ ih =>
      cases vs with
      | nil => rfl
      | cons v vs => rw [checkItems, checkItems, hhead.check_eq, ih]
  refine ⟨?_, fun value => ?_⟩
  · rw [describe, describe, describeItems_eq_map, describeItems_eq_map, hdescribe]
  · cases value with
    | array vs => rw [check, check, hcheck]
    | _ => simp only [check]

/-- Records of alike fields are alike. -/
theorem record {ts us : List (String × Validator)} (h : Entries.Paired Alike ts us) :
    (Validator.record ts).Alike (.record us) := by
  have hdescribe : (ts.map fun f => f.1 ++ ": " ++ f.2.describe) =
      us.map fun f => f.1 ++ ": " ++ f.2.describe := by
    induction h with
    | nil => rfl
    | cons related _ ih => rw [List.map_cons, List.map_cons, related.describe_eq, ih]
  have hcheck (members : Entries Json.Value) :
      checkFields ts members = checkFields us members := by
    clear hdescribe
    induction h with
    | nil => rfl
    | @cons key _ _ _ _ related _ ih =>
      rw [checkFields, checkFields, ih]
      cases members.lookup key with
      | none => rfl
      | some v => simp only [related.check_eq]
  refine ⟨?_, fun value => ?_⟩
  · rw [describe, describe, describeFields_eq_map, describeFields_eq_map, hdescribe]
  · cases value with
    | object members => rw [check, check, hcheck, h.length_eq]
    | _ => simp only [check]

end Alike

end Validator

/-- Types that render alike and accept the same values. -/
def Ty.Alike (t u : Ty) : Prop := t.validator.Alike u.validator

/-! ## Expressions -/

namespace Expr

variable {F G : Type}

/-- Expressions of one shape with alike types and related type functions. -/
inductive Alike (R : F → G → Prop) : Expr F → Expr G → Prop
  | leaf {t u : Ty} (alike : t.Alike u) : Alike R (.leaf t) (.leaf u)
  | sequence {es : List (Expr F)} {es' : List (Expr G)} (items : List.Forall₂ (Alike R) es es') :
    Alike R (.sequence es) (.sequence es')
  | record {fields : List (String × Expr F)} {fields' : List (String × Expr G)}
    (paired : Entries.Paired (Alike R) fields fields') : Alike R (.record fields) (.record fields')
  | generator {f : F} {g : G} (related : R f g) : Alike R (.generator f) (.generator g)
  | data {value : Json.Value} : Alike R (.data value) (.data value)

variable {R : F → G → Prop}

/-- Alike types are alike as expressions. -/
theorem alike_leaves {ts us : List Ty} (h : List.Forall₂ Ty.Alike ts us) :
    List.Forall₂ (Alike R) (ts.map .leaf) (us.map .leaf) := by
  rw [List.forall₂_map_left_iff, List.forall₂_map_right_iff]
  exact h.imp fun _ _ => .leaf

/-- Items that compile likewise compile likewise together. -/
theorem likewise_validators {es : List (Expr F)} {es' : List (Expr G)}
    (h : List.Forall₂ (Alike R) es es')
    (ih : ∀ e ∈ es, ∀ e', Alike R e e' → Likewise Validator.Alike e.validator e'.validator) :
    Likewise (List.Forall₂ Validator.Alike) (validators es) (validators es') := by
  induction h with
  | nil => exact .ok .nil
  | cons hhead _ ihtail =>
    rw [validators, validators]
    refine (ih _ List.mem_cons_self _ hhead).bind fun t u htu => ?_
    refine (ihtail fun e he => ih e (List.mem_cons_of_mem _ he)).bind fun ts us hts => ?_
    exact .ok (.cons htu hts)

theorem likewise_collectFields {results results' : Entries (Except AliasError Validator)}
    (h : Entries.Paired (Likewise Validator.Alike) results results') :
    Likewise (Entries.Paired Validator.Alike) (collectFields results) (collectFields results') := by
  induction h with
  | nil => exact .ok .nil
  | cons related _ ih =>
    rw [collectFields, collectFields]
    refine related.bind fun t u htu => ih.bind fun ts us hts => ?_
    exact .ok (.cons htu hts)

/-- Fields that compile likewise make records likewise. -/
theorem likewise_assembleRecord {results results' : Entries (Except AliasError Validator)}
    (h : Entries.Paired (Likewise Validator.Alike) results results') :
    Likewise Validator.Alike (assembleRecord results) (assembleRecord results') := by
  rw [assembleRecord, assembleRecord, h.sort.repeatedKey?_eq]
  split
  · exact .error
  · exact (likewise_collectFields h.sort).map fun _ _ => .record

/-- **Alike expressions describe alike types**, or have the same fault. -/
theorem Alike.validator {e : Expr F} :
    ∀ {e' : Expr G}, Alike R e e' → Likewise Validator.Alike e.validator e'.validator := by
  induction e using memberInduction with
  | leaf type =>
    intro e' h
    cases h with
    | leaf alike => exact .ok alike
  | sequence items ih =>
    intro e' h
    cases h with
    | sequence hitems =>
      rw [Expr.validator, Expr.validator]
      exact (likewise_validators hitems fun e he e' => ih e he).map fun _ _ => .tuple
  | record fields ih =>
    intro e' h
    cases h with
    | record hfields =>
      rw [Expr.validator, Expr.validator, fieldValidators_eq_map, fieldValidators_eq_map]
      exact likewise_assembleRecord (hfields.map fun f hf e' => ih f hf)
  | generator function =>
    intro e' h
    cases h with
    | generator => exact .error
  | data value =>
    intro e' h
    cases h with
    | data => exact .error

/-- Exchanging related functions keeps likeness. -/
theorem Alike.map {F' G' : Type} {S : F' → G' → Prop} {f : F → F'} {g : G → G'}
    (hfg : ∀ a b, R a b → S (f a) (g b)) {e : Expr F} :
    ∀ {e' : Expr G}, Alike R e e' → Alike S (e.map f) (e'.map g) := by
  induction e using memberInduction with
  | leaf type =>
    intro e' h
    cases h with
    | leaf alike => exact .leaf alike
  | sequence items ih =>
    intro e' h
    cases h with
    | sequence hitems =>
      rw [Expr.map, Expr.map, mapItems_eq_map, mapItems_eq_map]
      refine .sequence (List.forall₂_map_left_iff.2 (List.forall₂_map_right_iff.2 ?_))
      refine ((List.forall₂_and_left _ _).2 ⟨fun e he => @ih e he, hitems⟩).imp ?_
      exact fun _ _ h => h.1 h.2
  | record fields ih =>
    intro e' h
    cases h with
    | record hfields =>
      rw [Expr.map, Expr.map, mapFields_eq_map, mapFields_eq_map]
      exact .record (hfields.map fun f hf e' => ih f hf)
  | generator function =>
    intro e' h
    cases h with
    | generator related => exact .generator (hfg _ _ related)
  | data value =>
    intro e' h
    cases h with
    | data => exact .data

end Expr

/-- Results of compiling alike expressions: alike existing types, or alike new ones. -/
inductive Compiled.Alike : Compiled → Compiled → Prop
  | existing {t u : Ty} (alike : t.Alike u) : Alike (.existing t) (.existing u)
  | new {v w : Validator} (alike : v.Alike w) : Alike (.new v) (.new w)

/-- Alike expressions compile likewise. -/
theorem Expr.Alike.compile {F G : Type} {R : F → G → Prop} {e : Expr F} {e' : Expr G}
    (h : e.Alike R e') : Likewise Compiled.Alike e.compile e'.compile := by
  cases h with
  | leaf alike => exact .ok (.existing alike)
  | sequence items => exact (Expr.Alike.sequence items).validator.map fun _ _ => .new
  | record paired => exact (Expr.Alike.record paired).validator.map fun _ _ => .new
  | generator related => exact .error
  | data => exact .error

/-- A call with alike parameters. -/
inductive Invocation.Alike {F G : Type} (R : F → G → Prop) : Invocation F → Invocation G → Prop
  | bare : Alike R .bare .bare
  | applied {es : List (Expr F)} {es' : List (Expr G)}
    (parameters : List.Forall₂ (Expr.Alike R) es es') : Alike R (.applied es) (.applied es')

/-- Alike argument lists describe alike calls, or are refused alike. -/
theorem Invocation.likewise_ofArguments {F G : Type} {R : F → G → Prop} {es : List (Expr F)}
    {es' : List (Expr G)} (h : List.Forall₂ (Expr.Alike R) es es') :
    Likewise (Invocation.Alike R) (ofArguments es) (ofArguments es') := by
  cases h with
  | nil => exact .ok .bare
  | cons hfirst hrest =>
    cases hrest with
    | nil =>
      cases hfirst with
      | sequence items => exact .ok (.applied items)
      | leaf alike => exact .error
      | record paired => exact .error
      | generator related => exact .error
      | data => exact .error
    | cons hsecond hothers =>
      simp only [ofArguments, List.length_cons, hothers.length_eq]
      exact .error

end NamedTypes
