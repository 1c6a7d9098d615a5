import NamedTypes.Proofs.Declarations

/-! # Reading literals
The rules by which a namespace reads a literal, with the log of the accesses that its names lead to
(`Registry.Reads`). Names are accessed in the order in which they stand, and nothing after the first
failure is. -/

namespace NamedTypes

/-- One thing after another, until one of them fails. -/
inductive InTurn {α β σ τ : Type}
    (step : α → σ → List τ → Except AliasError β → σ → Prop) :
    List α → σ → List τ → Except AliasError (List β) → σ → Prop
  | nil {s : σ} : InTurn step [] s [] (.ok []) s
  | cons {a : α} {as : List α} {b : β} {bs : List β} {s s₁ s₂ : σ} {log log' : List τ}
    (first : step a s log (.ok b) s₁) (rest : InTurn step as s₁ log' (.ok bs) s₂) :
    InTurn step (a :: as) s (log ++ log') (.ok (b :: bs)) s₂
  | failedFirst {a : α} {as : List α} {error : AliasError} {s s₁ : σ} {log : List τ}
    (first : step a s log (.error error) s₁) : InTurn step (a :: as) s log (.error error) s₁
  | failedRest {a : α} {as : List α} {b : β} {error : AliasError} {s s₁ s₂ : σ} {log log' : List τ}
    (first : step a s log (.ok b) s₁) (rest : InTurn step as s₁ log' (.error error) s₂) :
    InTurn step (a :: as) s (log ++ log') (.error error) s₂

/-- A relation along logs that every step keeps is kept by steps in turn. -/
theorem InTurn.keeps {α β σ τ : Type} {step : α → σ → List τ → Except AliasError β → σ → Prop}
    {R : σ → List τ → σ → Prop} (refl : ∀ s, R s [] s)
    (trans : ∀ {s₁ s₂ s₃ log log'}, R s₁ log s₂ → R s₂ log' s₃ → R s₁ (log ++ log') s₃)
    {as : List α} {s s' : σ} {log : List τ} {outcome : Except AliasError (List β)}
    (h : InTurn step as s log outcome s')
    (hstep : ∀ a ∈ as, ∀ {s log outcome s'}, step a s log outcome s' → R s log s') :
    R s log s' := by
  induction h with
  | nil => exact refl _
  | cons first _ ih =>
    exact trans (hstep _ List.mem_cons_self first) (ih fun a ha => hstep a (List.mem_cons_of_mem _ ha))
  | failedFirst first => exact hstep _ List.mem_cons_self first
  | failedRest first _ ih =>
    exact trans (hstep _ List.mem_cons_self first) (ih fun a ha => hstep a (List.mem_cons_of_mem _ ha))

namespace Registry

/-- The reading of a literal with the names of a namespace before those of a prelude. -/
inductive Reads (W : World Registry Visit) (space : Nat) (prelude : Prelude) :
    Json.Value → Registry → List Visit → Except AliasError TypeExpr → Registry → Prop
  /-- A name that the namespace declares stands for the type that it comes to. -/
  | declared {name : String} {entry : Alias} {t : Ty} {r r' : Registry} {log : List Visit}
    (entry : r.alias? (r.accessor space name) = some entry)
    (accesses : W.accesses (r.accessor space name) .type [] r log (.ok (.type t)) r') :
    Reads W space prelude (.string name) r log (.ok (.leaf t)) r'
  /-- A name that the namespace declares comes to no type. -/
  | failed {name : String} {entry : Alias} {error : AliasError} {r r' : Registry} {log : List Visit}
    (entry : r.alias? (r.accessor space name) = some entry)
    (accesses : W.accesses (r.accessor space name) .type [] r log (.error error) r') :
    Reads W space prelude (.string name) r log (.error error) r'
  /-- Another name stands for what it is in the prelude. -/
  | supplied {name : String} {t : Ty} {r : Registry}
    (noEntry : r.alias? (r.accessor space name) = none)
    (supplied : prelude.get? name = some t) :
    Reads W space prelude (.string name) r [] (.ok (.leaf t)) r
  /-- A name is known to neither. -/
  | unknown {name : String} {r : Registry} (noEntry : r.alias? (r.accessor space name) = none)
    (notSupplied : prelude.get? name = none) :
    Reads W space prelude (.string name) r [] (.error (.unsupportedValidator name)) r
  | array {items : List Json.Value} {r r' : Registry} {log : List Visit}
    {outcome : Except AliasError (List TypeExpr)}
    (items_read : InTurn (Reads W space prelude) items r log outcome r') :
    Reads W space prelude (.array items) r log (Expr.sequence <$> outcome) r'
  | object {members : List (String × Json.Value)} {r r' : Registry} {log : List Visit}
    {outcome : Except AliasError (List TypeExpr)}
    (members_read : InTurn (Reads W space prelude) (members.map Prod.snd) r log outcome r') :
    Reads W space prelude (.object members) r log
      ((fun es => Expr.record ((members.map Prod.fst).zip es)) <$> outcome) r'
  | null {r : Registry} : Reads W space prelude .null r [] (.ok (.data .null)) r
  | bool {value : Bool} {r : Registry} :
    Reads W space prelude (.bool value) r [] (.ok (.data (.bool value))) r
  | number {value : Json.Number} {r : Registry} :
    Reads W space prelude (.number value) r [] (.ok (.data (.number value))) r

/-- Reading a literal keeps what accesses keep. -/
theorem Reads.keeps {W : World Registry Visit} {R : Registry → List Visit → Registry → Prop}
    (hR : W.Keeps R) {space : Nat} {prelude : Prelude} {v : Json.Value} :
    ∀ {r r' : Registry} {log : List Visit} {outcome : Except AliasError TypeExpr},
      Reads W space prelude v r log outcome r' → R r log r' := by
  induction v using Json.Value.memberInduction with
  | null => rintro r _ _ _ ⟨⟩; exact hR.refl r
  | bool value => rintro r _ _ _ ⟨⟩; exact hR.refl r
  | number value => rintro r _ _ _ ⟨⟩; exact hR.refl r
  | string name =>
    intro r r' log outcome h
    cases h with
    | declared _ accesses => exact hR.accesses accesses
    | failed _ accesses => exact hR.accesses accesses
    | supplied => exact hR.refl r
    | unknown => exact hR.refl r
  | array items ih =>
    intro r r' log outcome h
    cases h with
    | array hitems => exact hitems.keeps hR.refl hR.trans fun v hv => ih v hv
  | object members ih =>
    intro r r' log outcome h
    cases h with
    | object hmembers =>
      refine hmembers.keeps hR.refl hR.trans fun v hv => ?_
      obtain ⟨m, hm, rfl⟩ := List.mem_map.1 hv
      exact ih m hm

/-! ## Literals are read by the rules -/

/-- Looking a name up gives what an access gives, where the namespace declares the name. -/
theorem of_declared? {fuel space : Nat} {name : String} {r r' : Registry}
    {outcome : Except AliasError (Option Ty)}
    (h : declared? fuel space name r = some (outcome, r')) :
    (r.alias? (r.accessor space name) = none ∧ outcome = .ok none ∧ r' = r) ∨
      ∃ entry answer, r.alias? (r.accessor space name) = some entry ∧
        access fuel (r.accessor space name) .type [] r = some (Normalized.type <$> answer, r') ∧
        outcome = some <$> answer := by
  rw [declared?, Action.get_bind_apply, accessor?_eq_map] at h
  cases hentry : r.alias? (r.accessor space name) with
  | none =>
    simp only [hentry] at h
    obtain ⟨rfl, rfl⟩ := Prod.mk.inj (Option.some.inj h)
    exact .inl ⟨rfl, rfl, rfl⟩
  | some entry =>
    simp only [hentry] at h
    have accessed {answer : Except AliasError Ty} {r₁ : Registry}
        (hget : Accessor.get fuel (r.accessor space name) r = some (answer, r₁)) :
        access fuel (r.accessor space name) .type [] r = some (Normalized.type <$> answer, r₁) := by
      refine Accessor.access_of_call ?_
      rw [Action.map_apply, ← Accessor.get, hget]
      rfl
    obtain ⟨t, r₁, hget, h⟩ | ⟨error, hget, rfl⟩ := Action.bind_cases h
    · obtain ⟨rfl, rfl⟩ := Prod.mk.inj (Option.some.inj h)
      exact .inr ⟨entry, .ok t, rfl, accessed hget, rfl⟩
    · exact .inr ⟨entry, .error error, rfl, accessed hget, rfl⟩

theorem reads_of_read_string {fuel space : Nat} {prelude : Prelude} {name : String}
    {r r' : Registry} {outcome : Except AliasError TypeExpr}
    (h : Literal.read (m := Action) (declared? fuel space) prelude (.string name) r =
      some (outcome, r')) :
    ∃ log, Reads (world fuel) space prelude (.string name) r log outcome r' := by
  rw [Literal.read] at h
  obtain ⟨known, r₁, hknown, h⟩ | ⟨error, hknown, rfl⟩ := Action.bind_cases h
  · -- only a name that the namespace does not declare is looked up in the prelude
    obtain ⟨hentry, hnone, rfl⟩ | ⟨entry, answer, hentry, haccess, hsome⟩ := of_declared? hknown
    · cases hnone
      cases ht : prelude.get? name with
      | some t =>
        simp only [ht] at h
        obtain ⟨rfl, rfl⟩ := Prod.mk.inj (Option.some.inj h)
        exact ⟨[], .supplied hentry ht⟩
      | none =>
        simp only [ht] at h
        obtain ⟨rfl, rfl⟩ := Prod.mk.inj (Option.some.inj h)
        exact ⟨[], .unknown hentry ht⟩
    · cases answer with
      | error error => cases hsome
      | ok t =>
        obtain rfl := Except.ok.inj hsome
        obtain ⟨rfl, rfl⟩ := Prod.mk.inj (Option.some.inj h)
        obtain ⟨log, hlog⟩ := exists_accesses haccess
        exact ⟨log, .declared hentry hlog⟩
  · obtain ⟨-, hnone, -⟩ | ⟨entry, answer, hentry, haccess, hsome⟩ := of_declared? hknown
    · cases hnone
    · cases answer with
      | ok t => cases hsome
      | error error' =>
        obtain rfl := Except.error.inj hsome
        obtain ⟨log, hlog⟩ := exists_accesses haccess
        exact ⟨log, .failed hentry hlog⟩

mutual

theorem reads_of_read {fuel space : Nat} {prelude : Prelude} : ∀ (v : Json.Value) {r r' : Registry}
    {outcome : Except AliasError TypeExpr},
    Literal.read (m := Action) (declared? fuel space) prelude v r = some (outcome, r') →
      ∃ log, Reads (world fuel) space prelude v r log outcome r'
  | .null, _, _, _, h => by
    obtain ⟨rfl, rfl⟩ := Prod.mk.inj (Option.some.inj h)
    exact ⟨[], .null⟩
  | .bool value, _, _, _, h => by
    obtain ⟨rfl, rfl⟩ := Prod.mk.inj (Option.some.inj h)
    exact ⟨[], .bool⟩
  | .number value, _, _, _, h => by
    obtain ⟨rfl, rfl⟩ := Prod.mk.inj (Option.some.inj h)
    exact ⟨[], .number⟩
  | .string _, _, _, _, h => reads_of_read_string h
  | .array items, r, r', outcome, h => by
    rw [Literal.read] at h
    obtain ⟨es, r₁, hitems, h⟩ | ⟨error, hitems, rfl⟩ := Action.bind_cases h
    · obtain ⟨rfl, rfl⟩ := Prod.mk.inj (Option.some.inj h)
      obtain ⟨log, hlog⟩ := reads_of_readItems items hitems
      exact ⟨log, .array hlog⟩
    · obtain ⟨log, hlog⟩ := reads_of_readItems items hitems
      exact ⟨log, .array hlog⟩
  | .object members, r, r', outcome, h => by
    rw [Literal.read] at h
    obtain ⟨fields, r₁, hmembers, h⟩ | ⟨error, hmembers, rfl⟩ := Action.bind_cases h
    · obtain ⟨rfl, rfl⟩ := Prod.mk.inj (Option.some.inj h)
      obtain ⟨log, es, hlog, hfields⟩ := reads_of_readMembers members hmembers
      have hobject := Reads.object hlog
      cases es with
      | error error => cases hfields
      | ok es => exact ⟨log, (Except.ok.inj hfields) ▸ hobject⟩
    · obtain ⟨log, es, hlog, hfields⟩ := reads_of_readMembers members hmembers
      have hobject := Reads.object hlog
      cases es with
      | error error' => exact ⟨log, (Except.error.inj hfields) ▸ hobject⟩
      | ok es => cases hfields

theorem reads_of_readItems {fuel space : Nat} {prelude : Prelude} : ∀ (vs : List Json.Value)
    {r r' : Registry} {outcome : Except AliasError (List TypeExpr)},
    Literal.readItems (m := Action) (declared? fuel space) prelude vs r = some (outcome, r') →
      ∃ log, InTurn (Reads (world fuel) space prelude) vs r log outcome r'
  | [], r, r', outcome, h => by
    obtain ⟨rfl, rfl⟩ := Prod.mk.inj (Option.some.inj h)
    exact ⟨[], .nil⟩
  | v :: vs, r, r', outcome, h => by
    rw [Literal.readItems] at h
    obtain ⟨e, r₁, hfirst, h⟩ | ⟨error, hfirst, rfl⟩ := Action.bind_cases h
    · obtain ⟨log, hlog⟩ := reads_of_read v hfirst
      obtain ⟨es, r₂, hrest, h⟩ | ⟨error, hrest, rfl⟩ := Action.bind_cases h
      · obtain ⟨rfl, rfl⟩ := Prod.mk.inj (Option.some.inj h)
        obtain ⟨log', hlog'⟩ := reads_of_readItems vs hrest
        exact ⟨log ++ log', .cons hlog hlog'⟩
      · obtain ⟨log', hlog'⟩ := reads_of_readItems vs hrest
        exact ⟨log ++ log', .failedRest hlog hlog'⟩
    · obtain ⟨log, hlog⟩ := reads_of_read v hfirst
      exact ⟨log, .failedFirst hlog⟩

theorem reads_of_readMembers {fuel space : Nat} {prelude : Prelude} :
    ∀ (members : List (String × Json.Value)) {r r' : Registry}
      {outcome : Except AliasError (List (String × TypeExpr))},
      Literal.readMembers (m := Action) (declared? fuel space) prelude members r =
        some (outcome, r') →
      ∃ log es, InTurn (Reads (world fuel) space prelude) (members.map Prod.snd) r log es r' ∧
        outcome = (fun es => (members.map Prod.fst).zip es) <$> es
  | [], r, r', outcome, h => by
    obtain ⟨rfl, rfl⟩ := Prod.mk.inj (Option.some.inj h)
    exact ⟨[], .ok [], .nil, rfl⟩
  | (key, v) :: members, r, r', outcome, h => by
    rw [Literal.readMembers] at h
    obtain ⟨e, r₁, hfirst, h⟩ | ⟨error, hfirst, rfl⟩ := Action.bind_cases h
    · obtain ⟨log, hlog⟩ := reads_of_read v hfirst
      obtain ⟨fields, r₂, hrest, h⟩ | ⟨error, hrest, rfl⟩ := Action.bind_cases h
      · obtain ⟨rfl, rfl⟩ := Prod.mk.inj (Option.some.inj h)
        obtain ⟨log', es, hlog', hfields⟩ := reads_of_readMembers members hrest
        cases es with
        | error error => cases hfields
        | ok es =>
          obtain rfl := Except.ok.inj hfields
          exact ⟨log ++ log', .ok (e :: es), .cons hlog hlog', rfl⟩
      · obtain ⟨log', es, hlog', hfields⟩ := reads_of_readMembers members hrest
        cases es with
        | error error' => exact ⟨log ++ log', _, .failedRest hlog hlog', hfields⟩
        | ok es => cases hfields
    · obtain ⟨log, hlog⟩ := reads_of_read v hfirst
      exact ⟨log, .error error, .failedFirst hlog, rfl⟩

end

end Registry

end NamedTypes
