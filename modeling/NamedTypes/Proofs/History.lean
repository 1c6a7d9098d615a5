import NamedTypes.Proofs.Declarations
import NamedTypes.Proofs.Literals

/-! # Histories
What users do with namespaces and accessors, one operation after another (`Operation`,
`Registry.performAll`), and the log of all accesses that this leads to, those of bodies and literals
included (`Registry.History`). Every run has such a log (`Registry.exists_history`). No operation
gives a name another slot (`Registry.Performs.accessor_eq`). -/

namespace NamedTypes

/-- Something that users do. -/
inductive Operation
  | addSpace (name : String) (config : Config)
  | newType (validator : Validator)
  | normalize (e : TypeExpr)
  | declareForward (space : Nat) (name : String)
  | bind (space : Nat) (name : String) (source : TypeExpr)
  | bindLiteral (space : Nat) (name : String) (literal : Json.Value) (prelude : Prelude)
  | readLiteral (space : Nat) (literal : Json.Value) (prelude : Prelude)
  | lookup (space : Nat) (name : String)
  | use (kind : AccessKind) (a : Accessor) (arguments : List TypeExpr)
  | call (function : Generator) (arguments : List TypeExpr)

/-- What an operation results in. -/
inductive Outcome
  | space (number : Nat)
  | accessor (a : Accessor)
  | expression (e : TypeExpr)
  | answer (answer : Normalized Generator)

/-- Whether an operation accesses no alias. -/
def Operation.isDirect : Operation → Bool
  | .bindLiteral .. | .readLiteral .. | .use .. | .call .. => false
  | _ => true

/-- The namespace and the name that an operation declares, if it succeeds. -/
def Operation.declares? : Operation → Option (Nat × String)
  | .declareForward space name | .bind space name _ | .bindLiteral space name _ _ =>
    some (space, name)
  | _ => none

namespace Registry

/-- Performs an operation. -/
def perform (fuel : Nat) : Operation → Action Outcome
  | .addSpace name config => .space <$> Action.ofState fun r => r.addSpace name config
  | .newType validator => (fun t => .answer (.type t)) <$> Action.newType validator
  | .normalize e => .answer <$> Action.normalize e
  | .declareForward space name => .accessor <$> (declareForward space name).toAction
  | .bind space name source => .accessor <$> (bind space name source).toAction
  | .bindLiteral space name literal prelude =>
    .accessor <$> bindLiteral fuel space name literal prelude
  | .readLiteral space literal prelude => .expression <$> readLiteral fuel space literal prelude
  | .lookup space name => .accessor <$> (lookup space name).toAction
  | .use kind a arguments => .answer <$> a.use fuel kind arguments
  | .call function arguments => .answer <$> call (handler fuel) function arguments

/-- Performs operations in order. Each outcome stands beside the registry after it. -/
def performAll (fuel : Nat) :
    List Operation → Registry → Option (List (Except AliasError Outcome × Registry))
  | [], _ => some []
  | op :: ops, r => do
    let (outcome, r') ← perform fuel op r
    let rest ← performAll fuel ops r'
    return (outcome, r') :: rest

/-! ## The accesses that operations lead to -/

/-- An operation with the log of the accesses that it leads to. -/
inductive Performs (fuel : Nat) (r : Registry) :
    Operation → List Visit → Except AliasError Outcome → Registry → Prop
  | direct {op : Operation} {outcome : Except AliasError Outcome} {r' : Registry}
    (isDirect : op.isDirect = true) (performed : perform fuel op r = some (outcome, r')) :
    Performs fuel r op [] outcome r'
  | readLiteral {space : Nat} {literal : Json.Value} {prelude : Prelude} {log : List Visit}
    {outcome : Except AliasError TypeExpr} {r' : Registry}
    (reads : Reads (world fuel) space prelude literal r log outcome r') :
    Performs fuel r (.readLiteral space literal prelude) log (.expression <$> outcome) r'
  /-- The literal is read, and its name is bound to what it comes to. -/
  | bindLiteral {space : Nat} {name : String} {literal : Json.Value} {prelude : Prelude}
    {log : List Visit} {source : TypeExpr} {outcome : Except AliasError Accessor}
    {r₁ r' : Registry} (reads : Reads (world fuel) space prelude literal r log (.ok source) r₁)
    (binds : Binds space name source r₁ outcome r') :
    Performs fuel r (.bindLiteral space name literal prelude) log (.accessor <$> outcome) r'
  /-- The literal is refused. -/
  | bindLiteralRejected {space : Nat} {name : String} {literal : Json.Value} {prelude : Prelude}
    {log : List Visit} {error : AliasError} {r₁ : Registry}
    (reads : Reads (world fuel) space prelude literal r log (.error error) r₁)
    (isDeclarationError : error.isDeclarationError = true) :
    Performs fuel r (.bindLiteral space name literal prelude) log (.error error)
      (r₁.noteFailure space name .bindingRejected error)
  /-- An access that the literal led to failed, and has reported the failure itself. -/
  | bindLiteralFailed {space : Nat} {name : String} {literal : Json.Value} {prelude : Prelude}
    {log : List Visit} {error : AliasError} {r₁ : Registry}
    (reads : Reads (world fuel) space prelude literal r log (.error error) r₁)
    (noDeclarationError : error.isDeclarationError = false) :
    Performs fuel r (.bindLiteral space name literal prelude) log (.error error) r₁
  | use {kind : AccessKind} {a : Accessor} {arguments : List TypeExpr} {log : List Visit}
    {answer : Except AliasError (Normalized Generator)} {r' : Registry}
    (accesses : (world fuel).accesses a kind.demand (kind.given arguments) r log answer r') :
    Performs fuel r (.use kind a arguments) log (.answer <$> answer) r'
  | call {function : Generator} {arguments : List TypeExpr} {log : List Visit}
    {answer : Except AliasError (Normalized Generator)} {r' : Registry}
    (calls : (world fuel).Calls function arguments r log answer r') :
    Performs fuel r (.call function arguments) log (.answer <$> answer) r'

/-- Operations in order, with the log of all accesses that they lead to. -/
inductive History (fuel : Nat) : List Operation → Registry → List Visit →
    List (Except AliasError Outcome × Registry) → Prop
  | nil {r : Registry} : History fuel [] r [] []
  | cons {op : Operation} {ops : List Operation} {r r' : Registry} {log log' : List Visit}
    {outcome : Except AliasError Outcome} {rest : List (Except AliasError Outcome × Registry)}
    (first : Performs fuel r op log outcome r') (others : History fuel ops r' log' rest) :
    History fuel (op :: ops) r (log ++ log') ((outcome, r') :: rest)

/-- What an operation does that accesses no alias. -/
inductive PerformsDirectly (fuel : Nat) (r : Registry) :
    Operation → Except AliasError Outcome → Registry → Prop
  | addSpace {name : String} {config : Config} :
    PerformsDirectly fuel r (.addSpace name config) (.ok (.space (r.addSpace name config).1))
      (r.addSpace name config).2
  | newType {validator : Validator} :
    PerformsDirectly fuel r (.newType validator) (.ok (.answer (.type (r.newType validator).1)))
      (r.newType validator).2
  | normalize {e : TypeExpr} {answer : Except AliasError (Normalized Generator)} {r' : Registry}
    (normalizes : (world fuel).Normalizes e r answer r') :
    PerformsDirectly fuel r (.normalize e) (.answer <$> answer) r'
  | declareForward {space : Nat} {name : String} {outcome : Except AliasError Accessor}
    {r' : Registry} (declares : DeclaresForward space name r outcome r') :
    PerformsDirectly fuel r (.declareForward space name) (.accessor <$> outcome) r'
  | bind {space : Nat} {name : String} {source : TypeExpr} {outcome : Except AliasError Accessor}
    {r' : Registry} (binds : Binds space name source r outcome r') :
    PerformsDirectly fuel r (.bind space name source) (.accessor <$> outcome) r'
  | lookup {space : Nat} {name : String} {outcome : Except AliasError Accessor}
    (looksUp : LooksUp space name r outcome r) :
    PerformsDirectly fuel r (.lookup space name) (.accessor <$> outcome) r

theorem performsDirectly_of {fuel : Nat} {op : Operation} {r r' : Registry}
    {outcome : Except AliasError Outcome} (isDirect : op.isDirect = true)
    (h : perform fuel op r = some (outcome, r')) : PerformsDirectly fuel r op outcome r' := by
  cases op with
  | addSpace =>
    obtain ⟨rfl, rfl⟩ := Prod.mk.inj (Option.some.inj h)
    exact .addSpace
  | newType =>
    obtain ⟨rfl, rfl⟩ := Prod.mk.inj (Option.some.inj h)
    exact .newType
  | normalize =>
    obtain ⟨_, hx, rfl⟩ := Action.map_cases h
    exact .normalize ((mints_world fuel).normalizes hx)
  | declareForward =>
    obtain ⟨_, hx, rfl⟩ := Action.map_cases h
    exact .declareForward (declaresForward_of hx)
  | bind =>
    obtain ⟨_, hx, rfl⟩ := Action.map_cases h
    exact .bind (binds_of hx)
  | lookup =>
    obtain ⟨_, hx, rfl⟩ := Action.map_cases h
    cases looksUp_of hx with
    | found isEntry => exact .lookup (.found isEntry)
    | missing noEntry => exact .lookup (.missing noEntry)
  | bindLiteral | readLiteral | use | call => cases isDirect

/-- Binding a literal reads it first. Then its name is bound to what was read, or the literal is
refused, which is noted unless an access has reported the failure. -/
theorem Performs.bindLiteral_cases {fuel space : Nat} {name : String} {literal : Json.Value}
    {prelude : Prelude} {r r' : Registry} {log : List Visit} {outcome : Except AliasError Outcome}
    (h : Performs fuel r (.bindLiteral space name literal prelude) log outcome r') :
    (∃ source r₁ bound, Reads (world fuel) space prelude literal r log (.ok source) r₁ ∧
        Binds space name source r₁ bound r' ∧ outcome = .accessor <$> bound) ∨
      ∃ error r₁, Reads (world fuel) space prelude literal r log (.error error) r₁ ∧
        outcome = .error error ∧ r' = if error.isDeclarationError = true then
          r₁.noteFailure space name .bindingRejected error else r₁ := by
  cases h with
  | direct isDirect => cases isDirect
  | bindLiteral reads binds => exact .inl ⟨_, _, _, reads, binds, rfl⟩
  | bindLiteralRejected reads isDeclarationError =>
    exact .inr ⟨_, _, reads, rfl, (if_pos isDeclarationError).symm⟩
  | bindLiteralFailed reads noDeclarationError =>
    exact .inr ⟨_, _, reads, rfl, by simp [noDeclarationError]⟩

/-! ## Slots stay -/

/-- What accesses no alias gives no name another slot. -/
theorem accessor_of_direct {fuel : Nat} {op : Operation} {r r' : Registry}
    {outcome : Except AliasError Outcome} (isDirect : op.isDirect = true)
    (h : perform fuel op r = some (outcome, r')) (space : Nat) (name : String) :
    r'.accessor space name = r.accessor space name := by
  cases performsDirectly_of isDirect h with
  | addSpace => exact accessor_congr (slots?_addSpace ..)
  | newType => rfl
  | normalize normalizes =>
    exact accessor_congr (slots?_of_spaces (spaces_of_normalizes normalizes) space name)
  | declareForward declares => exact declares.accessor_eq space name
  | bind binds => exact binds.accessor_eq space name
  | lookup => rfl

/-- **No operation gives a name another slot**, whatever bodies and literals do in the course of
it. -/
theorem Performs.accessor_eq {fuel : Nat} {op : Operation} {r r' : Registry} {log : List Visit}
    {outcome : Except AliasError Outcome} (h : Performs fuel r op log outcome r') (space : Nat)
    (name : String) : r'.accessor space name = r.accessor space name := by
  have hread {space' : Nat} {prelude : Prelude} {literal : Json.Value}
      {read : Except AliasError TypeExpr} {r₁ : Registry}
      (reads : Reads (world fuel) space' prelude literal r log read r₁) :
      r₁.accessor space name = r.accessor space name :=
    accessor_of_outlines (reads.keeps (keeps_outlines fuel)) space name
  cases h with
  | direct isDirect performed => exact accessor_of_direct isDirect performed space name
  | readLiteral reads => exact hread reads
  | bindLiteral reads binds => exact (binds.accessor_eq space name).trans (hread reads)
  | bindLiteralRejected reads =>
    exact (accessor_congr (slots?_noteFailure ..)).trans (hread reads)
  | bindLiteralFailed reads => exact hread reads
  | use accesses => exact accessor_of_outlines ((keeps_outlines fuel).accesses accesses) space name
  | call calls => exact accessor_of_outlines ((keeps_outlines fuel).callsFunction calls) space name

/-- Every name of a namespace has one slot only. -/
def OneSlotEach (r : Registry) (space : Nat) : Prop :=
  ∀ name s, r.slots? space name = some s → s.held.length = 1

theorem OneSlotEach.of_slots? {space : Nat} {r r' : Registry} (h : r.OneSlotEach space)
    (hslots : ∀ name, r'.slots? space name = r.slots? space name) : r'.OneSlotEach space :=
  fun name s hs => h name s ((hslots name).symm.trans hs)

theorem OneSlotEach.of_outlines {space : Nat} {r r' : Registry} (h : r.OneSlotEach space)
    (houtlines : r'.outlines = r.outlines) : r'.OneSlotEach space := by
  intro name s hs
  have hsame : (r'.slots? space name).map Slots.outline =
      (r.slots? space name).map Slots.outline := by
    rw [outline_slots?, outline_slots?, houtlines]
  rw [hs, Option.map_some] at hsame
  obtain ⟨old, hold, houtline⟩ := Option.map_eq_some_iff.1 hsame.symm
  have hlength := congrArg (fun o => o.definitions.length) houtline
  simp only [Slots.outline, List.length_map] at hlength
  rw [← hlength, h name old hold]

/-- A slot is made only for a name that has none. -/
theorem OneSlotEach.put {space : Nat} {r : Registry} (h : r.OneSlotEach space) (other : Nat)
    (name : String) (entry : Alias) : (r.put other name entry).OneSlotEach space := by
  intro otherName s hs
  rw [slots?_put] at hs
  split at hs
  · next hname =>
    obtain ⟨⟨rfl, rfl⟩, -⟩ := hname
    obtain rfl := Option.some.inj hs
    cases hold : r.slots? space otherName with
    | none => rfl
    | some old => exact List.length_set.trans (h otherName old hold)
  · exact h otherName s hs

theorem DeclaresForward.oneSlotEach {space other : Nat} {name : String} {r r' : Registry}
    {outcome : Except AliasError Accessor} (h : DeclaresForward other name r outcome r')
    (hr : r.OneSlotEach space) : r'.OneSlotEach space := by
  cases h with
  | declared =>
    exact (hr.put other name .pending).of_slots? fun _ => by rw [slots?_note, slots?_count]
  | pending => exact hr
  | rejected => exact hr.of_slots? fun _ => slots?_noteFailure ..

theorem Binds.oneSlotEach {space other : Nat} {name : String} {source : TypeExpr} {r r' : Registry}
    {outcome : Except AliasError Accessor} (h : Binds other name source r outcome r')
    (hr : r.OneSlotEach space) : r'.OneSlotEach space := by
  cases h with
  | bound =>
    exact (hr.put other name _).of_slots? fun _ => by rw [slots?_note, slots?_count]
  | rejected => exact hr.of_slots? fun _ => slots?_noteFailure ..

/-- **No operation makes a second slot for a name.** -/
theorem Performs.oneSlotEach {fuel space : Nat} {op : Operation} {r r' : Registry}
    {log : List Visit} {outcome : Except AliasError Outcome}
    (h : Performs fuel r op log outcome r') (hr : r.OneSlotEach space) : r'.OneSlotEach space := by
  have hW := keeps_outlines fuel
  cases h with
  | direct isDirect performed =>
    cases performsDirectly_of isDirect performed with
    | addSpace => exact hr.of_slots? fun _ => slots?_addSpace ..
    | newType => exact hr
    | normalize normalizes =>
      exact hr.of_slots? fun name => slots?_of_spaces (spaces_of_normalizes normalizes) space name
    | declareForward declares => exact declares.oneSlotEach hr
    | bind binds => exact binds.oneSlotEach hr
    | lookup => exact hr
  | readLiteral reads => exact hr.of_outlines (reads.keeps hW)
  | bindLiteral reads binds => exact binds.oneSlotEach (hr.of_outlines (reads.keeps hW))
  | bindLiteralRejected reads =>
    exact (hr.of_outlines (reads.keeps hW)).of_slots? fun _ => slots?_noteFailure ..
  | bindLiteralFailed reads => exact hr.of_outlines (reads.keeps hW)
  | use accesses => exact hr.of_outlines (hW.accesses accesses)
  | call calls => exact hr.of_outlines (hW.callsFunction calls)

/-! ## Definitions stay -/

/-- What accesses no alias leaves every definition, with all that is kept for it. -/
theorem alias?_of_direct {fuel : Nat} {op : Operation} {r r' : Registry} {a : Accessor}
    {entry : Alias} {outcome : Except AliasError Outcome} (isDirect : op.isDirect = true)
    (h : perform fuel op r = some (outcome, r')) (ha : r.alias? a = some entry)
    (hdefined : entry.IsDefined) : r'.alias? a = some entry := by
  cases performsDirectly_of isDirect h with
  | addSpace => exact (alias?_addSpace ..).trans ha
  | newType => exact ha
  | normalize normalizes => exact (alias?_of_spaces (spaces_of_normalizes normalizes) a).trans ha
  | declareForward declares => exact declares.alias?_of_some ha
  | bind binds => exact binds.alias?_of_defined ha hdefined
  | lookup => exact ha

/-- After what accesses no alias a name stands for what it stood for, waits for its definition, or
stands for what was bound. -/
theorem entry_cases_of_direct {fuel : Nat} {op : Operation} {r r' : Registry} {a : Accessor}
    {entry : Alias} {outcome : Except AliasError Outcome} (isDirect : op.isDirect = true)
    (h : perform fuel op r = some (outcome, r')) (hentry : r'.alias? a = some entry) :
    r.alias? a = some entry ∨ entry = .pending ∨
      ∃ space name source, op = .bind space name source ∧
        entry = Alias.ofSource (r.config space) source := by
  cases performsDirectly_of isDirect h with
  | addSpace => exact .inl ((alias?_addSpace ..).symm.trans hentry)
  | newType => exact .inl hentry
  | normalize normalizes =>
    exact .inl ((alias?_of_spaces (spaces_of_normalizes normalizes) a).symm.trans hentry)
  | declareForward declares => exact (declares.entry_cases hentry).imp_right .inl
  | bind binds =>
    exact (binds.entry_cases hentry).imp_right fun hbound => .inr ⟨_, _, _, rfl, hbound⟩
  | lookup => exact .inl hentry

/-! ## Every run has a log -/

/-- Binding a literal reads it, and then binds its name or refuses it. -/
theorem of_bindLiteral {fuel space : Nat} {name : String} {literal : Json.Value}
    {prelude : Prelude} {r r' : Registry} {outcome : Except AliasError Accessor}
    (h : bindLiteral fuel space name literal prelude r = some (outcome, r')) :
    (∃ source r₁, readLiteral fuel space literal prelude r = some (.ok source, r₁) ∧
        Binds space name source r₁ outcome r') ∨
      ∃ error r₁, readLiteral fuel space literal prelude r = some (.error error, r₁) ∧
        outcome = .error error ∧ r' = if error.isDeclarationError = true then
          r₁.noteFailure space name .bindingRejected error else r₁ := by
  obtain ⟨source, r₁, hread, h⟩ | ⟨error, hread, rfl⟩ := Action.bind_cases h
  · obtain ⟨_, hread, ⟨⟩⟩ | ⟨error, r₂, -, hread⟩ := Action.tryCatch_cases hread
    · exact .inl ⟨source, r₁, hread, binds_of h⟩
    · -- the handler of errors never succeeds
      split at hread
      · cases hread
      · cases hread
  · obtain ⟨_, -, ⟨⟩⟩ | ⟨error', r₂, hread, hhandle⟩ := Action.tryCatch_cases hread
    refine .inr ⟨error', r₂, hread, ?_⟩
    split at hhandle
    · next hdeclaration =>
      obtain ⟨herror, rfl⟩ := Prod.mk.inj (Option.some.inj hhandle)
      exact ⟨congrArg _ (Except.error.inj herror).symm, (if_pos hdeclaration).symm⟩
    · next hdeclaration =>
      obtain ⟨herror, rfl⟩ := Prod.mk.inj (Option.some.inj hhandle)
      exact ⟨congrArg _ (Except.error.inj herror).symm, (if_neg hdeclaration).symm⟩

theorem exists_performs {fuel : Nat} {op : Operation} {r r' : Registry}
    {outcome : Except AliasError Outcome} (h : perform fuel op r = some (outcome, r')) :
    ∃ log, Performs fuel r op log outcome r' := by
  cases op with
  | bindLiteral space name literal prelude =>
    obtain ⟨bound, hbound, rfl⟩ := Action.map_cases h
    obtain ⟨source, r₁, hread, hbinds⟩ | ⟨error, r₁, hread, rfl, rfl⟩ := of_bindLiteral hbound
    · obtain ⟨log, hlog⟩ := reads_of_read literal hread
      exact ⟨log, .bindLiteral hlog hbinds⟩
    · obtain ⟨log, hlog⟩ := reads_of_read literal hread
      split
      · next hdeclaration => exact ⟨log, .bindLiteralRejected hlog hdeclaration⟩
      · next hdeclaration =>
        exact ⟨log, .bindLiteralFailed hlog (Bool.eq_false_iff.2 hdeclaration)⟩
  | readLiteral space literal prelude =>
    obtain ⟨read, hread, rfl⟩ := Action.map_cases h
    obtain ⟨log, hlog⟩ := reads_of_read literal hread
    exact ⟨log, .readLiteral hlog⟩
  | use kind a arguments =>
    obtain ⟨answer, huse, rfl⟩ := Action.map_cases h
    obtain ⟨log, hlog⟩ := exists_accesses (Accessor.access_of_use huse)
    exact ⟨log, .use hlog⟩
  | call function arguments =>
    obtain ⟨answer, hcall, rfl⟩ := Action.map_cases h
    obtain ⟨log, hlog⟩ := (follows_world fuel).calls (mints_world fuel) hcall
    exact ⟨log, .call hlog⟩
  | _ => exact ⟨[], .direct rfl h⟩

/-- **Every run has a log.** -/
theorem exists_history {fuel : Nat} {ops : List Operation} {r : Registry}
    {steps : List (Except AliasError Outcome × Registry)}
    (h : performAll fuel ops r = some steps) : ∃ log, History fuel ops r log steps := by
  induction ops generalizing r steps with
  | nil =>
    obtain rfl := Option.some.inj h
    exact ⟨[], .nil⟩
  | cons op ops ih =>
    obtain ⟨⟨outcome, r₁⟩, hfirst, h⟩ := Option.bind_eq_some_iff.1 h
    obtain ⟨rest, hrest, h⟩ := Option.bind_eq_some_iff.1 h
    obtain rfl := Option.some.inj h
    obtain ⟨log, hlog⟩ := exists_performs hfirst
    obtain ⟨log', hlog'⟩ := ih hrest
    exact ⟨log ++ log', .cons hlog hlog'⟩

end Registry

end NamedTypes
