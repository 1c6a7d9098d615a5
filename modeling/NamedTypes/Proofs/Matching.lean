import NamedTypes.Proofs.Adequacy
import NamedTypes.Proofs.Literals
import NamedTypes.Proofs.Reporting

/-! # Matching registries
Two registries **match** if users cannot tell them apart although different types may have been made
and different results may be remembered in them (`Registry.Matches`). Declarations, accesses, calls
and literals have alike outcomes on matching registries, which match again afterwards
(`Registry.lockstep_world`, `Registry.Reads.lockstep`). -/

namespace NamedTypes

/-- Preludes with the same names, which stand for alike types. -/
def Prelude.Alike (prelude₁ prelude₂ : Prelude) : Prop :=
  ∀ name, Option.Rel Ty.Alike (prelude₁.get? name) (prelude₂.get? name)

/-! ## Fresh aliases -/

namespace Alias

/-- Whether an alias neither keeps nor remembers anything. -/
def IsFresh : Alias → Prop
  | .pending => True
  | .plain _ type => type = none
  | .function _ memo => ∀ m, memo = some m → m = {}

theorem isFresh_ofSource (config : Config) (source : TypeExpr) :
    (ofSource config source).IsFresh := by
  cases source with
  | generator f =>
    rw [ofSource]
    split
    · exact fun m hm => (Option.some.inj hm).symm
    · exact nofun
  | _ => rfl

/-- Fresh aliases with alike definitions have come equally far. -/
theorem state_of_alike {entry entry' : Alias} (h : entry.IsFresh) (h' : entry'.IsFresh)
    (halike : entry.definition.Alike entry'.definition) : entry.state = entry'.state := by
  cases entry with
  | pending =>
    cases entry' with
    | pending => rfl
    | plain | function => cases halike
  | plain source type =>
    cases entry' with
    | pending | function => cases halike
    | plain source' type' =>
      obtain rfl : type = none := h
      obtain rfl : type' = none := h'
      rfl
  | function f memo =>
    cases entry' with
    | pending | plain => cases halike
    | function => rfl

/-- Alike expressions are bound alike, whatever the configurations. -/
theorem alike_ofSource {source source' : TypeExpr} (h : source.Alike source')
    (config config' : Config) :
    (ofSource config source).definition.Alike (ofSource config' source').definition := by
  cases h with
  | leaf alike => exact .plain (.leaf alike)
  | sequence items => exact .plain (.sequence items)
  | record paired => exact .plain (.record paired)
  | generator related => exact .function related
  | data => exact .plain .data

end Alias

namespace Registry

variable {K : Ty → Prop} {D : Definitions} {r r' : Registry} {a : Accessor}

/-! ## Giving a name a meaning -/

/-- Soundness is a matter of the definitions that a registry has. -/
theorem Sound.self (h : Sound K D r) : Sound K r.definition? r := by
  rw [h.definition?_eq]
  exact h

theorem Sound.same (h : Sound K r.definition? r) (heq : ∀ a, r'.alias? a = r.alias? a) :
    Sound K r'.definition? r' :=
  (h.of_alias?_eq heq).self

/-- A registry in which nothing is declared is sound. -/
theorem Sound.of_none (h : ∀ a, r.alias? a = none) : Sound K r.definition? r where
  definition?_eq := rfl
  kept ha := by rw [h] at ha; cases ha
  remembered ha := by rw [h] at ha; cases ha

/-- Giving a name that has no definition a fresh one leaves a registry sound: what is remembered of
other names still means the same. -/
theorem Sound.define (h : Sound K r.definition? r) {space : Nat} {name : String} {entry : Alias}
    (undefined : ∀ old, r.alias? (r.accessor space name) = some old → ¬ old.IsDefined)
    (fresh : entry.IsFresh) :
    Sound K (r.put space name entry).definition? (r.put space name entry) := by
  have hgrows : Grows r.definition? (r.put space name entry).definition? := by
    intro b d hb hd
    obtain ⟨old, hold, rfl⟩ := Option.map_eq_some_iff.1 hb
    have hb : b ≠ r.accessor space name := by
      rintro rfl
      refine undefined old hold fun hpending => hd ?_
      rw [hpending]
      rfl
    rw [Registry.definition?, alias?_put_of_ne hb, hold]
    rfl
  refine ⟨rfl, fun {b source t} hb => ?_, fun {b f memo types result} hb htypes hget => ?_⟩
  · obtain ⟨-, rfl⟩ | hb := alias?_put_cases hb
    · cases fresh
    · exact h.kept hb
  · obtain ⟨-, rfl⟩ | hb := alias?_put_cases hb
    · rw [fresh memo rfl] at hget
      cases hget
    · obtain ⟨fuel, log, happlies, hclean, htouched⟩ := h.remembered hb htypes hget
      refine ⟨fuel, log, (within_of_grows hgrows fuel).applies happlies ?_, hclean, fun c hc => ?_⟩
      · rintro m hm rfl
        exact hclean hm
      · have hne : c ≠ r.accessor space name := by
          -- what has no definition is not resolved
          rintro rfl
          have hresolved := htouched _ hc
          rw [state] at hresolved
          cases hold : r.alias? (r.accessor space name) with
          | none => simp [hold] at hresolved
          | some old =>
            refine undefined old hold fun hpending => ?_
            simp [hold, hpending, Alias.state] at hresolved
        rw [state, alias?_put_of_ne hne]
        exact htouched c hc

theorem standing_ext {r₁ r₂ : Registry} (hstate : ∀ b, r₁.state b = r₂.state b)
    (hcounted : ∀ space, r₁.counted space .normalizations = r₂.counted space .normalizations) :
    r₁.standing = r₂.standing :=
  Standing.ext (funext hstate) (funext hcounted)

/-! ## Matching -/

/-- The counters that only declarations and failures raise. -/
def reported : List Counter := [.forwardDeclarations, .bindings, .errors]

/-- Registries that users cannot tell apart while no access is running: names stand for the same
slots, which have alike definitions and have come equally far, and both have counted the same. Both
are sound. -/
structure Matches (K₁ K₂ : Ty → Prop) (r₁ r₂ : Registry) : Prop where
  depth_left : r₁.depth = 0
  depth_right : r₂.depth = 0
  accessor_eq : ∀ space name, r₁.accessor space name = r₂.accessor space name
  definitions : ∀ a, Option.Rel Definition.Alike (r₁.definition? a) (r₂.definition? a)
  standing_eq : r₁.standing = r₂.standing
  tallies_eq : ∀ counter ∈ reported, r₁.tallies counter = r₂.tallies counter
  sound_left : Sound K₁ r₁.definition? r₁
  sound_right : Sound K₂ r₂.definition? r₂

namespace Matches

variable {K₁ K₂ : Ty → Prop} {r₁ r₂ r₁' r₂' : Registry}

theorem state_eq (h : Matches K₁ K₂ r₁ r₂) (a : Accessor) : r₁.state a = r₂.state a :=
  congrFun (congrArg Standing.state h.standing_eq) a

theorem normalizations_eq (h : Matches K₁ K₂ r₁ r₂) (space : Nat) :
    r₁.counted space .normalizations = r₂.counted space .normalizations :=
  congrFun (congrArg Standing.normalizations h.standing_eq) space

theorem isSome_space?_eq (h : Matches K₁ K₂ r₁ r₂) (space : Nat) :
    (r₁.space? space).isSome = (r₂.space? space).isSome := by
  have htallies := congrArg (fun counts => counts[space]?.isSome)
    (h.tallies_eq .errors (by decide))
  simpa only [tallies, getElem?_perSpace, Option.isSome_map] using htallies

theorem compiles_eq (h : Matches K₁ K₂ r₁ r₂) :
    Definitions.compiles r₁.definition? = Definitions.compiles r₂.definition? := by
  funext b
  have hb := h.definitions b
  rw [Definitions.compiles, Definitions.compiles]
  generalize r₁.definition? b = d₁ at hb ⊢
  generalize r₂.definition? b = d₂ at hb ⊢
  cases hb with
  | none => rfl
  | some alike =>
    cases alike with
    | pending => rfl
    | function => rfl
    | @plain source source' sources =>
      have hvalidator := sources.validator
      dsimp only
      generalize source.validator = v₁ at hvalidator ⊢
      generalize source'.validator = v₂ at hvalidator ⊢
      cases hvalidator <;> rfl

/-- Where one of the registries has no definition, the other one has none. -/
theorem isDefined_iff (h : Matches K₁ K₂ r₁ r₂) {space : Nat} {name : String} :
    (∃ entry, r₁.alias? (r₁.accessor space name) = some entry ∧ entry.IsDefined) ↔
      ∃ entry, r₂.alias? (r₂.accessor space name) = some entry ∧ entry.IsDefined := by
  rw [h.accessor_eq]
  generalize r₂.accessor space name = a
  have ha := h.definitions a
  rw [Registry.definition?, Registry.definition?] at ha
  have hpending (entry : Alias) : entry.IsDefined ↔ entry.definition ≠ .pending := by
    cases entry <;> simp [Alias.IsDefined, Alias.definition]
  cases h₁ : r₁.alias? a with
  | none =>
    cases h₂ : r₂.alias? a with
    | none => exact Iff.rfl
    | some entry₂ => rw [h₁, h₂] at ha; cases ha
  | some entry₁ =>
    cases h₂ : r₂.alias? a with
    | none => rw [h₁, h₂] at ha; cases ha
    | some entry₂ =>
      rw [h₁, h₂] at ha
      obtain ⟨alike⟩ := ha
      simp only [Option.some.injEq, exists_eq_left', hpending]
      generalize entry₁.definition = d₁ at alike ⊢
      generalize entry₂.definition = d₂ at alike ⊢
      cases alike <;> simp

/-- The same names are declared. -/
theorem isSome_alias?_eq (h : Matches K₁ K₂ r₁ r₂) (space : Nat) (name : String) :
    (r₁.alias? (r₁.accessor space name)).isSome = (r₂.alias? (r₂.accessor space name)).isSome := by
  rw [h.accessor_eq]
  generalize r₂.accessor space name = a
  have ha := h.definitions a
  rw [Registry.definition?, Registry.definition?] at ha
  cases h₁ : r₁.alias? a with
  | none =>
    cases h₂ : r₂.alias? a with
    | none => rfl
    | some entry₂ => rw [h₁, h₂] at ha; cases ha
  | some entry₁ =>
    cases h₂ : r₂.alias? a with
    | none => rw [h₁, h₂] at ha; cases ha
    | some entry₂ => rfl

/-- Names stand for the same slots. -/
theorem accessor?_eq (h : Matches K₁ K₂ r₁ r₂) (space : Nat) (name : String) :
    r₁.accessor? space name = r₂.accessor? space name := by
  have hsome := h.isSome_alias?_eq space name
  rw [h.accessor_eq] at hsome
  rw [accessor?_eq_map, accessor?_eq_map, h.accessor_eq]
  revert hsome
  cases r₁.alias? (r₂.accessor space name) <;> cases r₂.alias? (r₂.accessor space name) <;> simp

/-! ## What keeps registries matching -/

/-- Changes of what users cannot tell. -/
theorem same (h : Matches K₁ K₂ r₁ r₂) (hdepth : r₁'.depth = r₁.depth ∧ r₂'.depth = r₂.depth)
    (hslots : ∀ space name, r₁'.slots? space name = r₁.slots? space name ∧
      r₂'.slots? space name = r₂.slots? space name)
    (htallies : ∀ counter,
      r₁'.tallies counter = r₁.tallies counter ∧ r₂'.tallies counter = r₂.tallies counter) :
    Matches K₁ K₂ r₁' r₂' where
  depth_left := hdepth.1.trans h.depth_left
  depth_right := hdepth.2.trans h.depth_right
  accessor_eq space name := by
    rw [accessor_congr (hslots space name).1, accessor_congr (hslots space name).2]
    exact h.accessor_eq space name
  definitions b := by
    rw [Registry.definition?, Registry.definition?, alias?_congr (hslots ..).1,
      alias?_congr (hslots ..).2]
    exact h.definitions b
  standing_eq := by
    refine standing_ext (fun b => ?_) fun space => ?_
    · rw [state, state, alias?_congr (hslots ..).1, alias?_congr (hslots ..).2]
      exact h.state_eq b
    · rw [counted_eq, counted_eq, (htallies _).1, (htallies _).2, ← counted_eq, ← counted_eq]
      exact h.normalizations_eq space
  tallies_eq counter hcounter := by
    rw [(htallies counter).1, (htallies counter).2, h.tallies_eq counter hcounter]
  sound_left := h.sound_left.same fun _ => alias?_congr (hslots ..).1
  sound_right := h.sound_right.same fun _ => alias?_congr (hslots ..).2

theorem note (h : Matches K₁ K₂ r₁ r₂) (space : Nat) (event event' : Log.Event)
    (fields fields' : Entries String) :
    Matches K₁ K₂ (r₁.note space event fields) (r₂.note space event' fields') :=
  h.same ⟨depth_note .., depth_note ..⟩ (fun _ _ => ⟨slots?_note .., slots?_note ..⟩)
    fun _ => ⟨perSpace_note, perSpace_note⟩

theorem newType (h : Matches K₁ K₂ r₁ r₂) (v w : Validator) :
    Matches K₁ K₂ (r₁.newType v).2 (r₂.newType w).2 :=
  h.same ⟨rfl, rfl⟩ (fun _ _ => ⟨rfl, rfl⟩) fun _ => ⟨rfl, rfl⟩

theorem count (h : Matches K₁ K₂ r₁ r₂) (space : Nat) {counter : Counter}
    (hcounter : counter ≠ .normalizations) :
    Matches K₁ K₂ (r₁.count space counter) (r₂.count space counter) where
  depth_left := h.depth_left
  depth_right := h.depth_right
  accessor_eq other name := by
    rw [accessor_congr (slots?_count ..), accessor_congr (slots?_count ..), h.accessor_eq]
  definitions b := by
    rw [Registry.definition?, Registry.definition?, alias?_count, alias?_count]
    exact h.definitions b
  standing_eq := by rw [standing_count hcounter, standing_count hcounter, h.standing_eq]
  tallies_eq read hread := by rw [tallies_count, tallies_count, h.tallies_eq read hread]
  sound_left := h.sound_left.same fun b => alias?_count ..
  sound_right := h.sound_right.same fun b => alias?_count ..

/-- Reporting a failure in both registries. -/
theorem noteFailure (h : Matches K₁ K₂ r₁ r₂) (space : Nat) (name : String) (event : Log.Event)
    (error : AliasError) :
    Matches K₁ K₂ (r₁.noteFailure space name event error) (r₂.noteFailure space name event error) :=
  (h.count space (by decide : Counter.errors ≠ .normalizations)).note space event event _ _

/-- Giving a name without definition alike fresh ones in both registries. -/
theorem put (h : Matches K₁ K₂ r₁ r₂) {space : Nat} {name : String} {entry₁ entry₂ : Alias}
    (undefined : ∀ entry, r₁.alias? (r₁.accessor space name) = some entry → ¬ entry.IsDefined)
    (fresh₁ : entry₁.IsFresh) (fresh₂ : entry₂.IsFresh)
    (halike : entry₁.definition.Alike entry₂.definition) :
    Matches K₁ K₂ (r₁.put space name entry₁) (r₂.put space name entry₂) where
  depth_left := h.depth_left
  depth_right := h.depth_right
  accessor_eq other otherName := by rw [accessor_put, accessor_put, h.accessor_eq]
  definitions b := by
    rw [Registry.definition?, Registry.definition?, alias?_put, alias?_put, h.accessor_eq,
      h.isSome_space?_eq]
    split
    · exact .some halike
    · exact h.definitions b
  standing_eq := by
    refine standing_ext (fun b => ?_) fun space => ?_
    · rw [state, state, alias?_put, alias?_put, h.accessor_eq, h.isSome_space?_eq]
      split
      · exact Alias.state_of_alike fresh₁ fresh₂ halike
      · exact h.state_eq b
    · rw [counted_put, counted_put, h.normalizations_eq]
  tallies_eq counter hcounter := by
    rw [tallies_put, tallies_put, h.tallies_eq counter hcounter]
  sound_left := h.sound_left.define undefined fresh₁
  sound_right := by
    refine h.sound_right.define (fun entry hentry hdefined => ?_) fresh₂
    obtain ⟨entry', hentry', hdefined'⟩ := h.isDefined_iff.2 ⟨entry, hentry, hdefined⟩
    exact undefined entry' hentry' hdefined'

/-- Adding a namespace to both registries, with any configurations. -/
theorem addSpace (h : Matches K₁ K₂ r₁ r₂) (name : String) (config config' : Config) :
    Matches K₁ K₂ (r₁.addSpace name config).2 (r₂.addSpace name config').2 where
  depth_left := (depth_note ..).trans h.depth_left
  depth_right := (depth_note ..).trans h.depth_right
  accessor_eq space other := by
    rw [accessor_congr (slots?_addSpace ..), accessor_congr (slots?_addSpace ..), h.accessor_eq]
  definitions b := by
    rw [Registry.definition?, Registry.definition?, alias?_addSpace, alias?_addSpace]
    exact h.definitions b
  standing_eq := by
    refine standing_ext (fun b => ?_) fun space => ?_
    · rw [state, state, alias?_addSpace, alias?_addSpace]
      exact h.state_eq b
    · rw [counted_addSpace, counted_addSpace, h.normalizations_eq]
  tallies_eq counter hcounter := by
    have htallies := h.tallies_eq counter hcounter
    rw [tallies, tallies] at htallies
    rw [tallies, tallies, perSpace_addSpace, perSpace_addSpace, htallies]
  sound_left := h.sound_left.same fun b => alias?_addSpace ..
  sound_right := h.sound_right.same fun b => alias?_addSpace ..

end Matches

/-! ## Accesses -/

/-- Leaving an access that was the outermost one counts its failure, if it failed. -/
theorem errorCounts_leave {α : Type} (r : Registry) (a : Accessor) (outcome : Except AliasError α)
    (after : Registry) (h : r.depth = 0) :
    (r.leave a outcome after).errorCounts =
      if outcome.isOk then after.errorCounts else after.errorCounts.modify a.space (· + 1) := by
  cases outcome with
  | ok result => rfl
  | error error =>
    rw [leave, if_pos h]
    exact errorCounts_noteFailure ..

/-- An outermost access that succeeds counts no failure, and one that fails counts one. -/
theorem errorCounts_of_accesses {fuel : Nat} {demand : Demand} {arguments : List TypeExpr}
    {log : List Visit} {answer : Except AliasError (Normalized Generator)} (hr : r.depth = 0)
    (h : (world fuel).accesses a demand arguments r log answer r') :
    r'.errorCounts =
      if answer.isOk then r.errorCounts else r.errorCounts.modify a.space (· + 1) := by
  cases fuel with
  | zero => exact h.elim
  | succ fuel =>
    obtain ⟨resolves, -⟩ := h
    have hquiet := resolves.keeps (keeps_quiet fuel) (admits_quiet a) (Nat.succ_pos r.depth)
    have hinner : _ = r.errorCounts := hquiet.errorCounts_eq
    rw [errorCounts_leave _ _ _ _ hr, hinner]

section Lockstep

variable {K₁ K₂ : Ty → Prop} {r₁ r₂ r₁' r₂' : Registry}

/-- Matching registries answer alike accesses alike, and match again afterwards. -/
theorem Matches.accesses (hK₁ : ToldApart K₁) (hK₂ : ToldApart K₂) (h : Matches K₁ K₂ r₁ r₂)
    {fuel₁ fuel₂ : Nat} {demand : Demand} {es₁ es₂ : List TypeExpr}
    (hes : List.Forall₂ TypeExpr.Alike es₁ es₂) {log₁ log₂ : List Visit}
    {answer₁ answer₂ : Except AliasError (Normalized Generator)} (hlog₁ : Regular K₁ log₁)
    (hlog₂ : Regular K₂ log₂) (h₁ : (world fuel₁).accesses a demand es₁ r₁ log₁ answer₁ r₁')
    (h₂ : (world fuel₂).accesses a demand es₂ r₂ log₂ answer₂ r₂') :
    Answer.Alike answer₁ answer₂ ∧ Matches K₁ K₂ r₁' r₂' := by
  obtain ⟨fuel₁', marks₁, hmeans₁, hmirrors₁⟩ :=
    (adequate_world hK₁ _ fuel₁).accesses h.sound_left hlog₁ h₁
  obtain ⟨fuel₂', marks₂, hmeans₂, hmirrors₂⟩ :=
    (adequate_world hK₂ _ fuel₂).accesses h.sound_right hlog₂ h₂
  obtain ⟨hanswer, -, rfl⟩ :=
    (lockstep_meaning h.definitions fuel₁' fuel₂').accesses trivial hes hmeans₁ hmeans₂ trivial
  have houtlines₁ : r₁'.outlines = r₁.outlines := (keeps_outlines fuel₁).accesses h₁
  have houtlines₂ : r₂'.outlines = r₂.outlines := (keeps_outlines fuel₂).accesses h₂
  -- An access changes the standing as its marks tell, and the meanings have the same marks. Of what
  -- is counted, only the failure of the access itself is reported.
  refine ⟨hanswer, ?_, ?_, fun space name => ?_, fun b => ?_, ?_, fun counter hcounter => ?_,
    hmirrors₁.sound.self, hmirrors₂.sound.self⟩
  · exact ((keeps_nests fuel₁).accesses h₁).1.trans h.depth_left
  · exact ((keeps_nests fuel₂).accesses h₂).1.trans h.depth_right
  · rw [accessor_of_outlines houtlines₁, accessor_of_outlines houtlines₂, h.accessor_eq]
  · rw [definition?_of_outlines houtlines₁, definition?_of_outlines houtlines₂]
    exact h.definitions b
  · rw [hmirrors₁.standing_eq, hmirrors₂.standing_eq, h.standing_eq, h.compiles_eq]
  · have hbefore := h.tallies_eq counter hcounter
    have hread (f : Outline → Nat) (hf : ∀ n : Namespace, f n.outline = n.metrics.get counter) :
        r₁'.tallies counter = r₂'.tallies counter := by
      have heq (r : Registry) : r.tallies counter = r.perSpace fun n => f n.outline :=
        congrArg r.perSpace (funext fun n => (hf n).symm)
      rw [heq, heq, perSpace_of_outlines houtlines₁, perSpace_of_outlines houtlines₂, ← heq, ← heq,
        hbefore]
    simp only [reported, List.mem_cons, List.not_mem_nil, or_false] at hcounter
    rcases hcounter with rfl | rfl | rfl
    · exact hread Outline.forwardDeclarations fun _ => rfl
    · exact hread Outline.bindings fun _ => rfl
    · have herrors₁ := errorCounts_of_accesses h.depth_left h₁
      have herrors₂ := errorCounts_of_accesses h.depth_right h₂
      change r₁'.errorCounts = r₂'.errorCounts
      have herrors : r₁.errorCounts = r₂.errorCounts := hbefore
      rw [herrors₁, herrors₂, herrors]
      cases hanswer <;> rfl

/-- **Matching registries go in lockstep**, whatever has been kept and remembered in them. -/
theorem lockstep_world (hK₁ : ToldApart K₁) (hK₂ : ToldApart K₂) (fuel₁ fuel₂ : Nat) :
    (world fuel₁).Lockstep (world fuel₂) (Matches K₁ K₂)
      (fun log₁ log₂ => Regular K₁ log₁ ∧ Regular K₂ log₂) (fun _ _ => True) := by
  have hsplit {l₁ l₁' l₂ l₂' : List Visit} (h : Regular K₁ (l₁ ++ l₁') ∧ Regular K₂ (l₂ ++ l₂')) :
      (Regular K₁ l₁ ∧ Regular K₂ l₂) ∧ Regular K₁ l₁' ∧ Regular K₂ l₂' := by
    obtain ⟨h₁, h₁'⟩ := h.1.of_append
    obtain ⟨h₂, h₂'⟩ := h.2.of_append
    exact ⟨⟨h₁, h₂⟩, h₁', h₂'⟩
  have hmakes {fuel₁ fuel₂ v w r₁ r₂ t u r₁' r₂'} (h : Matches K₁ K₂ r₁ r₂)
      (h₁ : (world fuel₁).makes v r₁ t r₁') (h₂ : (world fuel₂).makes w r₂ u r₂') :
      t.validator = v ∧ u.validator = w ∧ Matches K₁ K₂ r₁' r₂' := by
    rw [makes_world] at h₁ h₂
    obtain ⟨rfl, rfl⟩ := Prod.mk.inj h₁
    obtain ⟨rfl, rfl⟩ := Prod.mk.inj h₂
    exact ⟨rfl, rfl, h.newType v w⟩
  have haccesses {fuel₁ fuel₂ a demand es es' r₁ r₂ l₁ l₂ answer answer' r₁' r₂'}
      (h : Matches K₁ K₂ r₁ r₂) (hes : List.Forall₂ TypeExpr.Alike es es')
      (h₁ : (world fuel₁).accesses a demand es r₁ l₁ answer r₁')
      (h₂ : (world fuel₂).accesses a demand es' r₂ l₂ answer' r₂')
      (hlogs : Regular K₁ l₁ ∧ Regular K₂ l₂) :
      Answer.Alike answer answer' ∧ Matches K₁ K₂ r₁' r₂' ∧ True := by
    obtain ⟨hanswer, hmatches⟩ := h.accesses hK₁ hK₂ hes hlogs.1 hlogs.2 h₁ h₂
    exact ⟨hanswer, hmatches, trivial⟩
  -- By induction on how deep calls of functions are nested.
  induction fuel₁ generalizing fuel₂ with
  | zero => exact ⟨hsplit, trivial, fun _ _ => trivial, hmakes, haccesses, nofun⟩
  | succ fuel₁ ih =>
    refine ⟨hsplit, trivial, fun _ _ => trivial, hmakes, haccesses, fun h hfg hes h₁ h₂ hlogs => ?_⟩
    cases fuel₂ with
    | zero => exact h₂.elim
    | succ fuel₂ => exact (ih fuel₂).callsFunction h hfg hes h₁ h₂ hlogs

/-! ## Declarations -/

variable {space : Nat} {name : String}

theorem DeclaresForward.lockstep (h : Matches K₁ K₂ r₁ r₂)
    {o₁ o₂ : Except AliasError Accessor} (h₁ : DeclaresForward space name r₁ o₁ r₁')
    (h₂ : DeclaresForward space name r₂ o₂ r₂') :
    Likewise Eq o₁ o₂ ∧ Matches K₁ K₂ r₁' r₂' := by
  have hslot := h.accessor_eq space name
  have hsome := h.isSome_alias?_eq space name
  cases h₁ with
  | declared none₁ =>
    cases h₂ with
    | declared =>
      have hset : Matches K₁ K₂ (r₁.put space name .pending) (r₂.put space name .pending) := by
        refine h.put (fun entry hentry => ?_) trivial trivial .pending
        rw [none₁] at hentry
        cases hentry
      have hcounter : Counter.forwardDeclarations ≠ .normalizations := nofun
      exact ⟨.ok hslot, (hset.count space hcounter).note ..⟩
    | pending entry₂ | rejected entry₂ => rw [none₁, entry₂] at hsome; cases hsome
  | pending entry₁ =>
    cases h₂ with
    | declared none₂ => rw [entry₁, none₂] at hsome; cases hsome
    | pending => exact ⟨.ok hslot, h⟩
    | rejected entry₂ isDefined₂ =>
      obtain ⟨entry, hentry, hdefined⟩ := h.isDefined_iff.2 ⟨_, entry₂, isDefined₂⟩
      rw [entry₁] at hentry
      exact absurd (Option.some.inj hentry).symm hdefined
  | rejected entry₁ isDefined₁ =>
    obtain ⟨entry, hentry, hdefined⟩ := h.isDefined_iff.1 ⟨_, entry₁, isDefined₁⟩
    cases h₂ with
    | declared none₂ => rw [hentry] at none₂; cases none₂
    | pending entry₂ =>
      rw [hentry] at entry₂
      exact absurd (Option.some.inj entry₂) hdefined
    | rejected => exact ⟨.error, h.noteFailure ..⟩

/-- Alike expressions are bound alike. -/
theorem Binds.lockstep (h : Matches K₁ K₂ r₁ r₂) {source₁ source₂ : TypeExpr}
    (hsource : source₁.Alike source₂) {o₁ o₂ : Except AliasError Accessor}
    (h₁ : Binds space name source₁ r₁ o₁ r₁') (h₂ : Binds space name source₂ r₂ o₂ r₂') :
    Likewise Eq o₁ o₂ ∧ Matches K₁ K₂ r₁' r₂' := by
  have hslot := h.accessor_eq space name
  cases h₁ with
  | bound undefined₁ =>
    cases h₂ with
    | bound =>
      have hset := h.put undefined₁ (Alias.isFresh_ofSource (r₁.config space) source₁)
        (Alias.isFresh_ofSource (r₂.config space) source₂) (Alias.alike_ofSource hsource _ _)
      have hcounter : Counter.bindings ≠ .normalizations := nofun
      exact ⟨.ok hslot, (hset.count space hcounter).note ..⟩
    | rejected entry₂ isDefined₂ =>
      obtain ⟨entry, hentry, hdefined⟩ := h.isDefined_iff.2 ⟨_, entry₂, isDefined₂⟩
      exact absurd hdefined (undefined₁ entry hentry)
  | rejected entry₁ isDefined₁ =>
    obtain ⟨entry, hentry, hdefined⟩ := h.isDefined_iff.1 ⟨_, entry₁, isDefined₁⟩
    cases h₂ with
    | bound undefined₂ => exact absurd hdefined (undefined₂ entry hentry)
    | rejected => exact ⟨.error, h.noteFailure ..⟩

theorem LooksUp.lockstep (h : Matches K₁ K₂ r₁ r₂) {o₁ o₂ : Except AliasError Accessor}
    (h₁ : LooksUp space name r₁ o₁ r₁') (h₂ : LooksUp space name r₂ o₂ r₂') :
    Likewise Eq o₁ o₂ ∧ Matches K₁ K₂ r₁' r₂' := by
  have hsome := h.isSome_alias?_eq space name
  cases h₁ with
  | found entry₁ =>
    cases h₂ with
    | found => exact ⟨.ok (h.accessor_eq space name), h⟩
    | missing none₂ => rw [entry₁, none₂] at hsome; cases hsome
  | missing none₁ =>
    cases h₂ with
    | found entry₂ => rw [none₁, entry₂] at hsome; cases hsome
    | missing => exact ⟨.error, h⟩

/-! ## Literals -/

/-- Steps in turn go in lockstep if each step does. -/
theorem lockstep_inTurn {α β₁ β₂ : Type}
    {step₁ : α → Registry → List Visit → Except AliasError β₁ → Registry → Prop}
    {step₂ : α → Registry → List Visit → Except AliasError β₂ → Registry → Prop}
    {R : β₁ → β₂ → Prop} {as : List α} {log₁ log₂ : List Visit}
    {o₁ : Except AliasError (List β₁)} {o₂ : Except AliasError (List β₂)}
    (hstep : ∀ a ∈ as, ∀ {r₁ r₂ l₁ l₂ o₁ o₂ r₁' r₂'}, Matches K₁ K₂ r₁ r₂ →
      Regular K₁ l₁ → Regular K₂ l₂ → step₁ a r₁ l₁ o₁ r₁' → step₂ a r₂ l₂ o₂ r₂' →
      Likewise R o₁ o₂ ∧ Matches K₁ K₂ r₁' r₂')
    (h : Matches K₁ K₂ r₁ r₂) (hlog₁ : Regular K₁ log₁) (hlog₂ : Regular K₂ log₂)
    (h₁ : InTurn step₁ as r₁ log₁ o₁ r₁') (h₂ : InTurn step₂ as r₂ log₂ o₂ r₂') :
    Likewise (List.Forall₂ R) o₁ o₂ ∧ Matches K₁ K₂ r₁' r₂' := by
  -- the first step that fails is the same one in both, and the registries match up to there
  induction h₁ generalizing r₂ log₂ o₂ r₂' with
  | nil =>
    cases h₂
    exact ⟨.ok .nil, h⟩
  | cons first₁ _ ih =>
    obtain ⟨hfirst₁, hrest₁⟩ := hlog₁.of_append
    cases h₂ with
    | cons first₂ rest₂ =>
      obtain ⟨hfirst₂, hrest₂⟩ := hlog₂.of_append
      obtain ⟨⟨hb⟩, h'⟩ := hstep _ List.mem_cons_self h hfirst₁ hfirst₂ first₁ first₂
      obtain ⟨⟨hbs⟩, h''⟩ :=
        ih (fun a ha => hstep a (List.mem_cons_of_mem _ ha)) h' hrest₁ hrest₂ rest₂
      exact ⟨.ok (.cons hb hbs), h''⟩
    | failedFirst first₂ =>
      obtain ⟨⟨⟩, -⟩ := hstep _ List.mem_cons_self h hfirst₁ hlog₂ first₁ first₂
    | failedRest first₂ rest₂ =>
      obtain ⟨hfirst₂, hrest₂⟩ := hlog₂.of_append
      obtain ⟨-, h'⟩ := hstep _ List.mem_cons_self h hfirst₁ hfirst₂ first₁ first₂
      obtain ⟨⟨⟩, -⟩ := ih (fun a ha => hstep a (List.mem_cons_of_mem _ ha)) h' hrest₁ hrest₂ rest₂
  | failedFirst first₁ =>
    cases h₂ with
    | cons first₂ =>
      obtain ⟨⟨⟩, -⟩ := hstep _ List.mem_cons_self h hlog₁ hlog₂.of_append.1 first₁ first₂
    | failedFirst first₂ =>
      obtain ⟨⟨⟩, h'⟩ := hstep _ List.mem_cons_self h hlog₁ hlog₂ first₁ first₂
      exact ⟨.error, h'⟩
    | failedRest first₂ =>
      obtain ⟨⟨⟩, -⟩ := hstep _ List.mem_cons_self h hlog₁ hlog₂.of_append.1 first₁ first₂
  | failedRest first₁ _ ih =>
    obtain ⟨hfirst₁, hrest₁⟩ := hlog₁.of_append
    cases h₂ with
    | cons first₂ rest₂ =>
      obtain ⟨hfirst₂, hrest₂⟩ := hlog₂.of_append
      obtain ⟨-, h'⟩ := hstep _ List.mem_cons_self h hfirst₁ hfirst₂ first₁ first₂
      obtain ⟨⟨⟩, -⟩ := ih (fun a ha => hstep a (List.mem_cons_of_mem _ ha)) h' hrest₁ hrest₂ rest₂
    | failedFirst first₂ =>
      obtain ⟨⟨⟩, -⟩ := hstep _ List.mem_cons_self h hfirst₁ hlog₂ first₁ first₂
    | failedRest first₂ rest₂ =>
      obtain ⟨hfirst₂, hrest₂⟩ := hlog₂.of_append
      obtain ⟨-, h'⟩ := hstep _ List.mem_cons_self h hfirst₁ hfirst₂ first₁ first₂
      obtain ⟨⟨⟩, h''⟩ :=
        ih (fun a ha => hstep a (List.mem_cons_of_mem _ ha)) h' hrest₁ hrest₂ rest₂
      exact ⟨.error, h''⟩

/-- A name is read alike: it is declared in both registries or in neither, and then the preludes
decide. -/
theorem Reads.lockstep_string (hK₁ : ToldApart K₁) (hK₂ : ToldApart K₂)
    (h : Matches K₁ K₂ r₁ r₂) {fuel₁ fuel₂ : Nat} {prelude₁ prelude₂ : Prelude}
    (hpreludes : prelude₁.Alike prelude₂) {log₁ log₂ : List Visit}
    {o₁ o₂ : Except AliasError TypeExpr} (hlog₁ : Regular K₁ log₁) (hlog₂ : Regular K₂ log₂)
    (h₁ : Reads (world fuel₁) space prelude₁ (.string name) r₁ log₁ o₁ r₁')
    (h₂ : Reads (world fuel₂) space prelude₂ (.string name) r₂ log₂ o₂ r₂') :
    Likewise TypeExpr.Alike o₁ o₂ ∧ Matches K₁ K₂ r₁' r₂' := by
  have hsome := h.isSome_alias?_eq space name
  have hprelude := hpreludes name
  have haccess {answer₁ answer₂}
      (h₁ : (world fuel₁).accesses (r₁.accessor space name) .type [] r₁ log₁ answer₁ r₁')
      (h₂ : (world fuel₂).accesses (r₂.accessor space name) .type [] r₂ log₂ answer₂ r₂') :=
    h.accesses hK₁ hK₂ .nil hlog₁ hlog₂ h₁ (h.accessor_eq space name ▸ h₂)
  cases h₁ with
  | declared entry₁ accesses₁ =>
    cases h₂ with
    | declared _ accesses₂ =>
      obtain ⟨⟨⟨alike⟩⟩, h'⟩ := haccess accesses₁ accesses₂
      exact ⟨.ok (.leaf alike), h'⟩
    | failed _ accesses₂ => obtain ⟨⟨⟩, -⟩ := haccess accesses₁ accesses₂
    | supplied none₂ | unknown none₂ => rw [entry₁, none₂] at hsome; cases hsome
  | failed entry₁ accesses₁ =>
    cases h₂ with
    | declared _ accesses₂ => obtain ⟨⟨⟩, -⟩ := haccess accesses₁ accesses₂
    | failed _ accesses₂ =>
      obtain ⟨⟨⟩, h'⟩ := haccess accesses₁ accesses₂
      exact ⟨.error, h'⟩
    | supplied none₂ | unknown none₂ => rw [entry₁, none₂] at hsome; cases hsome
  | supplied none₁ supplied₁ =>
    cases h₂ with
    | declared entry₂ | failed entry₂ => rw [none₁, entry₂] at hsome; cases hsome
    | supplied _ supplied₂ =>
      rw [supplied₁, supplied₂] at hprelude
      obtain ⟨alike⟩ := hprelude
      exact ⟨.ok (.leaf alike), h⟩
    | unknown _ notSupplied₂ => rw [supplied₁, notSupplied₂] at hprelude; cases hprelude
  | unknown none₁ notSupplied₁ =>
    cases h₂ with
    | declared entry₂ | failed entry₂ => rw [none₁, entry₂] at hsome; cases hsome
    | supplied _ supplied₂ => rw [notSupplied₁, supplied₂] at hprelude; cases hprelude
    | unknown => exact ⟨.error, h⟩

/-- **Literals are read alike** from matching registries. -/
theorem Reads.lockstep (hK₁ : ToldApart K₁) (hK₂ : ToldApart K₂) {fuel₁ fuel₂ : Nat}
    {prelude₁ prelude₂ : Prelude} (hpreludes : prelude₁.Alike prelude₂) {v : Json.Value} :
    ∀ {r₁ r₂ r₁' r₂' : Registry} {log₁ log₂ : List Visit} {o₁ o₂ : Except AliasError TypeExpr},
      Matches K₁ K₂ r₁ r₂ → Regular K₁ log₁ → Regular K₂ log₂ →
      Reads (world fuel₁) space prelude₁ v r₁ log₁ o₁ r₁' →
      Reads (world fuel₂) space prelude₂ v r₂ log₂ o₂ r₂' →
      Likewise TypeExpr.Alike o₁ o₂ ∧ Matches K₁ K₂ r₁' r₂' := by
  induction v using Json.Value.memberInduction with
  | null =>
    rintro r₁ r₂ _ _ _ _ _ _ h - - ⟨⟩ ⟨⟩
    exact ⟨.ok .data, h⟩
  | bool value =>
    rintro r₁ r₂ _ _ _ _ _ _ h - - ⟨⟩ ⟨⟩
    exact ⟨.ok .data, h⟩
  | number value =>
    rintro r₁ r₂ _ _ _ _ _ _ h - - ⟨⟩ ⟨⟩
    exact ⟨.ok .data, h⟩
  | string name =>
    intro r₁ r₂ r₁' r₂' log₁ log₂ o₁ o₂ h hlog₁ hlog₂ h₁ h₂
    exact h₁.lockstep_string hK₁ hK₂ h hpreludes hlog₁ hlog₂ h₂
  | array items ih =>
    intro r₁ r₂ r₁' r₂' log₁ log₂ o₁ o₂ h hlog₁ hlog₂ h₁ h₂
    cases h₁ with
    | array items₁ =>
      cases h₂ with
      | array items₂ =>
        obtain ⟨hitems, h'⟩ := lockstep_inTurn (fun v hv => ih v hv) h hlog₁ hlog₂ items₁ items₂
        exact ⟨hitems.map fun _ _ => .sequence, h'⟩
  | object members ih =>
    intro r₁ r₂ r₁' r₂' log₁ log₂ o₁ o₂ h hlog₁ hlog₂ h₁ h₂
    cases h₁ with
    | object members₁ =>
      cases h₂ with
      | object members₂ =>
        obtain ⟨hmembers, h'⟩ := lockstep_inTurn (fun v hv => by
          obtain ⟨m, hm, rfl⟩ := List.mem_map.1 hv
          exact ih m hm) h hlog₁ hlog₂ members₁ members₂
        exact ⟨hmembers.map fun _ _ hes => .record (.zip hes), h'⟩

end Lockstep

end Registry

end NamedTypes
