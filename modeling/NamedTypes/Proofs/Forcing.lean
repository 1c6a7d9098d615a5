import NamedTypes.Proofs.Declarations
import NamedTypes.Session.Operations
import Mathlib.Data.List.Pairwise

/-! # Forcing
What a cell holds while computations force it, also while they force it inside each other. A
producer is a computation (`Computation`) that may force the very cell that it is to fill, any
number of times and to any depth, before it ends; so is a whole sequence of such forces. However
they run, the cell is filled at most once, and every force answers with what it holds
(`cell_filled_once`).

The rest of the state is not fixed. A cell has a `Cell.Place` in it, which is all that forcing needs
to know: what it reads there, and that writing fills the place. -/

namespace NamedTypes

variable {σ : Type}

/-- The place of a cell in a state. -/
structure Cell.Place (cell : Cell (ExceptT AliasError (StateT σ Option))) where
  /-- Whether the place is there. -/
  IsPresent : σ → Prop
  /-- What is in the place. -/
  held : σ → Option Ty
  read_eq : ∀ s, cell.read s = some (.ok (held s), s)
  write_eq : ∀ t s, IsPresent s → held s = none →
    ∃ s', cell.write t s = some (.ok (), s') ∧ IsPresent s' ∧ held s' = some t

/-- Whether a force runs its producer: with a producer that does not end, it would not end. -/
def Cell.demands (cell : Cell (ExceptT AliasError (StateT σ Option))) (s : σ) : Bool :=
  (cell.force (fun _ => none) s).isNone

variable {cell : Cell (ExceptT AliasError (StateT σ Option))}

namespace Cell.Place

/-- What changes the state, but not the place. -/
structure Elsewhere (place : cell.Place) where
  /-- The state after, from the one before. -/
  act : σ → σ
  isPresent : ∀ s, place.IsPresent s → place.IsPresent (act s)
  held_eq : ∀ s, place.held (act s) = place.held s

/-- What may be computed beside a cell. -/
inductive Computation (place : cell.Place)
  /-- It ends with an outcome. -/
  | finish (outcome : Except AliasError Ty)
  /-- It changes the state elsewhere, and goes on with what it finds in the state. -/
  | act (elsewhere : place.Elsewhere) (next : σ → Computation place)
  /-- It forces the cell, and goes on with the answer. -/
  | force (producer : Computation place) (next : Except AliasError Ty → Computation place)

namespace Computation

variable {place : cell.Place}

/-- Runs a computation. A failed force does not end it. -/
def run : Computation place → ExceptT AliasError (StateT σ Option) Ty
  | .finish outcome => fun s => some (outcome, s)
  | .act elsewhere next => fun s => (next s).run (elsewhere.act s)
  | .force producer next => fun s =>
    (cell.force producer.run s).bind fun (answer, s') => (next answer).run s'

theorem run_force (producer : Computation place) (next : Except AliasError Ty → Computation place)
    (s : σ) : (force producer next).run s =
      (cell.force producer.run s).bind fun (answer, s') => (next answer).run s' := rfl

/-- The states in which a computation is while it runs, in order. -/
def states : Computation place → σ → List σ
  | .finish _, s => [s]
  | .act elsewhere next, s => s :: (next s).states (elsewhere.act s)
  | .force producer next, s =>
    s :: ((if cell.demands s then producer.states s else []) ++
      (cell.force producer.run s).elim [] fun (answer, s') => (next answer).states s')

/-- The forces that are made while a computation runs, each with its producer and with the state in
which it begins. A force is followed by those that its producer makes. -/
def forces : Computation place → σ → List (Computation place × σ)
  | .finish _, _ => []
  | .act elsewhere next, s => (next s).forces (elsewhere.act s)
  | .force producer next, s =>
    (producer, s) :: ((if cell.demands s then producer.forces s else []) ++
      (cell.force producer.run s).elim [] fun (answer, s') => (next answer).forces s')

end Computation

variable {place : cell.Place} {s s' s₁ : σ} {answer outcome : Except AliasError Ty}

/-! ## What the cell holds -/

/-- What the cell holds in a state it holds in another, too. -/
def Precedes (place : cell.Place) (s s' : σ) : Prop :=
  ∀ t, place.held s = some t → place.held s' = some t

theorem Precedes.refl (s : σ) : place.Precedes s s := fun _ => id

theorem Precedes.trans {s s₁ s' : σ} (h : place.Precedes s s₁) (h' : place.Precedes s₁ s') :
    place.Precedes s s' :=
  fun t ht => h' t (h t ht)

/-- An empty cell may come to hold anything. -/
theorem Precedes.of_empty (h : place.held s = none) : place.Precedes s s' := by
  intro t ht
  rw [h] at ht
  cases ht

theorem Elsewhere.precedes (elsewhere : place.Elsewhere) (s : σ) :
    place.Precedes s (elsewhere.act s) := fun _ ht => (elsewhere.held_eq s).trans ht

/-! ## One force -/

/-- Everything that a force can do. -/
inductive Forced (place : cell.Place) (produce : ExceptT AliasError (StateT σ Option) Ty) (s : σ) :
    Except AliasError Ty → σ → Prop
  /-- The cell holds a type, which is the answer. -/
  | kept {t : Ty} (held : place.held s = some t) : Forced place produce s (.ok t) s
  /-- The producer fails. -/
  | failed {error : AliasError} {s₁ : σ} (empty : place.held s = none)
    (produced : produce s = some (.error error, s₁)) : Forced place produce s (.error error) s₁
  /-- The producer makes a type, but the cell has been filled in the meantime. -/
  | overtaken {made t : Ty} {s₁ : σ} (empty : place.held s = none)
    (produced : produce s = some (.ok made, s₁)) (filled : place.held s₁ = some t) :
    Forced place produce s (.ok t) s₁
  /-- The cell is filled with the type that the producer makes. -/
  | made {t : Ty} {s₁ s' : σ} (empty : place.held s = none)
    (produced : produce s = some (.ok t, s₁)) (still : place.held s₁ = none)
    (held : place.held s' = some t) :
    Forced place produce s (.ok t) s'

/-- A force reads the cell, and reads it again when its producer has made a type. -/
theorem force_apply (place : cell.Place) (produce : ExceptT AliasError (StateT σ Option) Ty)
    (s : σ) : cell.force produce s = match place.held s with
      | some t => some (.ok t, s)
      | none => (produce s).bind fun
        | (.error error, s₁) => some (.error error, s₁)
        | (.ok made, s₁) => match place.held s₁ with
          | some t => some (.ok t, s₁)
          | none =>
            (cell.write made s₁).map fun (written, s') => (written.map fun _ => made, s') := by
  rw [Cell.force, Action.bind_apply, place.read_eq, Option.bind_some]
  cases place.held s with
  | some t => rfl
  | none =>
    dsimp only
    rw [Action.bind_apply]
    congr 1
    funext produced
    obtain ⟨outcome, s₁⟩ := produced
    cases outcome with
    | error error => rfl
    | ok made =>
      dsimp only
      rw [Action.bind_apply, place.read_eq, Option.bind_some]
      cases place.held s₁ with
      | some t => rfl
      | none =>
        dsimp only
        rw [Action.bind_apply]
        cases cell.write made s₁ with
        | none => rfl
        | some written =>
          obtain ⟨outcome, s'⟩ := written
          cases outcome <;> rfl

/-- **A force ends if its producer does**, in one of the ways. -/
theorem exists_forced {produce : ExceptT AliasError (StateT σ Option) Ty}
    (hs : place.IsPresent s) (h : produce s = some (outcome, s₁)) (hs₁ : place.IsPresent s₁) :
    ∃ answer s', cell.force produce s = some (answer, s') ∧ place.IsPresent s' ∧
      place.Forced produce s answer s' := by
  rw [place.force_apply]
  cases hempty : place.held s with
  | some t => exact ⟨.ok t, s, rfl, hs, .kept hempty⟩
  | none =>
    simp only [h, Option.bind_some]
    cases outcome with
    | error error => exact ⟨.error error, s₁, rfl, hs₁, .failed hempty h⟩
    | ok made =>
      cases hheld : place.held s₁ with
      | some t => exact ⟨.ok t, s₁, by simp [hheld], hs₁, .overtaken hempty h hheld⟩
      | none =>
        obtain ⟨s', hwrite, hs', hfilled⟩ := place.write_eq made s₁ hs₁ hheld
        exact ⟨.ok made, s', by simp [hheld, hwrite, Except.map], hs',
          .made hempty h hheld hfilled⟩

/-- A producer is run if and only if the cell is empty. -/
theorem demands_iff (place : cell.Place) (s : σ) :
    cell.demands s = true ↔ place.held s = none := by
  rw [Cell.demands, place.force_apply]
  cases place.held s <;> simp

namespace Forced

variable {produce : ExceptT AliasError (StateT σ Option) Ty}

theorem precedes (h : place.Forced produce s answer s') : place.Precedes s s' := by
  cases h with
  | kept held => exact .refl s
  | failed empty produced => exact .of_empty empty
  | overtaken empty produced filled => exact .of_empty empty
  | made empty produced still held => exact .of_empty empty

/-- What the producer has left in the cell stays there. -/
theorem precedes_of_produced (h : place.Forced produce s answer s') (empty : place.held s = none)
    (produced : produce s = some (outcome, s₁)) : place.Precedes s₁ s' := by
  cases h with
  | kept held => rw [empty] at held; cases held
  | failed _ produced' =>
    rw [produced] at produced'
    cases produced'
    exact .refl _
  | overtaken _ produced' filled =>
    rw [produced] at produced'
    cases produced'
    exact .refl _
  | made _ produced' still =>
    rw [produced] at produced'
    cases produced'
    exact .of_empty still

/-- A force that succeeds answers with what the cell holds. -/
theorem held_of_ok (h : place.Forced produce s answer s') {t : Ty} (ht : answer = .ok t) :
    place.held s' = some t := by
  cases h with
  | kept held => cases ht; exact held
  | failed empty produced => cases ht
  | overtaken empty produced filled => cases ht; exact filled
  | made empty produced still held => cases ht; exact held

end Forced

/-! ## Runs -/

namespace Computation

/-- **A computation ends**, and the cell keeps what it holds. -/
theorem exists_run (p : Computation place) {s : σ} (hs : place.IsPresent s) :
    ∃ outcome s', p.run s = some (outcome, s') ∧ place.IsPresent s' ∧ place.Precedes s s' := by
  induction p generalizing s with
  | finish outcome => exact ⟨outcome, s, rfl, hs, .refl s⟩
  | act elsewhere next ih =>
    obtain ⟨outcome, s', hrun, hs', hprecedes⟩ := ih s (elsewhere.isPresent s hs)
    exact ⟨outcome, s', hrun, hs', (elsewhere.precedes s).trans hprecedes⟩
  | force producer next ihproducer ihnext =>
    obtain ⟨made, s₁, hproduced, hs₁, -⟩ := ihproducer hs
    obtain ⟨answer, s₂, hforce, hs₂, hforced⟩ := exists_forced hs hproduced hs₁
    obtain ⟨outcome, s', hrun, hs', hprecedes⟩ := ihnext answer hs₂
    refine ⟨outcome, s', ?_, hs', hforced.precedes.trans hprecedes⟩
    rw [run_force, hforce]
    exact hrun

/-- A force of a producer ends, in one of the ways. -/
theorem exists_force (p : Computation place) {s : σ} (hs : place.IsPresent s) :
    ∃ answer s', cell.force p.run s = some (answer, s') ∧ place.IsPresent s' ∧
      place.Forced p.run s answer s' := by
  obtain ⟨outcome, s₁, hrun, hs₁, -⟩ := p.exists_run hs
  exact exists_forced hs hrun hs₁

theorem precedes_of_run {p : Computation place} (hs : place.IsPresent s)
    (hrun : p.run s = some (outcome, s')) : place.Precedes s s' := by
  obtain ⟨_, _, hrun', -, hprecedes⟩ := p.exists_run hs
  cases hrun.symm.trans hrun'
  exact hprecedes

/-- A producer that a force runs ends before the force does. -/
theorem exists_produced {p : Computation place} (hs : place.IsPresent s)
    (empty : place.held s = none) (hforced : place.Forced p.run s answer s') :
    ∃ made s₁, p.run s = some (made, s₁) ∧ place.Precedes s₁ s' := by
  obtain ⟨made, s₁, hproduced, -, -⟩ := p.exists_run hs
  exact ⟨made, s₁, hproduced, hforced.precedes_of_produced empty hproduced⟩

/-- A computation that forces the cell first goes on with the answer. -/
theorem exists_of_run_force {producer : Computation place}
    {next : Except AliasError Ty → Computation place} (hs : place.IsPresent s)
    (hrun : (force producer next).run s = some (outcome, s')) :
    ∃ answer s₁, cell.force producer.run s = some (answer, s₁) ∧ place.IsPresent s₁ ∧
      place.Forced producer.run s answer s₁ ∧ (next answer).run s₁ = some (outcome, s') := by
  obtain ⟨answer, s₁, hforce, hs₁, hforced⟩ := producer.exists_force hs
  rw [run_force, hforce] at hrun
  exact ⟨answer, s₁, hforce, hs₁, hforced, hrun⟩

/-! ### States -/

theorem mem_states_force {producer : Computation place}
    {next : Except AliasError Ty → Computation place} {u : σ}
    (hforce : cell.force producer.run s = some (answer, s₁)) :
    u ∈ (force producer next).states s ↔
      u = s ∨ (place.held s = none ∧ u ∈ producer.states s) ∨ u ∈ (next answer).states s₁ := by
  rw [states, hforce, List.mem_cons, List.mem_append, ← place.demands_iff]
  cases cell.demands s <;> simp

/-- What a cell holds at first it holds in each state, and what it holds in one, in the end. -/
theorem precedes_of_mem_states {p : Computation place} {s s' : σ}
    {outcome : Except AliasError Ty} (hs : place.IsPresent s)
    (hrun : p.run s = some (outcome, s')) {u : σ} (hu : u ∈ p.states s) :
    place.Precedes s u ∧ place.Precedes u s' := by
  induction p generalizing s s' outcome with
  | finish outcome =>
    cases hrun
    obtain rfl := List.mem_singleton.1 hu
    exact ⟨.refl _, .refl _⟩
  | act elsewhere next ih =>
    have hs₁ := elsewhere.isPresent s hs
    rcases List.mem_cons.1 hu with rfl | hu
    · exact ⟨.refl _, (elsewhere.precedes u).trans (precedes_of_run hs₁ hrun)⟩
    · obtain ⟨hbefore, hafter⟩ := ih s hs₁ hrun hu
      exact ⟨(elsewhere.precedes s).trans hbefore, hafter⟩
  | force producer next ihproducer ihnext =>
    obtain ⟨answer, s₁, hforce, hs₁, hforced, hrun⟩ := exists_of_run_force hs hrun
    have hprecedes := precedes_of_run hs₁ hrun
    -- The state is the one at the begin, one that the producer passes, or one after the answer.
    rcases (mem_states_force hforce).1 hu with rfl | ⟨empty, hu⟩ | hu
    · exact ⟨.refl _, hforced.precedes.trans hprecedes⟩
    · obtain ⟨made, s₂, hproduced, hends⟩ := exists_produced hs empty hforced
      obtain ⟨hbefore, hafter⟩ := ihproducer hs hproduced hu
      exact ⟨hbefore, hafter.trans (hends.trans hprecedes)⟩
    · obtain ⟨hbefore, hafter⟩ := ihnext answer hs₁ hrun hu
      exact ⟨hforced.precedes.trans hbefore, hafter⟩

/-- **What a cell holds it holds in all later states**, inside of producers and between forces. -/
theorem pairwise_states (p : Computation place) {s : σ} (hs : place.IsPresent s) :
    (p.states s).Pairwise place.Precedes := by
  induction p generalizing s with
  | finish outcome => exact List.pairwise_singleton _ s
  | act elsewhere next ih =>
    have hs₁ := elsewhere.isPresent s hs
    obtain ⟨outcome, s', hrun, -, -⟩ := (next s).exists_run hs₁
    exact List.pairwise_cons.2 ⟨fun u hu =>
      (elsewhere.precedes s).trans (precedes_of_mem_states hs₁ hrun hu).1, ih s hs₁⟩
  | force producer next ihproducer ihnext =>
    obtain ⟨outcome, s', hrun, -, -⟩ := (force producer next).exists_run hs
    have hbegins := fun u (hu : u ∈ (force producer next).states s) =>
      (precedes_of_mem_states hs hrun hu).1
    obtain ⟨answer, s₁, hforce, hs₁, hforced, hrun⟩ := exists_of_run_force hs hrun
    rw [states, hforce] at hbegins ⊢
    -- the states of the producer, if it runs, precede the answer, and those of the rest follow it
    refine List.pairwise_cons.2 ⟨fun u hu => hbegins u (List.mem_cons_of_mem _ hu),
      List.pairwise_append.2 ⟨?_, ihnext answer hs₁, fun u hu w hw => ?_⟩⟩
    · split
      · exact ihproducer hs
      · exact .nil
    · split at hu
      · rename_i demanded
        obtain ⟨made, s₂, hproduced, hends⟩ :=
          exists_produced hs ((place.demands_iff s).1 demanded) hforced
        exact (precedes_of_mem_states hs hproduced hu).2.trans
          (hends.trans (precedes_of_mem_states hs₁ hrun hw).1)
      · cases hu

/-! ### Forces -/

theorem mem_forces_force {producer : Computation place}
    {next : Except AliasError Ty → Computation place} {f : Computation place × σ}
    (hforce : cell.force producer.run s = some (answer, s₁)) :
    f ∈ (force producer next).forces s ↔ f = (producer, s) ∨
      (place.held s = none ∧ f ∈ producer.forces s) ∨ f ∈ (next answer).forces s₁ := by
  rw [forces, hforce, List.mem_cons, List.mem_append, ← place.demands_iff]
  cases cell.demands s <;> simp

/-- A force that fills the cell with the type: nothing was there when it began and when its producer
had made the type. -/
structure Fills (f : Computation place × σ) (t : Ty) : Prop where
  empty : place.held f.2 = none
  filled : ∃ s₁ s', f.1.run f.2 = some (.ok t, s₁) ∧ place.held s₁ = none ∧
    cell.force f.1.run f.2 = some (.ok t, s') ∧ place.held s' = some t

/-- The place is there when a force begins, and what the force leaves in it is there in the end. -/
theorem precedes_of_mem_forces {p : Computation place} {s s' : σ}
    {outcome : Except AliasError Ty} (hs : place.IsPresent s)
    (hrun : p.run s = some (outcome, s')) {f : Computation place × σ} (hf : f ∈ p.forces s) :
    place.IsPresent f.2 ∧ ∀ answer u, cell.force f.1.run f.2 = some (answer, u) →
      place.Precedes u s' := by
  induction p generalizing s s' outcome with
  | finish outcome => cases hf
  | act elsewhere next ih => exact ih s (elsewhere.isPresent s hs) hrun hf
  | force producer next ihproducer ihnext =>
    obtain ⟨answer, s₁, hforce, hs₁, hforced, hrun⟩ := exists_of_run_force hs hrun
    have hprecedes := precedes_of_run hs₁ hrun
    rcases (mem_forces_force hforce).1 hf with rfl | ⟨empty, hf⟩ | hf
    · refine ⟨hs, fun answer' u hu => ?_⟩
      cases hforce.symm.trans hu
      exact hprecedes
    · obtain ⟨made, s₂, hproduced, hends⟩ := exists_produced hs empty hforced
      obtain ⟨hpresent, hinner⟩ := ihproducer hs hproduced hf
      exact ⟨hpresent, fun answer' u hu => (hinner answer' u hu).trans (hends.trans hprecedes)⟩
    · exact ihnext answer hs₁ hrun hf

/-- A cell that comes to hold a type has been filled by a force. -/
theorem exists_fills {p : Computation place} {s s' : σ}
    {outcome : Except AliasError Ty} (hs : place.IsPresent s)
    (empty : place.held s = none) (hrun : p.run s = some (outcome, s')) {t : Ty}
    (ht : place.held s' = some t) : ∃ f ∈ p.forces s, Fills f t := by
  induction p generalizing s s' outcome with
  | finish outcome =>
    cases hrun
    rw [empty] at ht
    cases ht
  | act elsewhere next ih =>
    exact ih s (elsewhere.isPresent s hs) ((elsewhere.held_eq s).trans empty) hrun ht
  | force producer next ihproducer ihnext =>
    obtain ⟨answer, s₁, hforce, hs₁, hforced, hrun⟩ := exists_of_run_force hs hrun
    -- the cell is filled by the first force, or after it
    cases hheld : place.held s₁ with
    | none =>
      obtain ⟨f, hf, hfills⟩ := ihnext answer hs₁ hheld hrun ht
      exact ⟨f, (mem_forces_force hforce).2 (.inr (.inr hf)), hfills⟩
    | some u =>
      obtain rfl : u = t :=
        Option.some.inj ((precedes_of_run hs₁ hrun u hheld).symm.trans ht)
      have hinner {made : Except AliasError Ty} (hproduced : producer.run s = some (made, s₁)) :
          ∃ f ∈ (force producer next).forces s, Fills f u := by
        obtain ⟨f, hf, hfills⟩ := ihproducer hs empty hproduced hheld
        exact ⟨f, (mem_forces_force hforce).2 (.inr (.inl ⟨empty, hf⟩)), hfills⟩
      cases hforced with
      | kept held => cases empty.symm.trans held
      -- this force has written nothing, so it was one that its producer made
      | failed _ produced => exact hinner produced
      | overtaken _ produced => exact hinner produced
      | made _ produced still held =>
        cases held.symm.trans hheld
        exact ⟨(producer, s), (mem_forces_force hforce).2 (.inl rfl), empty, _, _, produced, still,
          hforce, held⟩

/-- **What an empty cell comes to hold** is what one of the forces fills it with. -/
theorem held_eq_some_iff {p : Computation place} {s : σ} (hs : place.IsPresent s)
    (empty : place.held s = none) (hrun : p.run s = some (outcome, s')) {t : Ty} :
    place.held s' = some t ↔ ∃ f ∈ p.forces s, Fills f t := by
  refine ⟨exists_fills hs empty hrun, ?_⟩
  rintro ⟨f, hf, -, s₁, u, -, -, hforce, hheld⟩
  exact (precedes_of_mem_forces hs hrun hf).2 _ u hforce t hheld

/-! ### What is kept to -/

theorem mem_states_self (p : Computation place) (s : σ) : s ∈ p.states s := by
  cases p <;> exact List.mem_cons_self

/-- The last state is the one that the computation ends in. -/
theorem getLast?_states {p : Computation place} {s s' : σ} {outcome : Except AliasError Ty}
    (hs : place.IsPresent s) (hrun : p.run s = some (outcome, s')) :
    (p.states s).getLast? = some s' := by
  induction p generalizing s s' outcome with
  | finish outcome => cases hrun; rfl
  | act elsewhere next ih =>
    rw [states, List.getLast?_cons, ih s (elsewhere.isPresent s hs) hrun, Option.getD_some]
  | force producer next _ ihnext =>
    obtain ⟨answer, s₁, hforce, hs₁, -, hrun⟩ := exists_of_run_force hs hrun
    rw [states, hforce, List.getLast?_cons, List.getLast?_append, Option.elim,
      ihnext answer hs₁ hrun, Option.some_or, Option.getD_some]

/-- A force begins and ends in states of the computation. -/
theorem mem_states_of_mem_forces {p : Computation place} {s : σ} (hs : place.IsPresent s)
    {f : Computation place × σ} (hf : f ∈ p.forces s) : f.2 ∈ p.states s ∧
      ∀ answer u, cell.force f.1.run f.2 = some (answer, u) → u ∈ p.states s := by
  induction p generalizing s with
  | finish outcome => cases hf
  | act elsewhere next ih =>
    obtain ⟨hbegins, hends⟩ := ih s (elsewhere.isPresent s hs) hf
    exact ⟨List.mem_cons_of_mem _ hbegins, fun answer u hu =>
      List.mem_cons_of_mem _ (hends answer u hu)⟩
  | force producer next ihproducer ihnext =>
    obtain ⟨answer, s₁, hforce, hs₁, -⟩ := producer.exists_force hs
    have hmem (u : σ) : u ∈ (force producer next).states s ↔ u = s ∨
        (place.held s = none ∧ u ∈ producer.states s) ∨ u ∈ (next answer).states s₁ :=
      mem_states_force hforce
    -- The forcing is this one, one inside the producer, or one after the answer.
    rcases (mem_forces_force hforce).1 hf with rfl | ⟨empty, hf⟩ | hf
    · refine ⟨(hmem _).2 (.inl rfl), fun answer' u hu => ?_⟩
      cases hforce.symm.trans hu
      exact (hmem _).2 (.inr (.inr (mem_states_self _ _)))
    · obtain ⟨hbegins, hends⟩ := ihproducer hs hf
      exact ⟨(hmem _).2 (.inr (.inl ⟨empty, hbegins⟩)), fun answer' u hu =>
        (hmem _).2 (.inr (.inl ⟨empty, hends answer' u hu⟩))⟩
    · obtain ⟨hbegins, hends⟩ := ihnext answer hs₁ hf
      exact ⟨(hmem _).2 (.inr (.inr hbegins)), fun answer' u hu =>
        (hmem _).2 (.inr (.inr (hends answer' u hu)))⟩

/-- What every force keeps to, with the answer that it gives and the state that it ends in. -/
structure Answers (f : Computation place × σ) (answer : Except AliasError Ty) (s' : σ) : Prop where
  /-- The producer is run if and only if the cell is empty. -/
  demands_iff : cell.demands f.2 = true ↔ place.held f.2 = none
  /-- A producer has an outcome. -/
  isSome_run : (f.1.run f.2).isSome
  /-- A type that is the answer is what the cell holds. -/
  held_eq : ∀ t, answer = .ok t → place.held s' = some t
  /-- What the cell holds is the answer, and nothing else happens. -/
  kept : ∀ t, place.held f.2 = some t → answer = .ok t ∧ s' = f.2
  /-- A type that the producer makes is the answer, unless the cell holds another one by then. -/
  made : ∀ t s₁, place.held f.2 = none → f.1.run f.2 = some (.ok t, s₁) →
    answer = .ok ((place.held s₁).getD t) ∧ ((place.held s₁).isSome → s' = s₁)
  /-- A producer that fails is the last thing that happens. The cell is empty then, but for what the
  forces of the producer have filled it with. -/
  failed : ∀ error s₁, place.held f.2 = none → f.1.run f.2 = some (.error error, s₁) →
    answer = .error error ∧ s' = s₁ ∧
      ∀ t, place.held s' = some t ↔ ∃ g ∈ f.1.forces f.2, Fills g t

theorem answers_of_forced {p : Computation place} (hs : place.IsPresent s)
    (h : place.Forced p.run s answer s') : Answers (p, s) answer s' where
  demands_iff := place.demands_iff s
  isSome_run := by
    obtain ⟨outcome, s₁, hrun, -, -⟩ := p.exists_run hs
    exact Option.isSome_of_eq_some hrun
  held_eq t ht := h.held_of_ok ht
  kept t ht := by
    cases h with
    | kept held =>
      cases held.symm.trans ht
      exact ⟨rfl, rfl⟩
    | failed empty => cases empty.symm.trans ht
    | overtaken empty => cases empty.symm.trans ht
    | made empty => cases empty.symm.trans ht
  made t s₁ empty hrun := by
    cases h with
    | kept held => cases empty.symm.trans held
    | failed _ produced => cases hrun.symm.trans produced
    | overtaken _ produced filled =>
      cases hrun.symm.trans produced
      -- The producer has filled the cell itself, so the type that it makes is dropped.
      exact ⟨by rw [filled, Option.getD_some], fun _ => rfl⟩
    | made _ produced still held =>
      cases hrun.symm.trans produced
      exact ⟨by rw [still, Option.getD_none], fun hsome => by simp [still] at hsome⟩
  failed error s₁ empty hrun := by
    cases h with
    | kept held => cases empty.symm.trans held
    | failed _ produced =>
      cases hrun.symm.trans produced
      exact ⟨rfl, rfl, fun t => held_eq_some_iff hs empty hrun⟩
    | overtaken _ produced => cases hrun.symm.trans produced
    | made _ produced => cases hrun.symm.trans produced

end Computation

end Cell.Place

/-! ## The cells of the program -/

/-- The place of a cell that is kept under a name. -/
def Session.cellPlace (name : String) : (Session.cell name).Place where
  IsPresent _ := True
  held s := s.cells.get? name
  read_eq _ := rfl
  write_eq t s _ _ := ⟨{ s with cells := s.cells.insert name t }, rfl, trivial,
    Table.get?_insert_self _ _ _⟩

/-- The place of the cell of a plain alias, which is there from the time the name is bound. -/
def Registry.aliasPlace (a : Accessor) : (Registry.aliasCell a).Place where
  IsPresent r := ∃ source kept, r.alias? a = some (.plain source kept)
  held r := (r.alias? a).bind Alias.type?
  read_eq _ := rfl
  write_eq t r hr _ := by
    obtain ⟨source, kept, hentry⟩ := hr
    have hentry' := Registry.alias?_modifyAlias_self hentry (Alias.keep t)
    exact ⟨r.modifyAlias a (Alias.keep t), rfl, ⟨source, some t, hentry'⟩, by rw [hentry']; rfl⟩

open Cell.Place in
/-- **A cell is filled once, and every answer is what it holds.** Let a computation force a cell any
number of times, with producers that do the same. It ends. What the cell holds in one of its states
it holds in all later ones, and every force that is made on the way, at whatever depth, begins and
ends in one of the states and keeps to `Answers`. -/
theorem cell_filled_once (place : cell.Place) (p : place.Computation) {s : σ}
    (hs : place.IsPresent s) :
    (∃ outcome s', p.run s = some (outcome, s') ∧ (p.states s).getLast? = some s') ∧
    (p.states s).Pairwise place.Precedes ∧
    ∀ f ∈ p.forces s, f.2 ∈ p.states s ∧ ∃ answer u,
      cell.force f.1.run f.2 = some (answer, u) ∧ u ∈ p.states s ∧
        Computation.Answers f answer u := by
  obtain ⟨outcome, s', hrun, -, -⟩ := p.exists_run hs
  refine ⟨⟨outcome, s', hrun, Computation.getLast?_states hs hrun⟩, p.pairwise_states hs,
    fun f hf => ?_⟩
  have hf₂ := (Computation.precedes_of_mem_forces hs hrun hf).1
  obtain ⟨hbegins, hends⟩ := Computation.mem_states_of_mem_forces hs hf
  obtain ⟨answer, u, hforce, -, hforced⟩ := f.1.exists_force hf₂
  exact ⟨hbegins, answer, u, hforce, hends answer u hforce,
    Computation.answers_of_forced hf₂ hforced⟩

open Cell.Place in
/-- A producer forces its own cell twice before it ends: with a producer that fails, and with one
that makes a type. That type is kept, whether the outer producer makes another one, as it does here
for a cell of its own, or fails, as here for the cell of an alias. -/
theorem inner_type_is_kept :
    let int : Ty := ⟨0, .primitive .int⟩
    let str : Ty := ⟨1, .primitive .str⟩
    let error : AliasError := .undefinedAlias "Key"
    let own := Session.cellPlace "own"
    let making : own.Computation :=
      .force (.finish (.error error)) fun _ => .force (.finish (.ok int)) fun _ => .finish (.ok str)
    let a : Accessor := ⟨0, "Id", 0⟩
    let r := ((Registry.bind 0 "Id" (.leaf str)).run.run (Registry.addSpace {} "main" {}).2).2
    let aliased := Registry.aliasPlace a
    let failing : aliased.Computation :=
      .force (.finish (.error error)) fun _ => .force (.finish (.ok int)) fun _ =>
        .finish (.error error)
    own.IsPresent {} ∧ own.held {} = none ∧
      (∃ s₁, (Session.cell "own").force making.run {} = some (.ok int, s₁) ∧
        own.held s₁ = some int) ∧
      aliased.IsPresent r ∧ aliased.held r = none ∧
      ∃ r₁, (Registry.aliasCell a).force failing.run r = some (.error error, r₁) ∧
        aliased.held r₁ = some int := by
  intro int str error own making a r aliased failing
  have hbound : (Registry.bind 0 "Id" (.leaf str)).toAction (Registry.addSpace {} "main" {}).2 =
      some (.ok a, r) := rfl
  have hentry : r.alias? a = some (.plain (.leaf str) none) :=
    ((Registry.binds_of hbound).of_ok rfl).2
  have hr : aliased.IsPresent r := ⟨.leaf str, none, hentry⟩
  refine ⟨trivial, rfl, ?_, hr, rfl, ?_⟩
  · obtain ⟨-, answer, s₁, hforce, -, hlaw⟩ :=
      (cell_filled_once own (.force making .finish) trivial).2.2 _ List.mem_cons_self
    have hrun : making.run {} = some (.ok str, { cells := ({} : Table Ty).insert "own" int }) := rfl
    obtain ⟨hanswer, -⟩ := hlaw.made _ _ rfl hrun
    have hkept : own.held { cells := ({} : Table Ty).insert "own" int } = some int :=
      Table.get?_insert_self _ _ _
    rw [hkept, Option.getD_some] at hanswer
    subst hanswer
    exact ⟨s₁, hforce, hlaw.held_eq _ rfl⟩
  · obtain ⟨-, answer, r₁, hforce, -, hlaw⟩ :=
      (cell_filled_once aliased (.force failing .finish) hr).2.2 _ List.mem_cons_self
    have hrun : failing.run r = some (.error error, r.modifyAlias a (Alias.keep int)) := rfl
    obtain ⟨rfl, rfl, -⟩ := hlaw.failed _ _ rfl hrun
    exact ⟨_, hforce, congrArg (Option.bind · Alias.type?)
      (Registry.alias?_modifyAlias_self hentry _)⟩

end NamedTypes
