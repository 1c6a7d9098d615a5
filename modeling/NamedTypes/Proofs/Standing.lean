import NamedTypes.Proofs.Declarations
import NamedTypes.Proofs.Meaning

/-! # Standings
How far aliases have come and how often sources were compiled (`Standing`). Accesses change nothing
else of a namespace that its users can tell, apart from reported failures, and what they change is
told by the marks of their meaning: a plain alias that is touched while it is bound is compiled, and
resolved if it describes a type (`Standing.play`). -/

namespace NamedTypes

/-- How far aliases have come, and how many compilations the namespaces have counted. -/
@[ext]
structure Standing where
  state : Accessor → AliasState
  normalizations : Nat → Nat

namespace Standing

variable {compiles : Accessor → Bool} {s : Standing} {a : Accessor} {log log' : List Mark}

/-- What a mark stands for, where `compiles` tells which plain aliases describe types. -/
def mark (compiles : Accessor → Bool) (s : Standing) : Mark → Standing
  | .failed => s
  | .touched a =>
    if s.state a = .bound then
      { state := if compiles a then Function.update s.state a .resolved else s.state
        normalizations :=
          Function.update s.normalizations a.space (s.normalizations a.space + 1) }
    else s

/-- What marks stand for, in order. -/
def play (compiles : Accessor → Bool) (s : Standing) (log : List Mark) : Standing :=
  log.foldl (mark compiles) s

theorem play_append : play compiles s (log ++ log') = play compiles (play compiles s log) log' :=
  List.foldl_append

theorem mark_of_resolved (h : s.state a = .resolved) : mark compiles s (.touched a) = s := by
  rw [mark, if_neg (by rw [h]; nofun)]

/-- A mark resolves an alias, or leaves it where it was. -/
theorem state_mark (compiles : Accessor → Bool) (s : Standing) (m : Mark) (a : Accessor) :
    (mark compiles s m).state a = .resolved ∨ (mark compiles s m).state a = s.state a := by
  cases m with
  | failed => exact .inr rfl
  | touched b =>
    rw [mark]
    split
    · dsimp only
      split
      · by_cases hab : a = b
        · subst hab
          exact .inl (Function.update_self ..)
        · exact .inr (Function.update_of_ne hab ..)
      · exact .inr rfl
    · exact .inr rfl

/-- What is resolved stays so. -/
theorem state_play_of_resolved (h : s.state a = .resolved) :
    (play compiles s log).state a = .resolved := by
  induction log generalizing s with
  | nil => exact h
  | cons m log ih =>
    refine ih ?_
    rcases state_mark compiles s m a with hm | hm
    · exact hm
    · rw [hm, h]

/-- A plain alias that describes a type is resolved once it has been touched. -/
theorem state_play_of_touched (h : s.state a = .bound ∨ s.state a = .resolved)
    (ha : .touched a ∈ log) (hcompiles : compiles a = true) :
    (play compiles s log).state a = .resolved := by
  induction log generalizing s with
  | nil => cases ha
  | cons m log ih =>
    change (play compiles (mark compiles s m) log).state a = .resolved
    rcases List.mem_cons.1 ha with rfl | ha
    · refine state_play_of_resolved ?_
      rcases h with h | h
      · rw [mark, if_pos h, if_pos hcompiles]
        exact Function.update_self ..
      · rw [mark_of_resolved h, h]
    · refine ih ?_ ha
      rcases state_mark compiles s m a with hm | hm
      · exact .inr hm
      · rwa [hm]

/-- Marks of resolved aliases stand for nothing. -/
theorem play_of_resolved (h : ∀ a, .touched a ∈ log → s.state a = .resolved) :
    play compiles s log = s := by
  induction log with
  | nil => rfl
  | cons m log ih =>
    have hm : mark compiles s m = s := by
      cases m with
      | failed => rfl
      | touched a => exact mark_of_resolved (h a List.mem_cons_self)
    rw [play, List.foldl_cons, hm]
    exact ih fun a ha => h a (List.mem_cons_of_mem _ ha)

end Standing

namespace Registry

/-! ## The standing of a registry -/

/-- How far the aliases of a registry have come, and what it has counted. -/
def standing (r : Registry) : Standing where
  state := r.state
  normalizations space := r.counted space .normalizations

variable {r r' : Registry} {a : Accessor}

theorem standing_of_spaces (h : r'.spaces = r.spaces) : r'.standing = r.standing := by
  refine Standing.ext (funext fun b => ?_) (funext fun space => counted_of_spaces h _ _)
  change r'.state b = r.state b
  rw [state, state, alias?_of_spaces h]

@[simp] theorem standing_note (r : Registry) (space : Nat) (event : Log.Event)
    (fields : Entries String) : (r.note space event fields).standing = r.standing := by
  refine Standing.ext (funext fun b => ?_) (funext fun other => counted_note ..)
  change (r.note space event fields).state b = r.state b
  rw [state, state, alias?_note]

/-- Counting one thing leaves the other counters. -/
theorem counted_count_of_ne {space other : Nat} {counter read : Counter}
    (h : space ≠ other ∨ counter ≠ read) :
    (r.count space counter).counted other read = r.counted other read := by
  rw [counted, counted, count, space?_modifySpace]
  split
  · next heq =>
    have hne : counter ≠ read := h.elim (absurd heq) id
    cases r.space? other with
    | none => rfl
    | some n =>
      change (n.metrics.increment counter).get read = n.metrics.get read
      rw [Metrics.get_increment, if_neg hne, Nat.add_zero]
  · rfl

theorem standing_count {space : Nat} {counter : Counter} (h : counter ≠ .normalizations) :
    (r.count space counter).standing = r.standing := by
  refine Standing.ext (funext fun b => ?_) (funext fun other => counted_count_of_ne (.inr h))
  change (r.count space counter).state b = r.state b
  rw [state, state, alias?_count]

theorem standing_leave {α : Type} (r : Registry) (a : Accessor) (outcome : Except AliasError α)
    (after : Registry) : (r.leave a outcome after).standing = after.standing := by
  refine Standing.ext (funext fun b => ?_) (funext fun other => counted_leave _ _ _ _ _ nofun)
  change (r.leave a outcome after).state b = after.state b
  rw [state, state, alias?_leave]

/-- A change of an alias that leaves its state leaves the standing. -/
theorem standing_modifyAlias {f : Alias → Alias}
    (hf : ∀ entry, r.alias? a = some entry → (f entry).state = entry.state) :
    (r.modifyAlias a f).standing = r.standing := by
  refine Standing.ext (funext fun b => ?_) (funext fun other => counted_modifyAlias ..)
  change (r.modifyAlias a f).state b = r.state b
  by_cases hb : b = a
  · subst hb
    cases hentry : r.alias? b with
    | none => rw [modifyAlias, hentry]
    | some entry =>
      rw [state_of_alias? (alias?_modifyAlias_self hentry f), state_of_alias? hentry, hf _ hentry]
  · rw [state, state, alias?_modifyAlias_of_ne hb]

theorem standing_remember (types : List Ty) (result : Normalized Generator) :
    (r.modifyAlias a (Alias.remember types result)).standing = r.standing :=
  standing_modifyAlias fun entry _ => by rcases entry with _ | _ | ⟨_, _ | _⟩ <;> rfl

/-! ## Touching a plain alias -/

variable {compiles : Accessor → Bool} {source : TypeExpr}

theorem normalizations_count (h : (r.space? a.space).isSome) (space : Nat) :
    (r.count a.space .normalizations).counted space .normalizations =
      Function.update r.standing.normalizations a.space
        (r.standing.normalizations a.space + 1) space := by
  by_cases hspace : space = a.space
  · subst hspace
    rw [Function.update_self, counted_count h, if_pos rfl]
    rfl
  · rw [Function.update_of_ne hspace, counted_count_of_ne (.inl (Ne.symm hspace))]
    rfl

/-- Counting the compilation of an alias that describes no type is what its mark stands for. -/
theorem standing_of_faulty (entry : r.alias? a = some (.plain source none))
    (hcompiles : compiles a = false) :
    (r.count a.space .normalizations).standing = r.standing.play compiles [.touched a] := by
  have hbound : r.standing.state a = .bound := state_of_alias? entry
  change _ = Standing.mark compiles r.standing (.touched a)
  rw [Standing.mark, if_pos hbound, hcompiles]
  refine Standing.ext (funext fun b => ?_) (funext fun space => ?_)
  · change (r.count a.space .normalizations).state b = r.state b
    rw [state, state, alias?_count]
  · exact normalizations_count (isSome_space?_of_alias? entry) space

/-- Counting the compilation of an alias and keeping its type is what its mark stands for. -/
theorem standing_of_compiled {r₁ : Registry} {t : Ty}
    (entry : r.alias? a = some (.plain source none)) (hcompiles : compiles a = true)
    (hspaces : r₁.spaces = (r.count a.space .normalizations).spaces) :
    (r₁.modifyAlias a (Alias.keep t)).standing = r.standing.play compiles [.touched a] := by
  have hbound : r.standing.state a = .bound := state_of_alias? entry
  have hentry : r₁.alias? a = some (.plain source none) := by
    rw [alias?_of_spaces hspaces, alias?_count, entry]
  change _ = Standing.mark compiles r.standing (.touched a)
  rw [Standing.mark, if_pos hbound, hcompiles, if_pos rfl]
  refine Standing.ext (funext fun b => ?_) (funext fun space => ?_)
  · change (r₁.modifyAlias a (Alias.keep t)).state b =
      Function.update r.standing.state a .resolved b
    by_cases hb : b = a
    · subst hb
      rw [state_of_alias? (alias?_modifyAlias_self hentry _), Function.update_self]
      rfl
    · rw [Function.update_of_ne hb, state, alias?_modifyAlias_of_ne hb, alias?_of_spaces hspaces,
        alias?_count]
      rfl
  · change (r₁.modifyAlias a (Alias.keep t)).counted space .normalizations =
      Function.update r.standing.normalizations a.space _ space
    rw [counted_modifyAlias, counted_of_spaces hspaces]
    exact normalizations_count (isSome_space?_of_alias? entry) space

end Registry

end NamedTypes
