import Mathlib.Data.List.Forall2
import NamedTypes.Proofs.Readings
import NamedTypes.Proofs.Thresholds

/-! # What log levels decide
Two sessions that differ in nothing but the log levels of their namespaces differ in nothing but the
lines that they write (`log_level_immaterial`). All operations have the same outcomes, with the same
instances, and after each of them names, states and counters agree. A namespace writes at its own
level those of the lines it writes at level `trace` that are grave enough, and the gravity of a line
alone decides where it goes. -/

namespace NamedTypes

/-- Operations that differ at most in the log level of a namespace that they add. -/
inductive Operation.SameButLevel : Operation → Operation → Prop
  | addSpace {name : String} {config config' : Config} (memoize_eq : config.memoize = config'.memoize) :
    SameButLevel (.addSpace name config) (.addSpace name config')
  | refl {op : Operation} : SameButLevel op op

theorem Operation.SameButLevel.atLevel_eq {op op' : Operation} (h : op.SameButLevel op')
    (level : Log.Severity) : op.atLevel level = op'.atLevel level := by
  cases h with
  | addSpace memoize_eq => rw [atLevel, atLevel, Config.atLevel, Config.atLevel, memoize_eq]
  | refl => rfl

namespace Registry

/-! ## Lines -/

/-- The lines written, in order, each beside what it tells. -/
def lines (r : Registry) : List (Notice × Log.Written) :=
  r.notices.toList.filterMap fun notice => (r.written? notice).map (notice, ·)

/-- The lines written for a namespace. -/
def linesOf (r : Registry) (space : Nat) : List (Notice × Log.Written) :=
  r.lines.filter fun line => line.1.space == space

/-- These are all lines that are written. -/
theorem map_lines (r : Registry) : r.lines.map Prod.snd = r.written := by
  rw [lines, written, List.map_filterMap]
  refine congrArg (List.filterMap · r.notices.toList) (funext fun notice => ?_)
  cases r.written? notice <;> rfl

/-- A line tells its event and goes where events of that severity go. -/
theorem mem_lines {r : Registry} {line : Notice × Log.Written} (h : line ∈ r.lines) :
    line.2 = Log.write line.1.event.severity line.1.event.name line.1.fields := by
  obtain ⟨notice, -, hline⟩ := List.mem_filterMap.1 h
  obtain ⟨written, hwritten, rfl⟩ := Option.map_eq_some_iff.1 hline
  obtain ⟨n, -, hwrite⟩ := Option.bind_eq_some_iff.1 hwritten
  rw [Log.writeEvent?] at hwrite
  split at hwrite
  · exact (Option.some.inj hwrite).symm
  · cases hwrite

/-- The lines of a namespace are those of its notices that reach its level. -/
theorem linesOf_eq {r : Registry} {space : Nat} {n : Namespace} (h : r.space? space = some n) :
    r.linesOf space = ((r.noticesOf space).filter fun notice =>
      n.config.logLevel ≤ notice.event.severity).map fun notice =>
        (notice, Log.write notice.event.severity notice.event.name notice.fields) := by
  have hwritten (notice : Notice) (hspace : notice.space = space) : r.written? notice =
      Log.writeEvent? n.config.logLevel notice.event notice.fields := by
    rw [written?, hspace, h]
    rfl
  rw [linesOf, lines, noticesOf]
  induction r.notices.toList with
  | nil => rfl
  | cons notice notices ih =>
    by_cases hspace : notice.space = space
    · rw [List.filter_cons_of_pos (by simpa using hspace), List.filterMap_cons,
        hwritten notice hspace, Log.writeEvent?]
      by_cases hlevel : n.config.logLevel ≤ notice.event.severity
      · rw [if_pos hlevel, Option.map_some, List.filter_cons_of_pos (by simpa using hspace),
          List.filter_cons_of_pos (by simpa using hlevel), List.map_cons, ih]
      · rw [if_neg hlevel, Option.map_none, List.filter_cons_of_neg (by simpa using hlevel), ih]
    · -- a line of another namespace, or none
      rw [List.filter_cons_of_neg (by simpa using hspace), ← ih, List.filterMap_cons]
      cases r.written? notice with
      | none => rfl
      | some written => exact List.filter_cons_of_neg (by simpa using hspace)

/-- Registries that agree in everything but log levels, where the second one writes all that the
first one writes. -/
structure AgreeButLevels (r r' : Registry) : Prop where
  /-- The same names are declared. -/
  names_eq : ∀ space, (r.space? space).map Namespace.names = (r'.space? space).map Namespace.names
  /-- Every name has come as far. -/
  states_eq : ∀ space name, (r.space? space).map (·.state? name) =
    (r'.space? space).map (·.state? name)
  /-- The same has been counted. -/
  metrics_eq : ∀ space, (r.space? space).map Namespace.metrics =
    (r'.space? space).map Namespace.metrics
  /-- Against a namespace that writes everything, the lines that are not grave enough are
  missing. -/
  lines_eq : ∀ {space n n'}, r.space? space = some n → r'.space? space = some n' →
    n'.config.logLevel = .trace → r.linesOf space =
      (r'.linesOf space).filter fun line => n.config.logLevel ≤ line.1.event.severity
  /-- Errors go to one stream, all other lines to the other. -/
  stream_eq : ∀ line ∈ r.lines, line.2.stream =
    if Log.Severity.error ≤ line.1.event.severity then .standardError else .standardOutput

/-- What is the same once log levels are the same. -/
theorem agreeButLevels_of_atLevel {level : Log.Severity} {r r' : Registry}
    (h : r.atLevel level = r'.atLevel level) : r.AgreeButLevels r' := by
  have hspace (space : Nat) : (r.space? space).map (Namespace.atLevel level) =
      (r'.space? space).map (Namespace.atLevel level) := by
    rw [← space?_atLevel, ← space?_atLevel, h]
  -- a reading that does not see log levels reads the same on both sides
  have hreading {α : Type} (reading : Namespace → α)
      (hlevel : ∀ n : Namespace, reading (n.atLevel level) = reading n) (space : Nat) :
      (r.space? space).map reading = (r'.space? space).map reading := by
    have := congrArg (Option.map reading) (hspace space)
    rwa [Option.map_map, Option.map_map, show reading ∘ Namespace.atLevel level = reading from
      funext hlevel] at this
  refine ⟨hreading _ fun _ => rfl, fun space name => hreading _ (fun _ => rfl) space,
    hreading _ fun _ => rfl, ?_, ?_⟩
  · intro space n n' hn hn' htrace
    have hnotices : (r.atLevel level).notices = (r'.atLevel level).notices :=
      congrArg Registry.notices h
    have hall (severity : Log.Severity) : n'.config.logLevel ≤ severity := by
      rw [htrace, Log.Severity.le_def]
      exact Nat.zero_le _
    rw [linesOf_eq hn, linesOf_eq hn', noticesOf, show r.notices = r'.notices from hnotices,
      List.filter_map, noticesOf]
    simp [hall, Function.comp_def]
  · intro line hline
    rw [mem_lines hline]
    rfl

end Registry

/-- **The log level influences nothing but which lines are written.** Let two sessions consist of
the same operations, except that namespaces may be added with different log levels. Then both end or
neither does, and operation by operation they have the same outcome: the same error, or the same
result with the same instances. After each operation the same names are declared, every name has
come as far, and every counter shows the same. Of the lines that a namespace writes in a session in
which it has level `trace`, it writes exactly those in the other session, in the same order and with
the same text, whose severity reaches its level there, to the error stream from severity `error` on
and to the output stream below. -/
theorem log_level_immaterial {ops ops' : List Operation}
    (h : List.Forall₂ Operation.SameButLevel ops ops') (fuel : Nat) :
    Option.Rel (List.Forall₂ fun step step' => step.1 = step'.1 ∧ step.2.AgreeButLevels step'.2)
      (Registry.performAll fuel ops {}) (Registry.performAll fuel ops' {}) := by
  -- at the level `trace` both sessions are the same one
  have hops : ops.map (Operation.atLevel .trace) = ops'.map (Operation.atLevel .trace) := by
    induction h with
    | nil => rfl
    | cons first _ ih => rw [List.map_cons, List.map_cons, first.atLevel_eq, ih]
  have hleft := Registry.performAll_atLevel .trace fuel ops {}
  have hright := Registry.performAll_atLevel .trace fuel ops' {}
  rw [← hops, hleft] at hright
  -- so the two runs come to the same once their levels are forgotten
  cases hsteps : Registry.performAll fuel ops {} with
  | none =>
    rw [hsteps] at hright
    rw [Option.map_eq_none_iff.1 hright.symm]
    exact .none
  | some steps =>
    rw [hsteps] at hright
    obtain ⟨steps', hsteps', heq⟩ := Option.map_eq_some_iff.1 hright.symm
    rw [hsteps']
    refine .some ?_
    have hsame : steps.map (fun step => (step.1, step.2.atLevel .trace)) =
        steps'.map fun step => (step.1, step.2.atLevel .trace) := heq.symm
    have hpaired : List.Forall₂ Eq (steps.map fun step => (step.1, step.2.atLevel .trace))
        (steps'.map fun step => (step.1, step.2.atLevel .trace)) := by
      rw [hsame]
      exact List.forall₂_refl _
    have heach := List.forall₂_map_left_iff.1 (List.forall₂_map_right_iff.1 hpaired)
    exact heach.imp fun step step' hstep =>
      ⟨(Prod.mk.inj hstep).1, Registry.agreeButLevels_of_atLevel (Prod.mk.inj hstep).2⟩

/-- A function of one namespace accesses a name of another one. At level `error` the failure alone
is written for the first namespace; at level `trace` everything is. -/
theorem lines_of_nested_failure :
    let passing : TypeExpr := .generator (.mk [] fun _ => .access ⟨0, "Later", 0⟩ .type [] fun
      | .ok _ => .finish (.sequence [])
      | .error error => .fail error)
    let ops (inner outer : Log.Severity) : List Operation :=
      [.addSpace "inner" { logLevel := inner }, .addSpace "outer" { logLevel := outer },
        .declareForward 0 "Later", .bind 1 "F" passing, .use .get ⟨1, "F", 0⟩ []]
    List.Forall₂ Operation.SameButLevel (ops .info .error) (ops .trace .trace) ∧
      ∃ steps steps', Registry.performAll 2 (ops .info .error) {} = some steps ∧
        Registry.performAll 2 (ops .trace .trace) {} = some steps' ∧
        List.Forall₂ (fun step step' => step.1 = step'.1 ∧ step.2.AgreeButLevels step'.2)
          steps steps' ∧
        steps.map (fun step => (step.2.linesOf 1).length) = [0, 0, 0, 0, 1] ∧
        steps'.map (fun step => (step.2.linesOf 1).length) = [0, 1, 1, 2, 4] := by
  intro passing ops
  have hsame : List.Forall₂ Operation.SameButLevel (ops .info .error) (ops .trace .trace) :=
    .cons (.addSpace rfl) (.cons (.addSpace rfl) (.cons .refl (.cons .refl (.cons .refl .nil))))
  obtain ⟨steps, hsteps, hlines⟩ : ∃ steps, Registry.performAll 2 (ops .info .error) {} =
      some steps ∧ steps.map (fun step => (step.2.linesOf 1).length) = [0, 0, 0, 0, 1] :=
    Option.map_eq_some_iff.1 (by decide +kernel)
  obtain ⟨steps', hsteps', hlines'⟩ : ∃ steps, Registry.performAll 2 (ops .trace .trace) {} =
      some steps ∧ steps.map (fun step => (step.2.linesOf 1).length) = [0, 1, 1, 2, 4] :=
    Option.map_eq_some_iff.1 (by decide +kernel)
  have hrel := log_level_immaterial hsame 2
  rw [hsteps, hsteps'] at hrel
  obtain ⟨hagree⟩ := hrel
  exact ⟨hsame, steps, steps', hsteps, hsteps', hagree, hlines, hlines'⟩

end NamedTypes
