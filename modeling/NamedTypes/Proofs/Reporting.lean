import NamedTypes.Proofs.Readings
import NamedTypes.Registry.Declare

/-! # Reporting failures
Accesses run inside each other to any depth, and a failure may pass through many of them or be
recovered from on the way. It is reported exactly once, by the outermost access, and only if that
one fails (`failure_reported_once`). The reason is that nothing reports while an access is running:
inside of one, all that a registry undergoes is `Quiet`. -/

namespace NamedTypes

namespace Registry

/-! ## Nothing is reported inside of an access -/

/-- The numbers of failures reported in the namespaces. -/
def errorCounts (r : Registry) : List Nat := r.tallies .errors

/-- No failure is reported on the way from one registry to another. -/
structure Quiet (r r' : Registry) : Prop where
  /-- The nesting is as deep as before. -/
  depth_eq : r'.depth = r.depth
  /-- No failure was counted. -/
  errorCounts_eq : r'.errorCounts = r.errorCounts
  /-- The namespaces have the names that they had. -/
  names_eq : r'.perSpace Namespace.name = r.perSpace Namespace.name
  /-- No failure was noted. -/
  notices_eq : ∃ raised : List Notice, r'.notices.toList = r.notices.toList ++ raised ∧
    ∀ notice ∈ raised, notice.event ≠ .resolutionFailed

namespace Quiet

variable {r r₁ r₂ : Registry}

theorem refl (r : Registry) : Quiet r r :=
  ⟨rfl, rfl, rfl, [], (List.append_nil _).symm, nofun⟩

theorem trans (h₁ : Quiet r r₁) (h₂ : Quiet r₁ r₂) : Quiet r r₂ := by
  obtain ⟨raised₁, heq₁, hraised₁⟩ := h₁.notices_eq
  obtain ⟨raised₂, heq₂, hraised₂⟩ := h₂.notices_eq
  refine ⟨h₂.depth_eq.trans h₁.depth_eq, h₂.errorCounts_eq.trans h₁.errorCounts_eq,
    h₂.names_eq.trans h₁.names_eq, raised₁ ++ raised₂, ?_, ?_⟩
  · rw [heq₂, heq₁, List.append_assoc]
  · intro notice hnotice
    exact (List.mem_append.1 hnotice).elim (hraised₁ notice) (hraised₂ notice)

theorem newType (r : Registry) (v : Validator) : Quiet r (r.newType v).2 :=
  ⟨rfl, rfl, rfl, [], (List.append_nil _).symm, nofun⟩

/-- Counting anything but failures is quiet. -/
theorem count {space : Nat} {counter : Counter} (h : counter ≠ .errors) :
    Quiet r (r.count space counter) := by
  refine ⟨rfl, ?_, perSpace_modifySpace fun _ => rfl, [], (List.append_nil _).symm, nofun⟩
  exact perSpace_modifySpace fun n => by rw [Metrics.get_increment, if_neg h, Nat.add_zero]

/-- Noting anything but failures of accesses is quiet. -/
theorem note {space : Nat} {event : Log.Event} {fields : Entries String}
    (h : event ≠ .resolutionFailed) : Quiet r (r.note space event fields) := by
  refine ⟨?_, perSpace_note, perSpace_note, ?_⟩
  · unfold Registry.note
    split <;> rfl
  · unfold Registry.note
    split
    · refine ⟨[_], Array.toList_push, fun notice hnotice => ?_⟩
      rw [List.mem_singleton.1 hnotice]
      exact h
    · exact ⟨[], (List.append_nil _).symm, nofun⟩

theorem modifyAlias {a : Accessor} {f : Alias → Alias} : Quiet r (r.modifyAlias a f) := by
  refine ⟨?_, perSpace_modifyAlias fun _ _ => rfl, perSpace_modifyAlias fun _ _ => rfl, ?_⟩
  · unfold Registry.modifyAlias Registry.setAlias
    split
    · split <;> rfl
    · rfl
  · refine ⟨[], (List.append_nil _).symm.trans ?_, nofun⟩
    unfold Registry.modifyAlias Registry.setAlias
    split
    · split <;> rfl
    · rfl

/-- A quiet stretch inside of an access, seen from outside. -/
theorem around (h : Quiet r.enter r₁) : Quiet r { r₁ with depth := r.depth } :=
  ⟨rfl, h.errorCounts_eq, h.names_eq, h.notices_eq⟩

end Quiet

theorem admits_quiet (a : Accessor) : Admits (fun r _ r' => 0 < r.depth → Quiet r r') a where
  count h _ := .count (Counter.ne_errors h)
  note h _ := .note fun heq => h (congrArg Log.Event.severity heq)
  keep _ := .modifyAlias
  remember _ := .modifyAlias

/-- **While an access is running, nothing is reported**, whatever bodies do and wherever they
fail. -/
theorem keeps_quiet (fuel : Nat) :
    (world fuel).Keeps fun r _ r' => 0 < r.depth → Quiet r r' := by
  refine keeps_world (fun r _ => .refl r) (fun h₁ h₂ hdepth => ?_) (fun r v _ => .newType r v)
    (fun {_ a demand arguments r log answer r'} hW h hdepth => ?_) fuel
  · exact (h₁ hdepth).trans (h₂ ((h₁ hdepth).depth_eq ▸ hdepth))
  · obtain ⟨resolves, -⟩ := h
    -- one access more is running inside of this one
    have hinner := resolves.keeps hW (admits_quiet a) (Nat.succ_pos r.depth)
    cases answer with
    | ok result => exact hinner.around
    | error error =>
      rw [leave, if_neg (Nat.ne_of_gt hdepth)]
      exact hinner.around

/-! ## The report of an outermost access -/

/-- A failure is counted for the namespace of its alias. -/
theorem errorCounts_noteFailure (r : Registry) (space : Nat) (name : String) (event : Log.Event)
    (error : AliasError) :
    (r.noteFailure space name event error).errorCounts = r.errorCounts.modify space (· + 1) :=
  (tallies_noteFailure ..).trans (if_pos rfl)

/-- A failure is counted for the namespace of its alias and noted last. -/
theorem noteFailure_effect {r : Registry} {space : Nat} {n : Namespace}
    (hn : r.space? space = some n) (name : String) (event : Log.Event) (error : AliasError) :
    (r.noteFailure space name event error).depth = r.depth ∧
      (r.noteFailure space name event error).errorCounts = r.errorCounts.modify space (· + 1) ∧
      (r.noteFailure space name event error).notices.toList = r.notices.toList ++
        [⟨space, event, [("namespace", n.name), ("alias", name), ("code", error.code),
          ("error", error.message)]⟩] := by
  have hspace : (r.count space .errors).space? space =
      some { n with metrics := n.metrics.increment .errors } := by
    rw [count, space?_modifySpace, if_pos rfl, hn]
    rfl
  refine ⟨?_, errorCounts_noteFailure .., ?_⟩
  · rw [noteFailure, note, hspace]
    rfl
  · rw [noteFailure, note, hspace]
    exact Array.toList_push

/-- The number at one place raised by one. -/
theorem sum_modify_succ {counts : List Nat} {place : Nat} (h : place < counts.length) :
    (counts.modify place (· + 1)).sum = counts.sum + 1 := by
  induction counts generalizing place with
  | nil => exact absurd h (Nat.not_lt_zero _)
  | cons count counts ih =>
    cases place with
    | zero =>
      rw [List.modify_zero_cons, List.sum_cons, List.sum_cons]
      omega
    | succ place =>
      rw [List.modify_succ_cons, List.sum_cons, List.sum_cons, ih (Nat.lt_of_succ_lt_succ h)]
      omega

end Registry

/-- **A failure is reported exactly once, by the outermost access.** However an accessor is used
while no access is running, none is running afterwards. If the use fails, then among all namespaces
one failure more has been counted, for the namespace of the accessor, and the last thing noted is
that failure, the only one of an access. If it does not fail, no failure has been counted or noted,
whatever failed inside. -/
theorem failure_reported_once {fuel : Nat} {kind : AccessKind} {arguments : List TypeExpr}
    {a : Accessor} {r r' : Registry} {n : Namespace}
    {outcome : Except AliasError (Normalized Generator)}
    (h : a.use fuel kind arguments r = some (outcome, r')) (outermost : r.depth = 0)
    (hn : r.space? a.space = some n) :
    r'.depth = 0 ∧ ∃ raised : List Notice,
      (∀ notice ∈ raised, notice.event ≠ .resolutionFailed) ∧
      (∀ result, outcome = .ok result →
        r'.errorCounts = r.errorCounts ∧ r'.notices.toList = r.notices.toList ++ raised) ∧
      ∀ error, outcome = .error error →
        r'.errorCounts = r.errorCounts.modify a.space (· + 1) ∧
        r'.errorCounts.sum = r.errorCounts.sum + 1 ∧
        r'.notices.toList = r.notices.toList ++ raised ++
          [⟨a.space, .resolutionFailed, [("namespace", n.name), ("alias", a.name),
            ("code", error.code), ("error", error.message)]⟩] := by
  obtain ⟨log, hlog⟩ := Registry.exists_accesses (a.access_of_use h)
  cases fuel with
  | zero => exact hlog.elim
  | succ fuel =>
    obtain @⟨inner, resolved, -, r₁, resolves, -⟩ := hlog
    -- everything before the end of this access happens inside of it
    have hquiet : Registry.Quiet r.enter r₁ :=
      resolves.keeps (Registry.keeps_quiet fuel) (Registry.admits_quiet a) (Nat.succ_pos r.depth)
    obtain ⟨raised, hraised, hevents⟩ := hquiet.around.notices_eq
    cases outcome with
    | ok result =>
      refine ⟨outermost, raised, hevents, fun _ _ => ⟨hquiet.around.errorCounts_eq, hraised⟩, ?_⟩
      rintro _ ⟨⟩
    | error error =>
      rw [Registry.leave, if_pos outermost]
      obtain ⟨m, hm, hname⟩ : ∃ m, r₁.space? a.space = some m ∧ m.name = n.name := by
        have hnames := congrArg (·[a.space]?) hquiet.around.names_eq
        simp only [Registry.getElem?_perSpace, hn, Option.map_some] at hnames
        exact Option.map_eq_some_iff.1 hnames
      obtain ⟨hdepth, hcounts, hnotices⟩ := Registry.noteFailure_effect
        (r := { r₁ with depth := r.depth }) hm a.name .resolutionFailed error
      rw [hquiet.around.errorCounts_eq] at hcounts
      have hplace : a.space < r.errorCounts.length := by
        refine (List.getElem?_eq_some_iff.1 (?_ : _ = some (n.metrics.get .errors))).1
        rw [Registry.errorCounts, Registry.tallies, Registry.getElem?_perSpace, hn]
        rfl
      refine ⟨hdepth.trans outermost, raised, hevents, by rintro _ ⟨⟩, ?_⟩
      rintro _ ⟨⟩
      refine ⟨hcounts, ?_, ?_⟩
      · rw [hcounts, Registry.sum_modify_succ hplace]
      · rw [hnotices, hraised, hname]

/-- A type function of one namespace calls one of another namespace, which accesses a name without a
definition. Both pass the failure on; it is counted for the outer one only. -/
theorem nested_failure_reported_once :
    let passing (a : Accessor) : Generator := .mk [] fun _ => .access a .type [] fun
      | .ok _ => .finish (.sequence [])
      | .error error => .fail error
    let declarations : Registry.Declaration Accessor := do
      let missing ← Registry.declareForward 0 "Missing"
      let inner ← Registry.bind 0 "F" (.generator (passing missing))
      Registry.bind 1 "G" (.generator (passing inner))
    let r := (declarations.run.run ((Registry.addSpace {} "inner" {}).2.addSpace "outer" {}).2).2
    r.depth = 0 ∧ ∃ a r', r.accessor? 1 "G" = some a ∧ Accessor.use 3 .get [] a r =
        some (.error (.undefinedAlias "Missing"), r') ∧
      r'.depth = 0 ∧ r'.errorCounts = [0, 1] ∧ r'.notices.toList.getLast? =
        some ⟨1, .resolutionFailed, [("namespace", "outer"), ("alias", "G"),
          ("code", "TYPE_UNDEFINED_ALIAS"),
          ("error", "Type alias 'Missing' is not defined")]⟩ := by
  intro passing declarations r
  obtain ⟨⟨outcome, r'⟩, h, hfailure⟩ : ∃ step, Accessor.use 3 .get [] ⟨1, "G", 0⟩ r = some step ∧
      step.1.map (fun _ => ()) = .error (.undefinedAlias "Missing") :=
    Option.map_eq_some_iff.1 (by decide +kernel)
  obtain ⟨n, hn, hname⟩ : ∃ n, r.space? 1 = some n ∧ n.name = "outer" :=
    Option.map_eq_some_iff.1 (by decide +kernel)
  have houtermost : r.depth = 0 := by decide +kernel
  have hcounted : r.errorCounts.modify 1 (· + 1) = [0, 1] := by decide +kernel
  cases outcome with
  | ok => cases hfailure
  | error error =>
    obtain rfl := Except.error.inj hfailure
    obtain ⟨hdepth, raised, -, -, hfailed⟩ := failure_reported_once h houtermost hn
    obtain ⟨hcounts, -, hnotices⟩ := hfailed _ rfl
    refine ⟨houtermost, ⟨1, "G", 0⟩, r', by decide +kernel, h, hdepth, hcounts.trans hcounted, ?_⟩
    rw [hnotices, List.getLast?_append, hname]
    rfl

end NamedTypes
