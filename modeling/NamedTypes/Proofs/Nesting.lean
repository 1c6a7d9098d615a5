import Mathlib.Data.List.DropRight
import NamedTypes.Proofs.Adequacy
import NamedTypes.Proofs.SessionProvenance
import NamedTypes.Proofs.Transparency

/-! # Nesting
A log enters an access when it ends, so those that were made inside of it stand right before it, and
are nested deeper (`Visit.inside`). What stands before these had ended when the access began
(`Visit.past`). Every access in the log of a history came about by the rules, with exactly the
accesses inside of it, on the registry that its past had led to (`Registry.History.traces`). So what
the accesses and declarations of a run preserve of its log and its registry holds whenever an access
begins and ends (`Registry.Invariant`). -/

namespace NamedTypes

namespace Visit

/-- Of the accesses that ended before a visit, those that had ended when it began. -/
def past (v : Visit) (earlier : List Visit) : List Visit :=
  earlier.rdropWhile fun u => v.before.depth < u.before.depth

/-- Of the accesses that ended before a visit, those that were made inside of it. -/
def inside (v : Visit) (earlier : List Visit) : List Visit :=
  earlier.rtakeWhile fun u => v.before.depth < u.before.depth

@[simp] theorem past_append_inside (v : Visit) (earlier : List Visit) :
    v.past earlier ++ v.inside earlier = earlier :=
  List.rdropWhile_append_rtakeWhile ..

section Append

variable {v : Visit} {log : List Visit}
  (hlast : ∀ u, log.getLast? = some u → u.before.depth ≤ v.before.depth)

include hlast

/-- What ends with an access nested no deeper than a visit was over when the visit began. -/
theorem past_append (earlier : List Visit) : v.past (log ++ earlier) = log ++ v.past earlier := by
  induction earlier using List.reverseRecOn with
  | nil =>
    rw [List.append_nil, past, past, List.rdropWhile_nil, List.append_nil,
      List.rdropWhile_eq_self_iff]
    intro hne
    simpa using hlast _ (List.getLast?_eq_some_getLast hne)
  | append_singleton earlier u ih =>
    rw [past, past] at ih ⊢
    rw [← List.append_assoc, List.rdropWhile_concat, List.rdropWhile_concat, ih]
    split
    · rfl
    · exact List.append_assoc ..

theorem inside_append (earlier : List Visit) : v.inside (log ++ earlier) = v.inside earlier := by
  have hsplit := v.past_append_inside (log ++ earlier)
  rw [past_append hlast, List.append_assoc, List.append_cancel_left_eq] at hsplit
  exact List.append_cancel_left (hsplit.trans (v.past_append_inside earlier).symm)

end Append

section Deeper

variable {v : Visit} {inner : List Visit} (hdeeper : ∀ u ∈ inner, v.before.depth < u.before.depth)

include hdeeper

theorem inside_of_deeper : v.inside inner = inner :=
  List.rtakeWhile_eq_self_iff.2 fun u hu => decide_eq_true (hdeeper u hu)

theorem past_of_deeper : v.past inner = [] :=
  List.rdropWhile_eq_nil_iff.2 fun u hu => decide_eq_true (hdeeper u hu)

end Deeper

end Visit

namespace Registry

variable {r r' r₁ r₂ r₃ : Registry} {fuel : Nat} {log log' : List Visit}

/-! ## Registries with the same aliases -/

/-- The configurations of the namespaces. -/
def configs (r : Registry) : List Config := r.perSpace Namespace.config

theorem config_eq_getD_configs (r : Registry) (space : Nat) :
    r.config space = r.configs[space]?.getD {} := by
  rw [configs, getElem?_perSpace, config]

/-- The configuration of a namespace is the same as long as further namespaces are added. -/
theorem config_of_configs {space : Nat} (h : r.configs <+: r'.configs)
    (hspace : (r.space? space).isSome) : r'.config space = r.config space := by
  obtain ⟨added, hadded⟩ := h
  obtain ⟨n, hn⟩ := Option.isSome_iff_exists.1 hspace
  have hconfig : r.configs[space]? = some n.config := by
    rw [configs, getElem?_perSpace, hn, Option.map_some]
  obtain ⟨hlt, -⟩ := List.getElem?_eq_some_iff.1 hconfig
  rw [config_eq_getD_configs, config_eq_getD_configs, ← hadded, List.getElem?_append_left hlt]

theorem configs_put (r : Registry) (space : Nat) (name : String) (entry : Alias) :
    (r.put space name entry).configs = r.configs :=
  perSpace_put fun _ _ => rfl

theorem configs_modifyAlias (r : Registry) (a : Accessor) (f : Alias → Alias) :
    (r.modifyAlias a f).configs = r.configs :=
  perSpace_modifyAlias fun _ _ => rfl

/-- Every alias stands for what it did before, and no configuration has changed. -/
structure SameAliases (r r' : Registry) : Prop where
  alias?_eq : ∀ a, r'.alias? a = r.alias? a
  configs_prefix : r.configs <+: r'.configs

namespace SameAliases

theorem of_configs (halias : ∀ a, r'.alias? a = r.alias? a) (hconfigs : r'.configs = r.configs) :
    SameAliases r r' :=
  ⟨halias, hconfigs ▸ List.prefix_rfl⟩

theorem of_spaces (h : r'.spaces = r.spaces) : SameAliases r r' :=
  .of_configs (alias?_of_spaces h) (by rw [configs, configs, perSpace, perSpace, h])

theorem refl (r : Registry) : SameAliases r r := .of_spaces rfl

theorem trans (h : SameAliases r₁ r₂) (h' : SameAliases r₂ r₃) : SameAliases r₁ r₃ :=
  ⟨fun a => (h'.alias?_eq a).trans (h.alias?_eq a), h.configs_prefix.trans h'.configs_prefix⟩

theorem count (r : Registry) (space : Nat) (counter : Counter) :
    SameAliases r (r.count space counter) :=
  .of_configs (alias?_count r space counter) (perSpace_modifySpace fun _ => rfl)

theorem note (r : Registry) (space : Nat) (event : Log.Event) (fields : Entries String) :
    SameAliases r (r.note space event fields) :=
  .of_configs (alias?_note r space event fields) perSpace_note

theorem noteFailure (r : Registry) (space : Nat) (name : String) (event : Log.Event)
    (error : AliasError) : SameAliases r (r.noteFailure space name event error) :=
  (count ..).trans (note ..)

theorem leave {α : Type} (r : Registry) (a : Accessor) (outcome : Except AliasError α)
    (after : Registry) : SameAliases after (r.leave a outcome after) := by
  have hdepth : SameAliases after { after with depth := r.depth } := .of_spaces rfl
  cases outcome with
  | ok => exact hdepth
  | error error =>
    rw [Registry.leave]
    split
    · exact hdepth.trans (noteFailure ..)
    · exact hdepth

theorem addSpace (r : Registry) (name : String) (config : Config) :
    SameAliases r (r.addSpace name config).2 :=
  ⟨fun a => alias?_addSpace r a name config, by
    rw [configs, configs, perSpace_addSpace]
    exact List.prefix_append ..⟩

/-- Compiling the parameters of a call and counting the call. -/
theorem of_compilesAll {es : List TypeExpr} {outcome : Except AliasError (List Ty)}
    (compiles : (world fuel).CompilesAll es r outcome r') (space : Nat) (counter : Counter)
    (event : Log.Event) (fields : Entries String) :
    SameAliases r ((r'.count space counter).note space event fields) :=
  (of_spaces (spaces_of_compilesAll compiles)).trans ((count ..).trans (note ..))

end SameAliases

/-! ## Invariants of logs and registries -/

/-- What holds of the log and the registry before a stretch of a run holds after it. -/
def Carries (I : List Visit → Registry → Prop) (r : Registry) (log : List Visit) (r' : Registry) :
    Prop :=
  ∀ done, I done r → I (done ++ log) r'

/-- What accesses and declarations preserve of the log of a run and its registry. -/
structure Invariant (I : List Visit → Registry → Prop) : Prop where
  same : ∀ {log r r'}, SameAliases r r' → I log r → I log r'
  gives : ∀ {log r space name entry},
    (∀ old, r.alias? (r.accessor space name) = some old → old = .pending) →
    (entry = .pending ∨ ∃ source, entry = Alias.ofSource (r.config space) source) → I log r →
    I log (r.put space name entry)
  access : ∀ {fuel a demand arguments r log answer r'}, (world fuel).Keeps (Carries I) →
    Accesses (world fuel) a demand arguments r log answer r' → Carries I r log r'

section Carries

variable {I : List Visit → Registry → Prop}

theorem carries_of_imp (h : ∀ done, I done r → I done r') : Carries I r [] r' := fun done hr => by
  rw [List.append_nil]
  exact h done hr

theorem Carries.trans (h : Carries I r₁ log r₂) (h' : Carries I r₂ log' r₃) :
    Carries I r₁ (log ++ log') r₃ := fun done hr => by
  rw [← List.append_assoc]
  exact h' _ (h done hr)

namespace Invariant

variable (hI : Invariant I)

include hI

theorem carries_of_same (h : SameAliases r r') : Carries I r [] r' :=
  carries_of_imp fun _ => hI.same h

theorem keeps_carries (fuel : Nat) : (world fuel).Keeps (Carries I) :=
  keeps_world (fun r => hI.carries_of_same (.refl r)) Carries.trans
    (fun _ _ => hI.carries_of_same (.of_spaces rfl)) hI.access fuel

end Invariant

end Carries

/-! ## Stretches of runs -/

/-- How a visit came about, in a run that has started with `r`: what was preserved on the way to its
beginning and to its end, and the rule by which its alias was resolved. -/
structure Arises (I : List Visit → Registry → Prop) (r : Registry) (earlier : List Visit)
    (v : Visit) : Prop where
  began : Carries I r (v.past earlier) v.before
  ended : Carries I r (earlier ++ [v]) v.after
  resolves : ∃ fuel r₁, Resolves (world fuel) v.accessor v.arguments v.before.enter
    (v.inside earlier) v.resolved r₁ ∧ v.after = v.before.leave v.accessor v.answer r₁

/-- What comes of a stretch of a run: a log of visits that came about as they are entered, the last
of them nested no deeper than the stretch itself. -/
structure Traces (I : List Visit → Registry → Prop) (r : Registry) (log : List Visit)
    (r' : Registry) : Prop where
  nests : Nests r log r'
  ends : ∀ v, log.getLast? = some v → v.before.depth = r.depth
  carries : Carries I r log r'
  visits : ∀ earlier v later, log = earlier ++ v :: later → Arises I r earlier v

section Traces

variable {I : List Visit → Registry → Prop}

/-- Nothing was accessed. -/
theorem traces_of_carries (h : Carries I r [] r') (hdepth : r'.depth = r.depth) :
    Traces I r [] r' where
  nests := nests_of_depth hdepth
  ends := nofun
  carries := h
  visits earlier v later hlog := by simp at hlog

/-- A visit of a later stretch is one of the whole. -/
theorem Arises.after {earlier : List Visit} {v : Visit} (h : Arises I r₁ earlier v)
    (hfirst : Carries I r log r₁)
    (hlast : ∀ u, log.getLast? = some u → u.before.depth ≤ v.before.depth) :
    Arises I r (log ++ earlier) v where
  began := by
    rw [Visit.past_append hlast]
    exact hfirst.trans h.began
  ended := by
    rw [List.append_assoc]
    exact hfirst.trans h.ended
  resolves := by
    rw [Visit.inside_append hlast]
    exact h.resolves

/-- One stretch after another one. -/
theorem Traces.trans (h : Traces I r₁ log r₂) (h' : Traces I r₂ log' r₃) :
    Traces I r₁ (log ++ log') r₃ where
  nests := h.nests.trans h'.nests
  ends v hv := by
    rw [List.getLast?_append, Option.or_eq_some_iff] at hv
    obtain hv | ⟨-, hv⟩ := hv
    · exact (h'.ends v hv).trans h.nests.1
    · exact h.ends v hv
  carries := h.carries.trans h'.carries
  visits earlier v later hlog := by
    have hsecond (early : List Visit) (hlog' : log' = early ++ v :: later) :
        Arises I r₁ (log ++ early) v := by
      refine (h'.visits early v later hlog').after h.carries fun u hu => ?_
      rw [h.ends u hu, ← h.nests.1]
      exact h'.nests.2 v (hlog' ▸ List.mem_append_right _ List.mem_cons_self)
    obtain ⟨early, rfl, hlog'⟩ | ⟨front, rfl, hback⟩ := List.append_eq_append_iff.1 hlog
    · exact hsecond early hlog'
    · obtain ⟨rfl, hlog'⟩ | ⟨later', rfl, rfl⟩ := List.cons_eq_append_iff.1 hback
      · have hvisit := hsecond [] hlog'
        rwa [List.append_nil, List.append_nil] at hvisit
      · exact h.visits earlier v later' rfl

/-- Before a body runs, nothing is accessed. -/
theorem Resolves.inner_cases {a : Accessor} {arguments : List TypeExpr} {inner : List Visit}
    {resolved : Except AliasError (Normalized Generator)}
    (h : Resolves (world fuel) a arguments r inner resolved r') :
    inner = [] ∨ ∃ function types start finish,
      (world fuel).Applies function types start inner resolved finish ∧ SameAliases r start := by
  cases h with
  | ran _ _ compiles _ applies => exact .inr ⟨_, _, _, _, applies, .of_compilesAll compiles ..⟩
  | failed _ _ compiles _ applies => exact .inr ⟨_, _, _, _, applies, .of_compilesAll compiles ..⟩
  | _ => exact .inl rfl

/-- Every access is a stretch of a run. -/
theorem Invariant.keeps_traces (hI : Invariant I) (fuel : Nat) : (world fuel).Keeps (Traces I) := by
  have hsame {r r' : Registry} (h : SameAliases r r') (hdepth : r'.depth = r.depth) :
      Traces I r [] r' := traces_of_carries (hI.carries_of_same h) hdepth
  refine keeps_world (fun r => hsame (.refl r) rfl) Traces.trans
    (fun _ _ => hsame (.of_spaces rfl) rfl)
    (fun {fuel a demand arguments r log answer r'} hW h => ?_) fuel
  have hnests : Nests r log r' := (keeps_nests (fuel + 1)).accesses h
  have hcarries : Carries I r log r' := (hI.keeps_carries (fuel + 1)).accesses h
  obtain @⟨inner, resolved, answer, r₁, resolves, answer_eq⟩ := h
  have hdeeper : ∀ u ∈ inner, r.depth < u.before.depth :=
    (resolves.keeps (keeps_nests fuel) (admits_nests a)).2
  refine ⟨hnests, fun v hv => ?_, hcarries, fun earlier v later hlog => ?_⟩
  · rw [List.getLast?_append_of_ne_nil _ (List.cons_ne_nil _ _)] at hv
    exact Option.some.inj hv ▸ rfl
  obtain ⟨rfl, rfl⟩ | ⟨later', hinner⟩ := split_concat hlog
  · -- the access itself is entered last
    refine ⟨?_, hcarries, fuel, r₁, ?_, ?_⟩
    · rw [Visit.past_of_deeper hdeeper]
      exact hI.carries_of_same (.refl r)
    · rw [Visit.inside_of_deeper hdeeper]
      exact resolves
    · rw [Visit.answer, ← answer_eq]
  · -- all others were made inside of it, by the body that ran
    obtain rfl | ⟨function, types, start, finish, applies, hstart⟩ := resolves.inner_cases
    · simp at hinner
    · have hvisit := (hW.applies applies).visits earlier v later' hinner
      have henter : SameAliases r r.enter := .of_spaces rfl
      have hbody : Carries I r [] start := hI.carries_of_same (henter.trans hstart)
      exact hvisit.after hbody nofun

end Traces

/-! ## Runs -/

section Runs

variable {I : List Visit → Registry → Prop} (hI : Invariant I)

include hI

theorem Invariant.carries_of_binds {space : Nat} {name : String} {source : TypeExpr}
    {outcome : Except AliasError Accessor} (h : Binds space name source r outcome r') :
    Carries I r [] r' := by
  refine carries_of_imp fun done hr => ?_
  cases h with
  | bound undefined =>
    have hundefined (old : Alias) (hold : r.alias? (r.accessor space name) = some old) :
        old = .pending := not_not.1 (undefined old hold)
    exact hI.same ((SameAliases.count ..).trans (.note ..))
      (hI.gives hundefined (.inr ⟨source, rfl⟩) hr)
  | rejected => exact hI.same (.noteFailure ..) hr

/-- What accesses no alias preserves an invariant. -/
theorem Invariant.carries_of_direct {op : Operation} {outcome : Except AliasError Outcome}
    (isDirect : op.isDirect = true) (h : perform fuel op r = some (outcome, r')) :
    Carries I r [] r' := by
  cases performsDirectly_of isDirect h with
  | addSpace => exact hI.carries_of_same (.addSpace r ..)
  | newType => exact hI.carries_of_same (.of_spaces rfl)
  | normalize normalizes =>
    exact hI.carries_of_same (.of_spaces (spaces_of_normalizes normalizes))
  | @declareForward space name _ _ declares =>
    cases declares with
    | declared noEntry =>
      have hundefined (old : Alias) (hold : r.alias? (r.accessor space name) = some old) :
          old = .pending := absurd (hold.symm.trans noEntry) nofun
      exact carries_of_imp fun done hr => hI.same ((SameAliases.count ..).trans (.note ..))
        (hI.gives hundefined (.inl rfl) hr)
    | pending => exact hI.carries_of_same (.refl r)
    | rejected => exact hI.carries_of_same (.noteFailure ..)
  | bind binds => exact hI.carries_of_binds binds
  | lookup => exact hI.carries_of_same (.refl r)

theorem Invariant.traces_of_performs {op : Operation} {outcome : Except AliasError Outcome}
    (h : Performs fuel r op log outcome r') : Traces I r log r' := by
  have hW := hI.keeps_traces fuel
  cases h with
  | direct isDirect performed =>
    exact traces_of_carries (hI.carries_of_direct isDirect performed)
      (depth_of_direct isDirect performed)
  | readLiteral reads => exact reads.keeps hW
  | bindLiteral reads binds =>
    rw [← List.append_nil log]
    exact (reads.keeps hW).trans (traces_of_carries (hI.carries_of_binds binds) binds.depth_eq)
  | bindLiteralRejected reads =>
    rw [← List.append_nil log]
    exact (reads.keeps hW).trans
      (traces_of_carries (hI.carries_of_same (.noteFailure ..)) (depth_note ..))
  | bindLiteralFailed reads => exact reads.keeps hW
  | use accesses => exact hW.accesses accesses
  | call calls => exact hW.callsFunction calls

/-- **A run is a stretch of visits that came about as they are entered.** -/
theorem History.traces {ops : List Operation}
    {steps : List (Except AliasError Outcome × Registry)} (h : History fuel ops r log steps) :
    Traces I r log (r.after steps) := by
  induction h with
  | nil => exact traces_of_carries (hI.carries_of_same (.refl _)) rfl
  | cons first _ ih => exact (hI.traces_of_performs first).trans ih

end Runs

end Registry

end NamedTypes
