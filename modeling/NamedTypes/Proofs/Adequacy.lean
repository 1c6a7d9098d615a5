import NamedTypes.Proofs.Standing

/-! # Memory is adequate
A registry is **sound** if what its aliases keep and remember is what their definitions mean
(`Registry.Sound`). Accesses to a sound registry answer with what is meant, whether they find
something remembered or not, change the standing as their marks tell, and leave the registry sound
(`Registry.adequate_world`).

Two things are asked of the accesses for that, by what their log shows: a body that made a failing
access fails as well (`PassesOn`), and types passed as parameters are told apart by their
identities. -/

namespace NamedTypes

/-! ## Accesses inside of accesses -/

/-- Whether an access fails. -/
def Visit.Fails (v : Visit) : Prop := ∃ error, v.answer = .error error

/-- Whether a type is a parameter that an access passes on as it is. -/
def Visit.Given (v : Visit) (t : Ty) : Prop :=
  ∃ call, Invocation.ofArguments v.arguments = .ok call ∧ Expr.leaf t ∈ call.parameters

/-- The answer of an access is what is meant, by a meaning without failures if it is a result. -/
def Visit.Meant (D : Definitions) (v : Visit) : Prop :=
  ∃ fuel marks, (meaning D fuel).accesses v.accessor v.demand v.arguments () marks v.answer () ∧
    ∀ x, v.answer = .ok x → .failed ∉ marks

/-- Failures are passed on: an alias comes to a failure if an access inside of its own fails. The
accesses inside of an access are those right before it in the log that are nested deeper. -/
def PassesOn (log : List Visit) : Prop :=
  ∀ before inner between outer after, log = before ++ inner :: (between ++ outer :: after) →
    (∀ v ∈ inner :: between, outer.before.depth < v.before.depth) → inner.Fails →
    ∃ error, outer.resolved = .error error

/-- Types that belong to `K` are told apart by their identities. -/
def ToldApart (K : Ty → Prop) : Prop := ∀ t u : Ty, K t → K u → t.id = u.id → t = u

/-- Failures are passed on, and every parameter passed on as it is belongs to `K`. -/
structure Regular (K : Ty → Prop) (log : List Visit) : Prop where
  passesOn : PassesOn log
  given : ∀ v ∈ log, ∀ t, v.Given t → K t

/-- A log that ends with `u` is split at `u`, or within what comes before. -/
theorem split_concat {α : Type} {log earlier later : List α} {u v : α}
    (h : log ++ [u] = earlier ++ v :: later) :
    (earlier = log ∧ v = u) ∨ ∃ later', log = earlier ++ v :: later' := by
  obtain rfl | ⟨later', last, rfl⟩ := List.eq_nil_or_concat later
  · obtain ⟨hlog, hlast⟩ := List.append_inj' h rfl
    exact .inl ⟨hlog.symm, (List.singleton_inj.1 hlast).symm⟩
  · have hsplit : log ++ [u] = (earlier ++ v :: later') ++ [last] := by simp [h]
    exact .inr ⟨later', (List.append_inj' hsplit rfl).1⟩

theorem PassesOn.of_append {log log' : List Visit} (h : PassesOn (log ++ log')) :
    PassesOn log ∧ PassesOn log' := by
  constructor
  · intro before inner between outer after hlog hdeeper hfails
    refine h before inner between outer (after ++ log') ?_ hdeeper hfails
    rw [hlog]
    simp only [List.append_assoc, List.cons_append]
  · intro before inner between outer after hlog hdeeper hfails
    refine h (log ++ before) inner between outer after ?_ hdeeper hfails
    rw [hlog, List.append_assoc]

/-- If an alias comes to a result, all accesses inside succeed. -/
theorem PassesOn.inside {log : List Visit} {v : Visit} {result : Normalized Generator}
    (h : PassesOn (log ++ [v])) (hdeeper : ∀ w ∈ log, v.before.depth < w.before.depth)
    (hresult : v.resolved = .ok result) : ∀ w ∈ log, ¬ w.Fails := by
  intro w hw hfails
  obtain ⟨before, between, rfl⟩ := List.append_of_mem hw
  have hmem : ∀ u ∈ w :: between, v.before.depth < u.before.depth :=
    fun u hu => hdeeper u (List.mem_append_right _ hu)
  obtain ⟨error, herror⟩ := h before w between v [] (by simp) hmem hfails
  rw [hresult] at herror
  cases herror

theorem Regular.of_append {K : Ty → Prop} {log log' : List Visit} (h : Regular K (log ++ log')) :
    Regular K log ∧ Regular K log' := by
  obtain ⟨hfirst, hlast⟩ := h.passesOn.of_append
  exact ⟨⟨hfirst, fun v hv => h.given v (List.mem_append_left _ hv)⟩,
    ⟨hlast, fun v hv => h.given v (List.mem_append_right _ hv)⟩⟩

namespace Registry

theorem depth_note (r : Registry) (space : Nat) (event : Log.Event) (fields : Entries String) :
    (r.note space event fields).depth = r.depth := by
  unfold note
  split <;> rfl

theorem depth_modifyAlias (r : Registry) (a : Accessor) (f : Alias → Alias) :
    (r.modifyAlias a f).depth = r.depth := by
  unfold modifyAlias setAlias
  split
  · split <;> rfl
  · rfl

theorem depth_leave {α : Type} (r : Registry) (a : Accessor) (outcome : Except AliasError α)
    (after : Registry) : (r.leave a outcome after).depth = r.depth := by
  cases outcome with
  | ok result => rfl
  | error error =>
    rw [leave]
    split
    · exact depth_note ..
    · rfl

/-- The nesting ends as deep as it was, and no access on the way was shallower. -/
def Nests (r : Registry) (log : List Visit) (r' : Registry) : Prop :=
  r'.depth = r.depth ∧ ∀ v ∈ log, r.depth ≤ v.before.depth

theorem nests_of_depth {r r' : Registry} (h : r'.depth = r.depth) : Nests r [] r' := ⟨h, nofun⟩

theorem Nests.trans {r₁ r₂ r₃ : Registry} {log log' : List Visit} (h : Nests r₁ log r₂)
    (h' : Nests r₂ log' r₃) : Nests r₁ (log ++ log') r₃ := by
  refine ⟨h'.1.trans h.1, fun v hv => ?_⟩
  rcases List.mem_append.1 hv with hv | hv
  · exact h.2 v hv
  · rw [← h.1]
    exact h'.2 v hv

theorem admits_nests (a : Accessor) : Admits Nests a where
  count _ := nests_of_depth rfl
  note _ := nests_of_depth (depth_note ..)
  keep := nests_of_depth (depth_modifyAlias ..)
  remember := nests_of_depth (depth_modifyAlias ..)

theorem keeps_nests (fuel : Nat) : (world fuel).Keeps Nests := by
  refine keeps_world (fun _ => nests_of_depth rfl) Nests.trans (fun _ _ => nests_of_depth rfl)
    (fun {_ a demand arguments r log answer r'} hW h => ?_) fuel
  obtain ⟨resolves, -⟩ := h
  have hinner := resolves.keeps hW (admits_nests a)
  refine ⟨depth_leave .., fun v hv => ?_⟩
  rcases List.mem_append.1 hv with hv | hv
  · exact Nat.le_of_succ_le (hinner.2 v hv)
  · obtain rfl := List.mem_singleton.1 hv
    exact Nat.le_refl _

/-! ## Sound registries -/

/-- A registry with the definitions `D` keeps and remembers what these mean. What is remembered for
arguments in `K` came of a run in which no access failed, so the plain aliases that the run touched
are resolved. -/
structure Sound (K : Ty → Prop) (D : Definitions) (r : Registry) : Prop where
  definition?_eq : r.definition? = D
  kept : ∀ {a source t}, r.alias? a = some (.plain source (some t)) →
    source.validator = .ok t.validator
  remembered : ∀ {a f memo types result}, r.alias? a = some (.function f (some memo)) →
    (∀ t ∈ types, K t) → memo.get? types = some result →
    ∃ fuel log, (meaning D fuel).Applies f types () log (.ok result) () ∧ .failed ∉ log ∧
      ∀ b, .touched b ∈ log → r.state b = .resolved

variable {K : Ty → Prop} {D : Definitions} {r r' r₁ r₂ r₃ : Registry}

theorem Sound.definition? (h : Sound K D r) {a : Accessor} {entry : Alias}
    (ha : r.alias? a = some entry) : D a = some entry.definition := by
  rw [← h.definition?_eq, Registry.definition?, ha]
  rfl

theorem Sound.of_alias?_eq (h : Sound K D r) (heq : ∀ a, r'.alias? a = r.alias? a) :
    Sound K D r' where
  definition?_eq := by
    rw [← h.definition?_eq]
    exact funext fun a => congrArg (Option.map Alias.definition) (heq a)
  kept ha := h.kept ((heq _).symm.trans ha)
  remembered ha htypes hget := by
    obtain ⟨fuel, log, happlies, hclean, htouched⟩ := h.remembered ((heq _).symm.trans ha) htypes hget
    refine ⟨fuel, log, happlies, hclean, fun b hb => ?_⟩
    rw [state, heq]
    exact htouched b hb

/-- A plain alias that is compiled keeps what its definition means. -/
theorem Sound.keep (h : Sound K D r) {a : Accessor} {source : TypeExpr} {t : Ty}
    (ha : r.alias? a = some (.plain source none)) (ht : source.validator = .ok t.validator) :
    Sound K D (r.modifyAlias a (Alias.keep t)) where
  definition?_eq := by
    rw [← h.definition?_eq]
    exact funext (definition?_of_outlines (outlines_modifyAlias (Alias.definition_keep t)))
  kept {b source' u} hb := by
    by_cases hab : b = a
    · subst hab
      rw [alias?_modifyAlias_self ha] at hb
      cases Option.some.inj hb
      exact ht
    · exact h.kept ((alias?_modifyAlias_of_ne hab _).symm.trans hb)
  remembered {b f memo types result} hb htypes hget := by
    have hab : b ≠ a := by
      rintro rfl
      rw [alias?_modifyAlias_self ha] at hb
      cases hb
    obtain ⟨fuel, log, happlies, hclean, htouched⟩ :=
      h.remembered ((alias?_modifyAlias_of_ne hab _).symm.trans hb) htypes hget
    refine ⟨fuel, log, happlies, hclean, fun c hc => ?_⟩
    by_cases hca : c = a
    · subst hca
      exact state_of_alias? (alias?_modifyAlias_self ha _)
    · rw [state, alias?_modifyAlias_of_ne hca]
      exact htouched c hc

/-- A type function that remembers the result of a run in which no access failed remembers what its
definition means. -/
theorem Sound.remember (hK : ToldApart K) (h : Sound K D r) {a : Accessor} {f : Generator}
    {types : List Ty} {result : Normalized Generator} (ha : D a = some (.function f))
    (htypes : ∀ t ∈ types, K t) {fuel : Nat} {log : List Mark}
    (happlies : (meaning D fuel).Applies f types () log (.ok result) ()) (hclean : .failed ∉ log)
    (htouched : ∀ b, .touched b ∈ log → r.state b = .resolved) :
    Sound K D (r.modifyAlias a (Alias.remember types result)) := by
  have hstate (b : Accessor) :
      (r.modifyAlias a (Alias.remember types result)).state b = r.state b :=
    congrFun (congrArg Standing.state (standing_remember types result)) b
  have hentry : ∃ memo, r.alias? a = some (.function f memo) := by
    rw [← h.definition?_eq, Registry.definition?, Option.map_eq_some_iff] at ha
    obtain ⟨entry, hentry, hdefinition⟩ := ha
    cases entry with
    | pending | plain => cases hdefinition
    | function g memo =>
      cases hdefinition
      exact ⟨memo, hentry⟩
  obtain ⟨memo, hentry⟩ := hentry
  refine ⟨?_, fun {b source t} hb => ?_, fun {b g memo' types' result'} hb htypes' hget => ?_⟩
  · rw [← h.definition?_eq]
    exact funext (definition?_of_outlines (outlines_modifyAlias
      (Alias.definition_remember types result)))
  · have hab : b ≠ a := by
      rintro rfl
      rw [alias?_modifyAlias_self hentry] at hb
      cases memo <;> cases hb
    exact h.kept ((alias?_modifyAlias_of_ne hab _).symm.trans hb)
  · have holder {memo'} (hb : r.alias? b = some (.function g (some memo')))
        (hget : memo'.get? types' = some result') :
        ∃ fuel log, (meaning D fuel).Applies g types' () log (.ok result') () ∧ .failed ∉ log ∧
          ∀ c, .touched c ∈ log →
            (r.modifyAlias a (Alias.remember types result)).state c = .resolved := by
      obtain ⟨fuel, log, hg, hclean, htouched⟩ := h.remembered hb htypes' hget
      exact ⟨fuel, log, hg, hclean, fun c hc => (hstate c).trans (htouched c hc)⟩
    by_cases hab : b = a
    · subst hab
      rw [alias?_modifyAlias_self hentry] at hb
      cases memo with
      | none => cases hb
      | some memo =>
        cases Option.some.inj hb
        rcases Memo.get?_insert_cases hget with hget | ⟨hkey, rfl⟩
        · exact holder hentry hget
        · -- types that are told apart have equal keys only if they are equal
          obtain rfl := Memo.eq_of_key_eq (fun t ht u hu => hK t u (htypes' t ht) (htypes u hu)) hkey
          exact ⟨fuel, log, happlies, hclean, fun c hc => (hstate c).trans (htouched c hc)⟩
    · exact holder ((alias?_modifyAlias_of_ne hab _).symm.trans hb) hget

/-! ## Accesses mirror meanings -/

/-- From one registry to another, the accesses in a log do what the marks of a meaning tell. -/
structure Mirrors (K : Ty → Prop) (D : Definitions) (r : Registry) (log : List Visit)
    (marks : List Mark) (r' : Registry) : Prop where
  sound : Sound K D r'
  standing_eq : r'.standing = r.standing.play D.compiles marks
  clean : (∀ v ∈ log, ¬ v.Fails) → .failed ∉ marks
  meant : ∀ v ∈ log, v.Meant D

namespace Mirrors

variable {log log' : List Visit} {marks marks' : List Mark}

theorem refl (h : Sound K D r) : Mirrors K D r [] [] r :=
  ⟨h, rfl, fun _ => List.not_mem_nil, List.forall_mem_nil _⟩

theorem trans (h : Mirrors K D r₁ log marks r₂) (h' : Mirrors K D r₂ log' marks' r₃) :
    Mirrors K D r₁ (log ++ log') (marks ++ marks') r₃ where
  sound := h'.sound
  standing_eq := by rw [h'.standing_eq, h.standing_eq, Standing.play_append]
  clean hlog := by
    obtain ⟨hfirst, hlast⟩ := List.forall_mem_append.1 hlog
    rw [List.mem_append, not_or]
    exact ⟨h.clean hfirst, h'.clean hlast⟩
  meant := List.forall_mem_append.2 ⟨h.meant, h'.meant⟩

/-- Beginning and ending where aliases and standing are the same makes no difference. -/
theorem congr (h : Mirrors K D r log marks r₁) (hfirst : r.standing = r₂.standing)
    (hlast : r₃.standing = r₁.standing) (hsame : ∀ a, r₃.alias? a = r₁.alias? a) :
    Mirrors K D r₂ log marks r₃ :=
  ⟨h.sound.of_alias?_eq hsame, by rw [hlast, h.standing_eq, hfirst], h.clean, h.meant⟩

theorem of_spaces (h : Sound K D r) (hspaces : r'.spaces = r.spaces) : Mirrors K D r [] [] r' :=
  (refl h).congr rfl (standing_of_spaces hspaces) (alias?_of_spaces hspaces)

end Mirrors

/-- Everything that a world answers from sound registries is what is meant. -/
structure Adequate (K : Ty → Prop) (D : Definitions) (W : World Registry Visit) : Prop where
  makes : ∀ {v r t r'}, W.makes v r t r' → t.validator = v ∧ r'.spaces = r.spaces
  accesses : ∀ {a demand arguments r log answer r'}, Sound K D r → Regular K log →
    W.accesses a demand arguments r log answer r' →
    ∃ fuel marks, (meaning D fuel).accesses a demand arguments () marks answer () ∧
      Mirrors K D r log marks r'
  calls : ∀ {f arguments r log answer r'}, Sound K D r → Regular K log →
    W.calls f arguments r log answer r' →
    ∃ fuel marks, (meaning D fuel).calls f arguments () marks answer () ∧
      Mirrors K D r log marks r'

namespace Adequate

variable {W : World Registry Visit} {log : List Visit}

theorem compiles (hW : Adequate K D W) (fuel : Nat) {e : TypeExpr} {outcome : Except AliasError Ty}
    (h : W.Compiles e r outcome r') :
    (meaning D fuel).Compiles e () outcome () ∧ r'.spaces = r.spaces := by
  cases h with
  | existing compiled => exact ⟨.existing compiled, rfl⟩
  | made compiled makes =>
    obtain ⟨hvalidator, hspaces⟩ := hW.makes makes
    exact ⟨.made compiled ((makes_meaning ..).2 hvalidator), hspaces⟩
  | faulty compiled => exact ⟨.faulty compiled, rfl⟩

theorem compilesAll (hW : Adequate K D W) (fuel : Nat) {es : List TypeExpr}
    {outcome : Except AliasError (List Ty)} (h : W.CompilesAll es r outcome r') :
    (meaning D fuel).CompilesAll es () outcome () ∧ r'.spaces = r.spaces := by
  induction h with
  | nil => exact ⟨.nil, rfl⟩
  | cons first _ ih =>
    obtain ⟨hfirst, hspaces⟩ := hW.compiles fuel first
    exact ⟨.cons hfirst ih.1, ih.2.trans hspaces⟩
  | faultyFirst first =>
    obtain ⟨hfirst, hspaces⟩ := hW.compiles fuel first
    exact ⟨.faultyFirst hfirst, hspaces⟩
  | faultyRest first _ ih =>
    obtain ⟨hfirst, hspaces⟩ := hW.compiles fuel first
    exact ⟨.faultyRest hfirst ih.1, ih.2.trans hspaces⟩

theorem normalizes (hW : Adequate K D W) (fuel : Nat) {e : TypeExpr}
    {outcome : Except AliasError (Normalized Generator)} (h : W.Normalizes e r outcome r') :
    (meaning D fuel).Normalizes e () outcome () ∧ r'.spaces = r.spaces := by
  cases h with
  | function => exact ⟨.function, rfl⟩
  | type noFunction compiles =>
    obtain ⟨hcompiles, hspaces⟩ := hW.compiles fuel compiles
    exact ⟨.type noFunction hcompiles, hspaces⟩

/-- What a body does is what is meant by it. -/
theorem runs (hW : Adequate K D W) (hr : Sound K D r) (hlog : Regular K log) {b : Body}
    {frame : Frame} {outcome : Except AliasError TypeExpr} (h : W.Runs b frame r log outcome r') :
    ∃ fuel marks, (meaning D fuel).Runs b frame () marks outcome () ∧
      Mirrors K D r log marks r' := by
  induction h with
  | finish => exact ⟨0, [], .finish, .refl hr⟩
  | fail => exact ⟨0, [], .fail, .refl hr⟩
  | create makes _ ih =>
    obtain ⟨hvalidator, hspaces⟩ := hW.makes makes
    have hmade := Mirrors.of_spaces hr hspaces
    obtain ⟨fuel, marks, hrest, hmirrors⟩ := ih hmade.sound hlog
    exact ⟨fuel, marks, .create ((makes_meaning ..).2 hvalidator) hrest, hmade.trans hmirrors⟩
  | access accesses _ ih =>
    obtain ⟨hfirst, hlast⟩ := hlog.of_append
    obtain ⟨fuel, marks, haccess, hmirrors⟩ := hW.accesses hr hfirst accesses
    obtain ⟨fuel', marks', hrest, hmirrors'⟩ := ih hmirrors.sound hlast
    -- both need fuel, so the larger of the two is enough
    have hle := within_of_le D (Nat.le_max_left fuel fuel')
    have hle' := within_of_le D (Nat.le_max_right fuel fuel')
    exact ⟨_, _, .access (hle.accesses (fun _ _ => trivial) haccess)
      (hle'.runs hrest fun _ _ => trivial), hmirrors.trans hmirrors'⟩
  | call calls _ ih =>
    obtain ⟨hfirst, hlast⟩ := hlog.of_append
    obtain ⟨fuel, marks, hcall, hmirrors⟩ := hW.calls hr hfirst calls
    obtain ⟨fuel', marks', hrest, hmirrors'⟩ := ih hmirrors.sound hlast
    have hle := within_of_le D (Nat.le_max_left fuel fuel')
    have hle' := within_of_le D (Nat.le_max_right fuel fuel')
    exact ⟨_, _, .call (hle.calls (fun _ _ => trivial) hcall)
      (hle'.runs hrest fun _ _ => trivial), hmirrors.trans hmirrors'⟩
  | build _ ih =>
    obtain ⟨fuel, marks, hrest, hmirrors⟩ := ih hr hlog
    exact ⟨fuel, marks, .build hrest, hmirrors⟩

theorem applies (hW : Adequate K D W) (hr : Sound K D r) (hlog : Regular K log) {f : Generator}
    {types : List Ty} {outcome : Except AliasError (Normalized Generator)}
    (h : W.Applies f types r log outcome r') :
    ∃ fuel marks, (meaning D fuel).Applies f types () marks outcome () ∧
      Mirrors K D r log marks r' := by
  cases h with
  | produced runs normalizes =>
    obtain ⟨fuel, marks, hruns, hmirrors⟩ := hW.runs hr hlog runs
    obtain ⟨hnormalizes, hspaces⟩ := hW.normalizes fuel normalizes
    exact ⟨fuel, marks, .produced hruns hnormalizes, hmirrors.congr rfl
      (standing_of_spaces hspaces) (alias?_of_spaces hspaces)⟩
  | failed runs =>
    obtain ⟨fuel, marks, hruns, hmirrors⟩ := hW.runs hr hlog runs
    exact ⟨fuel, marks, .failed hruns, hmirrors⟩

/-- What a type function does with raw arguments is what is meant by calling it. -/
theorem callsFunction (hW : Adequate K D W) (hr : Sound K D r) (hlog : Regular K log)
    {f : Generator} {arguments : List TypeExpr} {outcome : Except AliasError (Normalized Generator)}
    (h : W.Calls f arguments r log outcome r') :
    ∃ fuel marks, (meaning D fuel).Calls f arguments () marks outcome () ∧
      Mirrors K D r log marks r' := by
  cases h with
  | applied compiles applies =>
    obtain ⟨-, hspaces⟩ := hW.compilesAll 0 compiles
    have hcompiled := Mirrors.of_spaces hr hspaces
    obtain ⟨fuel, marks, happlies, hmirrors⟩ := hW.applies hcompiled.sound hlog applies
    exact ⟨fuel, marks, .applied (hW.compilesAll fuel compiles).1 happlies,
      hcompiled.trans hmirrors⟩
  | faulty compiles =>
    obtain ⟨hcompiles, hspaces⟩ := hW.compilesAll 0 compiles
    exact ⟨0, [], .faulty hcompiles, .of_spaces hr hspaces⟩

end Adequate

/-! ## Resolving aliases -/

/-- A plain alias that describes a type is bound or resolved. -/
theorem Sound.state_of_compiles (h : Sound K D r) {a : Accessor} (ha : D.compiles a = true) :
    r.state a = .bound ∨ r.state a = .resolved := by
  rw [← h.definition?_eq, Definitions.compiles, Registry.definition?] at ha
  cases hentry : r.alias? a with
  | none => simp [hentry] at ha
  | some entry =>
    rw [state_of_alias? hentry]
    cases entry with
    | pending | function => simp [hentry, Alias.definition] at ha
    | plain source type =>
      cases type with
      | none => exact .inl rfl
      | some t => exact .inr rfl

/-- Counting anything but compilations, and noting it, leaves a registry sound. -/
theorem Sound.count (h : Sound K D r) (hspaces : r₁.spaces = r.spaces) {counter : Counter}
    (hcounter : counter ≠ .normalizations) (space : Nat) (event : Log.Event)
    (fields : Entries String) :
    Sound K D ((r₁.count space counter).note space event fields) ∧
      ((r₁.count space counter).note space event fields).standing = r.standing := by
  refine ⟨h.of_alias?_eq fun b => ?_, ?_⟩
  · rw [alias?_note, alias?_count, alias?_of_spaces hspaces]
  · rw [standing_note, standing_count hcounter, standing_of_spaces hspaces]

section Resolves

variable {fuel : Nat} {a : Accessor} {arguments : List TypeExpr} {log : List Visit}

/-- The plain aliases that a run touches in which no access fails are resolved afterwards. -/
theorem Mirrors.state_of_touched {marks : List Mark} (hr : Sound K D r)
    (h : Mirrors K D r log marks r') {f : Generator} {types : List Ty}
    {result : Except AliasError (Normalized Generator)}
    (happlies : (meaning D fuel).Applies f types () marks result ()) (hclean : .failed ∉ marks)
    {b : Accessor} (hb : .touched b ∈ marks) : r'.state b = .resolved := by
  have hcompiles : D.compiles b = true := (keeps_touched D fuel).applies happlies hclean b hb
  have hstate := Standing.state_play_of_touched (s := r.standing) (hr.state_of_compiles hcompiles) hb
    hcompiles
  rw [← h.standing_eq] at hstate
  exact hstate

/-- Compiling a plain alias and keeping its type is what its mark stands for. -/
theorem Sound.mirrors_compiled (hr : Sound K D r) {source : TypeExpr} {t : Ty}
    (entry : r.alias? a = some (.plain source none)) (ht : source.validator = .ok t.validator)
    (hspaces : r₁.spaces = (r.count a.space .normalizations).spaces) (event : Log.Event)
    (fields : Entries String) :
    Mirrors K D r [] [.touched a] ((r₁.modifyAlias a (Alias.keep t)).note a.space event fields) := by
  have hcompiles : D.compiles a = true := by
    rw [Definitions.compiles_of_plain (hr.definition? entry), ht]
    rfl
  have hentry : r₁.alias? a = some (.plain source none) := by
    rw [alias?_of_spaces hspaces, alias?_count, entry]
  have hr₁ : Sound K D r₁ := hr.of_alias?_eq fun b => by
    rw [alias?_of_spaces hspaces, alias?_count]
  refine ⟨(hr₁.keep hentry ht).of_alias?_eq fun b => alias?_note .., ?_, fun _ => by simp,
    List.forall_mem_nil _⟩
  rw [standing_note, standing_of_compiled entry hcompiles hspaces]

/-- A plain alias that describes no type keeps nothing, and the failed compilation is counted. -/
theorem Sound.mirrors_faulty (hr : Sound K D r) {source : TypeExpr} {error : AliasError}
    (entry : r.alias? a = some (.plain source none)) (herror : source.validator = .error error)
    (hspaces : r₁.spaces = (r.count a.space .normalizations).spaces) :
    Mirrors K D r [] [.touched a] r₁ := by
  have hcompiles : D.compiles a = false := by
    rw [Definitions.compiles_of_plain (hr.definition? entry), herror]
    rfl
  refine ⟨hr.of_alias?_eq fun b => ?_, ?_, fun _ => by simp, List.forall_mem_nil _⟩
  · rw [alias?_of_spaces hspaces, alias?_count]
  · rw [standing_of_spaces hspaces, standing_of_faulty entry hcompiles]

/-- **What an alias comes to is what it means.** -/
theorem Adequate.resolves (hK : ToldApart K) (hW : Adequate K D (world fuel)) (hr : Sound K D r)
    (hlog : Regular K log) (hgiven : ∀ call, Invocation.ofArguments arguments = .ok call →
      ∀ t, Expr.leaf t ∈ call.parameters → K t)
    {outcome : Except AliasError (Normalized Generator)}
    (hinside : ∀ result, outcome = .ok result → ∀ v ∈ log, ¬ v.Fails)
    (h : Resolves (world fuel) a arguments r log outcome r') :
    ∃ fuel' marks, Means D (meaning D fuel') a arguments marks outcome ∧
      Mirrors K D r log marks r' := by
  have hfaithful : (world fuel).Faithful := faithful_world fuel
  have hcounter : Counter.functionInvocations ≠ .normalizations := nofun
  -- a stable call gets the very types that it was given
  have hstable {call : Invocation Generator} {types : List Ty} {s s' : Registry}
      (invocation : Invocation.ofArguments arguments = .ok call) (stable : call.isStable = true)
      (compiles : (world fuel).CompilesAll call.parameters s (.ok types) s') :
      ∀ t ∈ types, K t := by
    intro t ht
    have hleaves := compiles.of_leaves (List.all_eq_true.1 stable)
    exact hgiven call invocation t (hleaves ▸ List.mem_map_of_mem ht)
  cases h with
  | undefined undefined =>
    refine ⟨0, [], .undefined fun d hd => ?_, .refl hr⟩
    rw [← hr.definition?_eq, Registry.definition?, Option.map_eq_some_iff] at hd
    obtain ⟨entry, hentry, rfl⟩ := hd
    rw [undefined entry hentry]
    rfl
  | overApplied entry hne => exact ⟨0, [], .plain (hr.definition? entry) (.overApplied hne), .refl hr⟩
  | @kept source t entry hnil =>
    have hstate : r.standing.state a = .resolved := state_of_alias? entry
    have hvalidator : source.validator = Ty.validator <$> Except.ok t := hr.kept entry
    refine ⟨0, [.touched a], .plain (hr.definition? entry) (.compiled hnil hvalidator), ?_⟩
    obtain ⟨hsound, hstanding⟩ := hr.count rfl (by decide : Counter.cacheHits ≠ .normalizations)
      a.space .cacheHit [("alias", a.name)]
    exact ⟨hsound, hstanding.trans (Standing.mark_of_resolved hstate).symm, fun _ => by simp,
      List.forall_mem_nil _⟩
  | @compiled source t r₁ entry hnil compiles =>
    have hvalidator : source.validator = Ty.validator <$> Except.ok t :=
      compiles.validator_eq hfaithful
    exact ⟨0, [.touched a], .plain (hr.definition? entry) (.compiled hnil hvalidator),
      hr.mirrors_compiled entry hvalidator (spaces_of_compiles compiles) ..⟩
  | @faultySource source error r₁ entry hnil compiles =>
    have hvalidator : source.validator = Ty.validator <$> Except.error error :=
      compiles.validator_eq hfaithful
    exact ⟨0, [.touched a], .plain (hr.definition? entry) (.compiled hnil hvalidator),
      hr.mirrors_faulty entry hvalidator (spaces_of_compiles compiles)⟩
  | misapplied entry invocation =>
    exact ⟨0, [], .function (hr.definition? entry) (.misapplied invocation), .refl hr⟩
  | faultyParameter entry invocation compiles =>
    obtain ⟨-, hspaces⟩ := hW.compilesAll 0 compiles
    exact ⟨0, [], .function (hr.definition? entry)
      (.faultyParameter invocation (compiles.validators_eq hfaithful)), .of_spaces hr hspaces⟩
  | remembered entry invocation stable compiles found =>
    obtain ⟨-, hspaces⟩ := hW.compilesAll 0 compiles
    obtain ⟨fuel', marks, happlies, hclean, htouched⟩ :=
      hr.remembered entry (hstable invocation stable compiles) found
    refine ⟨fuel', marks, .function (hr.definition? entry)
      (.ran invocation (compiles.validators_eq hfaithful) happlies), ?_⟩
    -- the aliases that the remembered run touched are resolved by now
    have hplay : r.standing.play D.compiles marks = r.standing := Standing.play_of_resolved htouched
    obtain ⟨hsound, hstanding⟩ := hr.count hspaces (by decide : Counter.memoHits ≠ .normalizations)
      a.space .memoHit _
    exact ⟨hsound, hstanding.trans hplay.symm, fun _ => hclean, List.forall_mem_nil _⟩
  | @ran f memo call types result _ r₁ r₂ entry invocation compiles _ applies =>
    obtain ⟨-, hspaces⟩ := hW.compilesAll 0 compiles
    obtain ⟨hsound, hstanding⟩ := hr.count hspaces hcounter a.space .functionInvoked _
    obtain ⟨fuel', marks, happlies, hmirrors⟩ := hW.applies hsound hlog applies
    refine ⟨fuel', marks, .function (hr.definition? entry)
      (.ran invocation (compiles.validators_eq hfaithful) happlies), ?_⟩
    have hclean := hmirrors.clean (hinside result rfl)
    have hbody : Mirrors K D r log marks r₂ := hmirrors.congr hstanding rfl fun _ => rfl
    split
    · next hmemo =>
      refine ⟨?_, (standing_remember types result).trans hbody.standing_eq, fun _ => hclean,
        hbody.meant⟩
      exact hbody.sound.remember hK (hr.definition? entry) (hstable invocation hmemo.1 compiles)
        happlies hclean fun b hb => hbody.state_of_touched hr happlies hclean hb
    · exact hbody
  | failed entry invocation compiles _ applies =>
    obtain ⟨-, hspaces⟩ := hW.compilesAll 0 compiles
    obtain ⟨hsound, hstanding⟩ := hr.count hspaces hcounter a.space .functionInvoked _
    obtain ⟨fuel', marks, happlies, hmirrors⟩ := hW.applies hsound hlog applies
    exact ⟨fuel', marks, .function (hr.definition? entry)
      (.ran invocation (compiles.validators_eq hfaithful) happlies),
      hmirrors.congr hstanding rfl fun _ => rfl⟩

end Resolves

/-- **Sound registries answer what is meant**, and stay sound. -/
theorem adequate_world (hK : ToldApart K) (D : Definitions) (fuel : Nat) :
    Adequate K D (world fuel) := by
  have hmakes {fuel v r t r'} (h : (world fuel).makes v r t r') :
      t.validator = v ∧ r'.spaces = r.spaces := by
    rw [makes_world] at h
    obtain ⟨rfl, rfl⟩ := Prod.mk.inj h
    exact ⟨rfl, rfl⟩
  induction fuel with
  | zero => exact ⟨hmakes, nofun, nofun⟩
  | succ fuel ih =>
    refine ⟨hmakes, fun {a demand arguments r log answer r'} hr hlog h => ?_, fun hr hlog h => ?_⟩
    · obtain @⟨inner, resolved, _, r₁, resolves, hanswer⟩ := h
      obtain ⟨hinner, hlast⟩ := hlog.of_append
      have hdeeper := (resolves.keeps (keeps_nests fuel) (admits_nests a)).2
      have hinside (result) (hresult : resolved = .ok result) :=
        hlog.passesOn.inside (fun w hw => Nat.lt_of_succ_le (hdeeper w hw)) hresult
      obtain ⟨fuel', marks, hmeans, hmirrors⟩ := ih.resolves hK
        (hr.of_alias?_eq fun _ => rfl : Sound K D r.enter) hinner
        (fun call hcall t ht => hlast.given _ List.mem_cons_self t ⟨call, hcall, ht⟩) hinside resolves
      have hleft : Mirrors K D r inner marks (r.leave a answer r₁) :=
        hmirrors.congr rfl (standing_leave ..) fun _ => alias?_leave ..
      have hvisit : Visit.answer ⟨a, demand, arguments, r, resolved, r.leave a answer r₁⟩ = answer :=
        hanswer.symm
      cases answer with
      | ok x =>
        have hanswers : (meaning D (fuel' + 1)).accesses a demand arguments () marks (.ok x) () :=
          Answers.answered hmeans hanswer.symm
        -- the access succeeds, so the accesses inside of it do
        have hclean : .failed ∉ marks := by
          cases resolved with
          | ok result => exact hleft.clean (hinside result rfl)
          | error error => cases hanswer
        refine ⟨fuel' + 1, marks, hanswers, hleft.sound, hleft.standing_eq, fun _ => hclean,
          List.forall_mem_append.2 ⟨hleft.meant, List.forall_mem_singleton.2 ?_⟩⟩
        exact ⟨fuel' + 1, marks, hvisit.symm ▸ hanswers, fun _ _ => hclean⟩
      | error error =>
        have hanswers : (meaning D (fuel' + 1)).accesses a demand arguments ()
          (marks ++ [.failed]) (.error error) () := Answers.failed hmeans hanswer.symm
        refine ⟨fuel' + 1, marks ++ [Mark.failed], hanswers, hleft.sound, ?_, fun hsucceed => ?_,
          List.forall_mem_append.2 ⟨hleft.meant, List.forall_mem_singleton.2 ?_⟩⟩
        · rw [hleft.standing_eq, Standing.play_append]
          rfl
        · exact absurd ⟨error, hanswer.symm⟩
            (hsucceed _ (List.mem_append_right _ List.mem_cons_self))
        · refine ⟨fuel' + 1, marks ++ [.failed], hvisit.symm ▸ hanswers, fun x hx => ?_⟩
          cases hvisit.symm.trans hx
    · obtain ⟨fuel', marks, hcalls, hmirrors⟩ := ih.callsFunction hr hlog h
      exact ⟨fuel' + 1, marks, hcalls, hmirrors⟩

end Registry

end NamedTypes
