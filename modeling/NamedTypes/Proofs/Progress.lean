import NamedTypes.Proofs.Acceptance
import NamedTypes.Proofs.Replay
import NamedTypes.Proofs.Strictness

/-! # What is meant comes about
Adequacy tells that an access that ends comes to what is meant. The converse is **progress**: what
has a meaning without failing accesses, with some fuel, comes about in the program with the same
fuel and with any more (`Registry.attains`). For this a registry must be **fit** (`Registry.Fit`):
it keeps and remembers what its definitions mean, and only types that have been made. What is found
remembered on the way was computed from alike arguments, so it is alike to what is meant. -/

namespace NamedTypes

/-! ## Expressions that describe types -/

/-- An expression that describes a type has no type functions in it, so it is alike to itself. -/
theorem Expr.alike_self {F : Type} {R : F → F → Prop} {e : Expr F} :
    ∀ {v : Validator}, e.validator = .ok v → e.Alike R e := by
  induction e using memberInduction with
  | leaf t => exact fun _ => .leaf (Validator.Alike.refl _)
  | sequence items ih =>
    intro v h
    rw [Expr.validator] at h
    cases hitems : validators items with
    | error error => rw [hitems] at h; cases h
    | ok ts =>
      refine .sequence (List.forall₂_same.2 fun e he => ?_)
      -- every item describes a type
      have hmem : e.validator ∈ ts.map Except.ok :=
        validators_eq_ok_iff.1 hitems ▸ List.mem_map_of_mem he
      obtain ⟨t, -, ht⟩ := List.mem_map.1 hmem
      exact ih e he ht.symm
  | record fields ih =>
    intro v h
    obtain ⟨-, ts, -, hts⟩ := validator_record_eq_ok_iff.1 h
    refine .record ?_
    have hfields : ∀ f ∈ fields, Expr.Alike R f.2 f.2 := by
      intro f hf
      have hsorted : f ∈ Entries.sort fields := (Entries.perm_sort fields).mem_iff.2 hf
      have hmem := List.mem_map_of_mem (f := fun f => (f.1, f.2.validator)) hsorted
      rw [hts] at hmem
      obtain ⟨t, -, ht⟩ := List.mem_map.1 hmem
      exact ih f hf (Prod.mk.inj ht).2.symm
    clear ih h hts
    induction fields with
    | nil => exact .nil
    | cons f fields ih =>
      obtain ⟨hf, hfields⟩ := List.forall_mem_cons.1 hfields
      exact .cons hf (ih hfields)
  | generator f => exact fun h => by cases h
  | data value => exact fun h => by cases h

/-- Expressions that describe types are alike to themselves. -/
theorem Expr.alikes_self {F : Type} {R : F → F → Prop} {es : List (Expr F)} {ts : List Validator}
    (h : validators es = .ok ts) : List.Forall₂ (Expr.Alike R) es es := by
  refine List.forall₂_same.2 fun e he => ?_
  have hmem : e.validator ∈ ts.map Except.ok := validators_eq_ok_iff.1 h ▸ List.mem_map_of_mem he
  obtain ⟨t, -, ht⟩ := List.mem_map.1 hmem
  exact alike_self ht.symm

namespace Registry

variable {K K' : Ty → Prop} {D : Definitions} {s s' : Registry} {log : List Visit} {fuel : Nat}

/-! ## Compiling ends -/

theorem exists_compiles (fuel : Nat) (e : TypeExpr) (r : Registry) :
    ∃ outcome r', (world fuel).Compiles e r outcome r' := by
  cases h : e.compile with
  | error error => exact ⟨_, _, .faulty h⟩
  | ok c =>
    cases c with
    | existing t => exact ⟨_, _, .existing h⟩
    | new v => exact ⟨_, _, .made h ((makes_world ..).2 rfl)⟩

theorem exists_compilesAll (fuel : Nat) (es : List TypeExpr) (r : Registry) :
    ∃ outcome r', (world fuel).CompilesAll es r outcome r' := by
  induction es generalizing r with
  | nil => exact ⟨_, _, .nil⟩
  | cons e es ih =>
    obtain ⟨first, r₁, hfirst⟩ := exists_compiles fuel e r
    cases first with
    | error error => exact ⟨_, _, .faultyFirst hfirst⟩
    | ok t =>
      obtain ⟨rest, r₂, hrest⟩ := ih r₁
      cases rest with
      | error error => exact ⟨_, _, .faultyRest hfirst hrest⟩
      | ok ts => exact ⟨_, _, .cons hfirst hrest⟩

theorem exists_normalizes (fuel : Nat) (e : TypeExpr) (r : Registry) :
    ∃ outcome r', (world fuel).Normalizes e r outcome r' := by
  by_cases hf : ∃ f, e = .generator f
  · obtain ⟨f, rfl⟩ := hf
    exact ⟨_, _, .function⟩
  · obtain ⟨outcome, r', h⟩ := exists_compiles fuel e r
    exact ⟨_, _, .type (fun f hef => hf ⟨f, hef⟩) h⟩

/-! ## Fit registries -/

/-- What holds over the types made so far, and over any further ones together with them. -/
def Lasting (r : Registry) (P : (Ty → Prop) → Prop) : Prop := ∀ K, r.Made ≤ K → P K

theorem Lasting.mono {P : (Ty → Prop) → Prop} (h : s.Lasting P) (hle : s.Made ≤ s'.Made) :
    s'.Lasting P :=
  fun K hK => h K (hle.trans hK)

theorem Lasting.imp {P Q : (Ty → Prop) → Prop} (h : s.Lasting P) (hPQ : ∀ K, P K → Q K) :
    s.Lasting Q :=
  fun K hK => hPQ K (h K hK)

/-- Registries that keep and remember what the definitions `D` mean, and only types that have been
made. -/
structure Fit (D : Definitions) (s : Registry) : Prop where
  sound : Sound s.Made D s
  lasting : s.Lasting fun K => s.Over K

theorem Fit.plain (hs : Fit D s) {a : Accessor} {source : TypeExpr}
    (h : D a = some (.plain source)) : ∃ kept, s.alias? a = some (.plain source kept) := by
  rw [← hs.sound.definition?_eq, Registry.definition?, Option.map_eq_some_iff] at h
  obtain ⟨entry, hentry, hdefinition⟩ := h
  cases entry with
  | plain source' kept =>
    cases hdefinition
    exact ⟨kept, hentry⟩
  | pending | function => cases hdefinition

theorem Fit.function (hs : Fit D s) {a : Accessor} {f : Generator}
    (h : D a = some (.function f)) : ∃ memo, s.alias? a = some (.function f memo) := by
  rw [← hs.sound.definition?_eq, Registry.definition?, Option.map_eq_some_iff] at h
  obtain ⟨entry, hentry, hdefinition⟩ := h
  cases entry with
  | function g memo =>
    cases hdefinition
    exact ⟨memo, hentry⟩
  | pending | plain => cases hdefinition

/-- What was remembered for types of a class is right among more types, if these are told apart. -/
theorem Sound.widen (h : Sound K D s) (hs : s.Over K) (hle : K ≤ K') (hK' : ToldApart K') :
    Sound K' D s where
  definition?_eq := h.definition?_eq
  kept := h.kept
  remembered {a f memo types result} entry htypes found := by
    cases hs a _ entry with
    | function _ _ keys =>
      obtain ⟨known, hkey, hknown⟩ := keys memo types result rfl found
      obtain rfl : known = types := Memo.eq_of_key_eq
        (fun t ht u hu => hK' t u (hle t (hknown t ht)) (htypes u hu)) hkey
      exact h.remembered entry hknown found

/-- Nothing but the names and what they stand for matters. -/
theorem Fit.same (hs : Fit D s) (halias : ∀ a, s'.alias? a = s.alias? a) (hmade : s.Made ≤ s'.Made) :
    Fit D s' where
  sound := (hs.sound.widen (hs.lasting _ le_rfl) hmade (toldApart_made s')).of_alias?_eq halias
  lasting K hK := (hs.lasting K (hmade.trans hK)).of_alias? halias

/-- Compiling parameters leaves a registry fit, and gives types that have been made by then. -/
theorem Fit.compilesAll (hs : Fit D s) {es : List TypeExpr} {ts : List Ty}
    (hes : s.Lasting fun K => ∀ e ∈ es, TypeExpr.Over K e)
    (h : (world fuel).CompilesAll es s (.ok ts) s') :
    Fit D s' ∧ s.Made ≤ s'.Made ∧ s'.Lasting fun K => ∀ t ∈ ts, K t := by
  have hgrows : s.Made ≤ s'.Made := (keeps_made fuel).compilesAll h
  refine ⟨hs.same (alias?_of_spaces (spaces_of_compilesAll h)) hgrows, hgrows, fun K hK => ?_⟩
  have hK' := hgrows.trans hK
  exact ((closed_world K fuel).compilesAll (hs.lasting K hK') (hes K hK') hK h).result ts rfl

theorem passesOn_of_succeed (h : ∀ w ∈ log, ¬ w.Fails) : PassesOn log := by
  intro before inner between outer after hlog _ hfails
  rw [hlog] at h
  exact absurd hfails (h inner (List.mem_append_right _ List.mem_cons_self))

/-- Where at most the last access fails, failures are passed on. -/
theorem passesOn_concat {v : Visit} (h : ∀ w ∈ log, ¬ w.Fails) : PassesOn (log ++ [v]) :=
  (passesOn_of_succeed h).concat fun ⟨w, hw, hfails⟩ => absurd hfails (h w hw)

/-- What an evaluation from a fit registry leads to: a fit registry, and an answer over the types
made by then, which is what is meant. -/
structure Delivers (D : Definitions) (means : World Unit Mark → List Mark →
    Except AliasError (Normalized Generator) → Prop) (s : Registry)
    (answer : Except AliasError (Normalized Generator)) (s' : Registry) : Prop where
  fit : Fit D s'
  grows : s.Made ≤ s'.Made
  lasting : s'.Lasting fun K => Answer.Over K answer
  meant : ∃ n marks, means (meaning D n) marks answer

/-- A body receives what is over the types made by then, and goes on with such a frame. -/
theorem Delivers.receive {means : World Unit Mark → List Mark →
      Except AliasError (Normalized Generator) → Prop}
    {answer : Except AliasError (Normalized Generator)} (h : Delivers D means s answer s')
    {frame : Frame} (hframe : s.Lasting fun K => ∀ f ∈ frame, f.Over K) :
    s'.Lasting fun K =>
      (∀ result, (frame.receive answer).1 = .ok result → result.Over K fun _ => True) ∧
        ∀ f ∈ (frame.receive answer).2, f.Over K :=
  fun K hK => Frame.over_receive (hframe K (h.grows.trans hK)) (h.lasting K hK)

/-- What is over the types made by then, and adequate, delivers what is meant. -/
theorem Fit.delivers {means : World Unit Mark → List Mark →
      Except AliasError (Normalized Generator) → Prop}
    {answer : Except AliasError (Normalized Generator)} (hs : Fit D s) (hgrows : s.Made ≤ s'.Made)
    (hpasses : PassesOn log)
    (hyields : ∀ K, s'.Made ≤ K → Yields K (fun x => x.Over K (Generator.Over K)) log answer s')
    (hadequate : Sound s'.Made D s → Regular s'.Made log →
      ∃ n marks, means (meaning D n) marks answer ∧ Mirrors s'.Made D s log marks s') :
    Delivers D means s answer s' := by
  have hregular := regular_of_over hpasses (hyields _ le_rfl).arguments
  have hsound := hs.sound.widen (hs.lasting _ le_rfl) hgrows (toldApart_made s')
  obtain ⟨n, marks, hmeant, hmirrors⟩ := hadequate hsound hregular
  exact ⟨⟨hmirrors.sound, fun K hK => (hyields K hK).registry⟩, hgrows,
    fun K hK => (hyields K hK).result, n, marks, hmeant⟩

/-- An access of a fit registry that passes on failures delivers what is meant. -/
theorem Fit.accesses (hs : Fit D s) {a : Accessor} {demand : Demand} {es : List TypeExpr}
    {answer : Except AliasError (Normalized Generator)}
    (hes : s.Lasting fun K => ∀ e ∈ es, TypeExpr.Over K e) (hpasses : PassesOn log)
    (h : (world fuel).accesses a demand es s log answer s') :
    Delivers D (fun W marks answer => W.accesses a demand es () marks answer ()) s answer s' := by
  have hgrows : s.Made ≤ s'.Made := (keeps_made fuel).accesses h
  refine hs.delivers hgrows hpasses (fun K hK => ?_) fun hsound hregular =>
    (adequate_world (toldApart_made s') D fuel).accesses hsound hregular h
  have hK' := hgrows.trans hK
  exact (closed_world K fuel).accesses (hs.lasting K hK') (hes K hK') hK h

/-- A call of a type function with a fit registry delivers what is meant. -/
theorem Fit.calls (hs : Fit D s) {f : Generator} {es : List TypeExpr}
    {answer : Except AliasError (Normalized Generator)} (hf : s.Lasting fun K => f.Over K)
    (hes : s.Lasting fun K => ∀ e ∈ es, TypeExpr.Over K e) (hpasses : PassesOn log)
    (h : (world fuel).calls f es s log answer s') :
    Delivers D (fun W marks answer => W.calls f es () marks answer ()) s answer s' := by
  have hgrows : s.Made ≤ s'.Made := (keeps_made fuel).calls h
  refine hs.delivers hgrows hpasses (fun K hK => ?_) fun hsound hregular =>
    (adequate_world (toldApart_made s') D fuel).calls hsound hregular h
  have hK' := hgrows.trans hK
  exact (closed_world K fuel).calls (hs.lasting K hK') (hf K hK') (hes K hK') hK h

/-! ## Bodies that run abreast -/

/-- A body in a meaning, and one in the program that is about to run alike: with a frame that is
alike, from a fit registry, over the types made so far. -/
structure Abreast (D : Definitions) (s : Registry) (b b' : Body) (frame frame' : Frame) : Prop where
  fit : Fit D s
  bodies : b.Alike b'
  frames : List.Forall₂ Generator.Alike frame frame'
  body_over : s.Lasting fun K => b'.Over K
  frame_over : s.Lasting fun K => ∀ f ∈ frame', f.Over K

namespace Abreast

variable {frame frame' : Frame}

/-- After a type has been made, bodies run on abreast. -/
theorem create {v w : Validator} {next next' : Ty → Body} {t : Ty}
    (h : Abreast D s (.create v next) (.create w next') frame frame') (ht : t.validator = v) :
    Abreast D (s.newType w).2 (next t) (next' (s.newType w).1) frame frame' := by
  have hgrows := made_le_newType s w
  obtain ⟨hs, bodies, hframe, hb', hframe'⟩ := h
  obtain _ | _ | ⟨-, rest⟩ := bodies
  refine ⟨hs.same (fun _ => rfl) hgrows, rest t _ ht rfl, hframe, fun K hK => ?_,
    hframe'.mono hgrows⟩
  cases hb' K (hgrows.trans hK) with
  | create hrest => exact hrest _ (hK _ (made_newType s w)) rfl

/-- After alike answers, bodies run on abreast. -/
theorem answered {means : World Unit Mark → List Mark →
      Except AliasError (Normalized Generator) → Prop}
    {answer answer' : Except AliasError (Normalized Generator)}
    {next next' : Except AliasError (Normalized Nat) → Body}
    (hframe : List.Forall₂ Generator.Alike frame frame')
    (hframe' : s.Lasting fun K => ∀ f ∈ frame', f.Over K) (h : Delivers D means s answer' s')
    (hanswer : Answer.Alike answer answer')
    (rest : ∀ x y, Likewise (Normalized.Alike Eq) x y → (next x).Alike (next' y))
    (hnext : s.Lasting fun K => ∀ x : Except AliasError (Normalized Nat),
      (∀ result, x = .ok result → result.Over K fun _ => True) → (next' x).Over K) :
    Abreast D s' (next (frame.receive answer).1) (next' (frame'.receive answer').1)
      (frame.receive answer).2 (frame'.receive answer').2 := by
  have hover := h.receive hframe'
  obtain ⟨hreceived, hframes⟩ := Frame.alike_receive hframe hanswer
  exact ⟨h.fit, rest _ _ hreceived, hframes,
    fun K hK => hnext K (h.grows.trans hK) _ (hover K hK).1, hover.imp fun _ h => h.2⟩

/-- After a function has been built, bodies run on abreast. -/
theorem build {captured : List Nat} {function function' : List Ty → Body} {next next' : Nat → Body}
    (h : Abreast D s (.build captured function next) (.build captured function' next') frame
      frame') :
    Abreast D s (next frame.length) (next' frame'.length) (frame.build captured function)
      (frame'.build captured function') := by
  obtain ⟨hs, bodies, hframe, hb', hframe'⟩ := h
  obtain _ | _ | _ | _ | _ | ⟨built, rest⟩ := bodies
  refine ⟨hs, hframe.length_eq ▸ rest _, Frame.alike_build hframe captured built, fun K hK => ?_,
    fun K hK => ?_⟩
  · cases hb' K hK with
    | build _ rest => exact rest _
  · cases hb' K hK with
    | build built => exact Frame.over_build (hframe' K hK) captured built

end Abreast

/-! ## Failures that are passed on -/

/-- No access of a meaning fails, or everything that runs is strict. -/
def Careful (marks : List Mark) (strict : Prop) : Prop := .failed ∉ marks ∨ strict

theorem Careful.imp {marks : List Mark} {strict strict' : Prop} (h : Careful marks strict)
    (himp : strict → strict') : Careful marks strict' :=
  Or.imp_right himp h

theorem Careful.of_append {marks marks' : List Mark} {strict : Prop}
    (h : Careful (marks ++ marks') strict) : Careful marks strict ∧ Careful marks' strict := by
  obtain hclean | hstrict := h
  · rw [List.mem_append, not_or] at hclean
    exact ⟨.inl hclean.1, .inl hclean.2⟩
  · exact ⟨.inr hstrict, .inr hstrict⟩

variable {n : Nat} {marks : List Mark}

theorem passesOn_of_accesses {a : Accessor} {demand : Demand} {es : List TypeExpr}
    {answer : Except AliasError (Normalized Generator)} (hcareful : Careful marks s.Strict)
    (hsucceed : .failed ∉ marks → ∀ v ∈ log, ¬ v.Fails)
    (h : (world fuel).accesses a demand es s log answer s') : PassesOn log :=
  hcareful.elim (fun hclean => passesOn_of_succeed (hsucceed hclean)) fun hs =>
    ((disciplined_world fuel).accesses hs h).passesOn

theorem passesOn_of_calls {f : Generator} {es : List TypeExpr}
    {answer : Except AliasError (Normalized Generator)}
    (hcareful : Careful marks (s.Strict ∧ f.Strict))
    (hsucceed : .failed ∉ marks → ∀ v ∈ log, ¬ v.Fails)
    (h : (world fuel).calls f es s log answer s') : PassesOn log :=
  hcareful.elim (fun hclean => passesOn_of_succeed (hsucceed hclean)) fun ⟨hs, hf⟩ =>
    ((disciplined_world fuel).calls hs hf h).passesOn

/-! ## Progress -/

/-- What has a meaning with the fuel `n`, in which no access fails or everything is strict, comes
about from fit registries with the fuel `fuel`, for all alike requests. -/
structure Attains (D : Definitions) (n fuel : Nat) : Prop where
  accesses : ∀ {a demand es es' s marks answer}, Fit D s → List.Forall₂ TypeExpr.Alike es es' →
    (s.Lasting fun K => ∀ e ∈ es', TypeExpr.Over K e) → Careful marks s.Strict →
    (meaning D n).accesses a demand es () marks answer () →
    ∃ log answer' s', (world fuel).accesses a demand es' s log answer' s' ∧
      (.failed ∉ marks → ∀ v ∈ log, ¬ v.Fails) ∧ Answer.Alike answer answer'
  calls : ∀ {f g es es' s marks answer}, Fit D s → f.Alike g →
    List.Forall₂ TypeExpr.Alike es es' → (s.Lasting fun K => g.Over K) →
    (s.Lasting fun K => ∀ e ∈ es', TypeExpr.Over K e) → Careful marks (s.Strict ∧ g.Strict) →
    (meaning D n).calls f es () marks answer () →
    ∃ log answer' s', (world fuel).calls g es' s log answer' s' ∧
      (.failed ∉ marks → ∀ v ∈ log, ¬ v.Fails) ∧ Answer.Alike answer answer'

namespace Attains

/-- What succeeds in both of two stretches succeeds. -/
theorem succeed_append {marks' : List Mark} {log' : List Visit}
    (h : .failed ∉ marks → ∀ v ∈ log, ¬ v.Fails) (h' : .failed ∉ marks' → ∀ v ∈ log', ¬ v.Fails) :
    .failed ∉ marks ++ marks' → ∀ v ∈ log ++ log', ¬ v.Fails := by
  intro hclean
  rw [List.mem_append, not_or] at hclean
  exact List.forall_mem_append.2 ⟨h hclean.1, h' hclean.2⟩

/-- A body that runs in the meaning runs in the program. -/
theorem runs (hA : Attains D n fuel) {b b' : Body} {frame frame' : Frame} {u u' : Unit}
    {outcome : Except AliasError TypeExpr} (hrun : Abreast D s b b' frame frame')
    (hcareful : Careful marks (StrictRun s b' frame'))
    (h : (meaning D n).Runs b frame u marks outcome u') :
    ∃ log outcome' s', (world fuel).Runs b' frame' s log outcome' s' ∧
      (.failed ∉ marks → ∀ v ∈ log, ¬ v.Fails) := by
  -- each answer of the program is alike to that of the meaning, so both bodies stay abreast
  induction h generalizing b' frame' s with
  | finish =>
    obtain ⟨-⟩ := hrun.bodies
    exact ⟨_, _, _, .finish, fun _ => List.forall_mem_nil _⟩
  | fail =>
    obtain _ | _ := hrun.bodies
    exact ⟨_, _, _, .fail, fun _ => List.forall_mem_nil _⟩
  | create makes _ ih =>
    obtain _ | _ | @⟨_, w, _, next', -, -⟩ := hrun.bodies
    have hmakes : (world fuel).makes w s (s.newType w).1 (s.newType w).2 := (makes_world ..).2 rfl
    obtain ⟨log, outcome', s', hrest, hsucceed⟩ :=
      ih (hrun.create ((makes_meaning ..).1 makes)) (hcareful.imp fun h => h.create _)
    exact ⟨log, outcome', s', .create hmakes hrest, hsucceed⟩
  | access accesses _ ih =>
    obtain ⟨hs, bodies, hframe, hb', hframe'⟩ := hrun
    obtain _ | _ | _ | @⟨a, demand, _, es', _, next', arguments, rest⟩ := bodies
    obtain ⟨hcareful, hcareful'⟩ := hcareful.of_append
    have hes' : s.Lasting fun K => ∀ e ∈ es'.map frame'.close, TypeExpr.Over K e := by
      intro K hK
      cases hb' K hK with
      | access arguments => exact Frame.over_arguments (hframe' K hK) arguments
    have hfirst := hcareful.imp StrictRun.registry
    obtain ⟨log, answer', s₁, haccess, hsucceed, hanswer⟩ :=
      hA.accesses hs (Frame.alike_arguments hframe arguments) hes' hfirst accesses
    have hdelivers := hs.accesses hes' (passesOn_of_accesses hfirst hsucceed haccess) haccess
    have hnext := Abreast.answered hframe hframe' hdelivers hanswer rest fun K hK => by
      cases hb' K hK with
      | access _ rest => exact rest
    obtain ⟨log', outcome', s', hrest, hsucceed'⟩ :=
      ih hnext (hcareful'.imp fun h => h.access haccess)
    exact ⟨_, outcome', s', .access haccess hrest, succeed_append hsucceed hsucceed'⟩
  | @call position _ _ _ _ _ _ _ _ _ _ calls _ ih =>
    obtain ⟨hs, bodies, hframe, hb', hframe'⟩ := hrun
    obtain _ | _ | _ | _ | @⟨_, _, es', _, next', arguments, rest⟩ := bodies
    obtain ⟨hcareful, hcareful'⟩ := hcareful.of_append
    have hes' : s.Lasting fun K => ∀ e ∈ es'.map frame'.close, TypeExpr.Over K e := by
      intro K hK
      cases hb' K hK with
      | call arguments => exact Frame.over_arguments (hframe' K hK) arguments
    have hf : s.Lasting fun K => (frame'.get position).Over K :=
      hframe'.imp fun _ h => Frame.over_get h position
    have hfirst := hcareful.imp fun h => And.intro h.registry (Frame.strict_get h.frame position)
    obtain ⟨log, answer', s₁, hcall, hsucceed, hanswer⟩ := hA.calls hs
      (Frame.alike_get hframe position) (Frame.alike_arguments hframe arguments) hf hes' hfirst calls
    have hdelivers := hs.calls hf hes' (passesOn_of_calls hfirst hsucceed hcall) hcall
    have hnext := Abreast.answered hframe hframe' hdelivers hanswer rest fun K hK => by
      cases hb' K hK with
      | call _ rest => exact rest
    obtain ⟨log', outcome', s', hrest, hsucceed'⟩ :=
      ih hnext (hcareful'.imp fun h => h.call hcall)
    exact ⟨_, outcome', s', .call hcall hrest, succeed_append hsucceed hsucceed'⟩
  | build _ ih =>
    obtain _ | _ | _ | _ | _ | _ := hrun.bodies
    obtain ⟨log, outcome', s', hrest, hsucceed⟩ := ih hrun.build (hcareful.imp StrictRun.build)
    exact ⟨log, outcome', s', .build hrest, hsucceed⟩

theorem applies (hA : Attains D n fuel) {f g : Generator} {ts us : List Ty}
    {outcome : Except AliasError (Normalized Generator)} (hs : Fit D s) (hfg : f.Alike g)
    (hts : List.Forall₂ Ty.Alike ts us) (hg : s.Lasting fun K => g.Over K)
    (hus : s.Lasting fun K => ∀ t ∈ us, K t) (hcareful : Careful marks (s.Strict ∧ g.Strict))
    (h : (meaning D n).Applies f ts () marks outcome ()) :
    ∃ log outcome' s', (world fuel).Applies g us s log outcome' s' ∧
      (.failed ∉ marks → ∀ v ∈ log, ¬ v.Fails) := by
  have hbody : s.Lasting fun K => (g.body us).Over K := by
    intro K hK
    cases hg K hK with
    | mk _ bodies => exact bodies us (hus K hK)
  have hcaptured : s.Lasting fun K => ∀ f ∈ g.captured, f.Over K := hg.imp fun K hover => by
    cases hover with
    | mk captures _ => exact captures
  have hstrict : Careful marks (StrictRun s (g.body us) g.captured) :=
    hcareful.imp fun ⟨hstrict, hgstrict⟩ => by
      cases hgstrict with
      | mk captures bodies => exact ⟨hstrict, bodies us, captures⟩
  have hmeant : ∃ outcome u, (meaning D n).Runs (f.body ts) f.captured () marks outcome u := by
    cases h with
    | produced runs => exact ⟨_, _, runs⟩
    | failed runs => exact ⟨_, _, runs⟩
  obtain ⟨_, _, hmeant⟩ := hmeant
  obtain ⟨captures, bodies⟩ := hfg
  obtain ⟨log, produced, s₁, hrun, hsucceed⟩ :=
    hA.runs ⟨hs, bodies ts us hts, captures, hbody, hcaptured⟩ hstrict hmeant
  cases produced with
  | error error => exact ⟨log, _, s₁, .failed hrun, hsucceed⟩
  | ok e =>
    obtain ⟨outcome', s', hnormalizes⟩ := exists_normalizes fuel e s₁
    exact ⟨log, outcome', s', .produced hrun hnormalizes, hsucceed⟩

/-- Parameters that come to types in the meaning come to alike types in the program, and those that
do not come to the same fault. -/
theorem likewise_of_compilesAll {es es' : List TypeExpr} {r r' : Registry}
    {expected : Except AliasError (List Ty)} {outcome : Except AliasError (List Ty)}
    (hes : List.Forall₂ TypeExpr.Alike es es')
    (hexpected : Expr.validators es = List.map Ty.validator <$> expected)
    (h : (world fuel).CompilesAll es' r outcome r') :
    Likewise (List.Forall₂ Ty.Alike) expected outcome := by
  have hvalidators := Expr.likewise_validators hes fun e _ e' he => he.validator
  rw [hexpected, h.validators_eq (faithful_world fuel)] at hvalidators
  exact hvalidators.of_map fun _ _ => alike_types

/-- A call that has a meaning comes about. -/
theorem callsFunction (hA : Attains D n fuel) {f g : Generator} {es es' : List TypeExpr}
    {answer : Except AliasError (Normalized Generator)} (hs : Fit D s) (hfg : f.Alike g)
    (hes : List.Forall₂ TypeExpr.Alike es es') (hg : s.Lasting fun K => g.Over K)
    (hes' : s.Lasting fun K => ∀ e ∈ es', TypeExpr.Over K e)
    (hcareful : Careful marks (s.Strict ∧ g.Strict))
    (h : (meaning D n).Calls f es () marks answer ()) :
    ∃ log answer' s', (world fuel).Calls g es' s log answer' s' ∧
      (.failed ∉ marks → ∀ v ∈ log, ¬ v.Fails) := by
  obtain ⟨outcome, s₁, hcompiles⟩ := exists_compilesAll fuel es' s
  cases outcome with
  | error error => exact ⟨[], _, s₁, .faulty hcompiles, fun _ => List.forall_mem_nil _⟩
  | ok us =>
    obtain ⟨hfit, hgrows, hus⟩ := hs.compilesAll hes' hcompiles
    cases h with
    | applied compiles applies =>
      obtain ⟨halike⟩ := likewise_of_compilesAll hes
        (compiles.validators_eq (faithful_meaning D n)) hcompiles
      have hcareful' := hcareful.imp fun ⟨hstrict, hgstrict⟩ =>
        And.intro (orderly_compilesAll hstrict hcompiles).strict hgstrict
      obtain ⟨log, answer', s', happlies, hsucceed⟩ :=
        hA.applies hfit hfg halike (hg.mono hgrows) hus hcareful' applies
      exact ⟨log, answer', s', .applied hcompiles happlies, hsucceed⟩
    | faulty compiles =>
      cases likewise_of_compilesAll hes (compiles.validators_eq (faithful_meaning D n)) hcompiles

/-- A plain alias answers whatever it means. -/
theorem resolves_plain {a : Accessor} {source : TypeExpr} {es es' : List TypeExpr}
    {outcome : Except AliasError (Normalized Generator)} (hs : Fit D s)
    (hes : List.Forall₂ TypeExpr.Alike es es') (definition : D a = some (.plain source))
    (h : MeansPlain a source es marks outcome) :
    ∃ outcome' s', Resolves (world fuel) a es' s [] outcome' s' := by
  obtain ⟨kept, entry⟩ := hs.plain definition
  cases h with
  | overApplied arguments_ne_nil =>
    refine ⟨_, _, .overApplied entry ?_⟩
    rintro rfl
    exact arguments_ne_nil (List.forall₂_nil_right_iff.1 hes)
  | compiled arguments_eq_nil =>
    subst arguments_eq_nil
    obtain rfl := List.forall₂_nil_left_iff.1 hes
    cases kept with
    | some t => exact ⟨_, _, .kept entry rfl⟩
    | none =>
      obtain ⟨compiled, s₁, hcompiles⟩ := exists_compiles fuel source (s.count a.space .normalizations)
      cases compiled with
      | ok t => exact ⟨_, _, .compiled entry rfl hcompiles⟩
      | error error => exact ⟨_, _, .faultySource entry rfl hcompiles⟩

/-- A type function answers whatever it means, with what it remembers or else by running again. -/
theorem resolves_function (hA : Attains D n fuel) {a : Accessor} {f : Generator}
    {es es' : List TypeExpr} {outcome : Except AliasError (Normalized Generator)} (hs : Fit D s)
    (hself : f.Alike f) (hes : List.Forall₂ TypeExpr.Alike es es')
    (hes' : s.Lasting fun K => ∀ e ∈ es', TypeExpr.Over K e)
    (definition : D a = some (.function f)) (hcareful : Careful marks s.Strict)
    (h : MeansCall (meaning D n) f es marks outcome) :
    ∃ log outcome' s', Resolves (world fuel) a es' s log outcome' s' ∧
      (.failed ∉ marks → ∀ v ∈ log, ¬ v.Fails) := by
  obtain ⟨memo, entry⟩ := hs.function definition
  have hinvocation := Invocation.likewise_ofArguments hes
  have hparameters {call call' : Invocation Generator} (h : Invocation.Alike Generator.Alike call call') :
      List.Forall₂ TypeExpr.Alike call.parameters call'.parameters := by
    cases h with
    | bare => exact .nil
    | applied parameters => exact parameters
  cases h with
  | misapplied invocation =>
    rw [invocation] at hinvocation
    generalize hcall' : Invocation.ofArguments es' = o at hinvocation
    cases hinvocation
    exact ⟨[], _, _, .misapplied entry hcall', fun _ => List.forall_mem_nil _⟩
  | @faultyParameter call error invocation faulty =>
    rw [invocation] at hinvocation
    generalize hcall' : Invocation.ofArguments es' = o at hinvocation
    obtain @⟨_, call', hcalls⟩ := hinvocation
    obtain ⟨compiled, s₁, hcompiles⟩ := exists_compilesAll fuel call'.parameters s
    have hsame : Likewise _ (.error error) compiled :=
      likewise_of_compilesAll (hparameters hcalls) faulty hcompiles
    cases hsame
    exact ⟨[], _, _, .faultyParameter entry hcall' hcompiles, fun _ => List.forall_mem_nil _⟩
  | @ran call ts _ _ invocation validators_eq applies =>
    rw [invocation] at hinvocation
    generalize hcall' : Invocation.ofArguments es' = o at hinvocation
    obtain @⟨_, call', hcalls⟩ := hinvocation
    obtain ⟨compiled, s₁, hcompiles⟩ := exists_compilesAll fuel call'.parameters s
    have hsame : Likewise _ (.ok ts) compiled :=
      likewise_of_compilesAll (hparameters hcalls) validators_eq hcompiles
    obtain @⟨_, us, halike⟩ := hsame
    cases hfound : (if call'.isStable then memo else none).bind fun m => m.get? us with
    | some result =>
      cases hstable : call'.isStable with
      | false => simp [hstable] at hfound
      | true =>
        rw [hstable, if_pos rfl, Option.bind_eq_some_iff] at hfound
        obtain ⟨m, rfl, hfound⟩ := hfound
        exact ⟨[], _, _, .remembered entry hcall' hstable hcompiles hfound,
          fun _ => List.forall_mem_nil _⟩
    | none =>
      have hnot : call'.isStable = true → (memo.bind fun m => m.get? us) = none :=
        fun hstable => by rwa [hstable, if_pos rfl] at hfound
      obtain ⟨hfit, hgrows, hus⟩ := hs.compilesAll (hes'.imp fun _ h =>
        Invocation.over_parameters h hcall') hcompiles
      -- the body runs after the invocation has been counted and noted
      let s₂ := (s₁.count a.space .functionInvocations).note a.space .functionInvoked
        [("alias", a.name), ("arity", toString us.length)]
      have hnoted : s₁.Made ≤ s₂.Made := made_le_note (r := s₁.count a.space .functionInvocations)
      have hsame (b : Accessor) : s₂.alias? b = s₁.alias? b := by rw [alias?_note, alias?_count]
      have hfit₂ : Fit D s₂ := hfit.same hsame hnoted
      have hf : s.Lasting fun K => f.Over K := hs.lasting.imp fun K hover => by
        cases hover a _ entry with
        | function function_over => exact function_over
      have hcareful' : Careful marks (s₂.Strict ∧ f.Strict) := hcareful.imp fun hstrict => by
        refine ⟨(orderly_compilesAll hstrict hcompiles).strict.of_alias? hsame, ?_⟩
        cases hstrict a _ entry with
        | function function_strict => exact function_strict
      obtain ⟨log, outcome, s', happlies, hsucceed⟩ := hA.applies hfit₂ hself halike
        (hf.mono (hgrows.trans hnoted)) (hus.mono hnoted) hcareful' applies
      cases outcome with
      | ok result => exact ⟨log, _, _, .ran entry hcall' hcompiles hnot happlies, hsucceed⟩
      | error error => exact ⟨log, _, _, .failed entry hcall' hcompiles hnot happlies, hsucceed⟩

/-- **What an alias means comes about.** -/
theorem resolves (hA : Attains D n fuel) (hD : ∀ a, Option.Rel Definition.Alike (D a) (D a))
    {a : Accessor} {es es' : List TypeExpr} {outcome : Except AliasError (Normalized Generator)}
    (hs : Fit D s) (hes : List.Forall₂ TypeExpr.Alike es es')
    (hes' : s.Lasting fun K => ∀ e ∈ es', TypeExpr.Over K e) (hcareful : Careful marks s.Strict)
    (h : Means D (meaning D n) a es marks outcome) :
    ∃ log outcome' s', Resolves (world fuel) a es' s log outcome' s' ∧
      (.failed ∉ marks → ∀ v ∈ log, ¬ v.Fails) := by
  cases h with
  | undefined undefined =>
    refine ⟨[], _, _, .undefined fun entry hentry => ?_, fun _ => List.forall_mem_nil _⟩
    have hpending := undefined _ (hs.sound.definition? hentry)
    cases entry with
    | pending => rfl
    | plain | function => cases hpending
  | plain definition means =>
    obtain ⟨outcome', s', hresolves⟩ := resolves_plain hs hes definition means
    exact ⟨[], outcome', s', hresolves, fun _ => List.forall_mem_nil _⟩
  | function definition means =>
    have ha := hD a
    rw [definition] at ha
    obtain ⟨_ | _ | ⟨functions⟩⟩ := ha
    exact hA.resolves_function hs functions hes hes' definition hcareful means

end Attains

/-- **What is meant comes about**, with the fuel of its meaning and with any more. -/
theorem attains (hD : ∀ a, Option.Rel Definition.Alike (D a) (D a)) (n : Nat) :
    ∀ {fuel : Nat}, n ≤ fuel → Attains D n fuel := by
  induction n with
  | zero => exact fun _ => ⟨fun _ _ _ _ h => h.elim, fun _ _ _ _ _ _ h => h.elim⟩
  | succ n ih =>
    intro fuel hle
    obtain ⟨fuel, rfl⟩ : ∃ k, fuel = k + 1 := ⟨fuel - 1, by omega⟩
    have hA := ih (Nat.le_of_succ_le_succ hle)
    refine ⟨fun {a demand es es' s marks answer} hs hes hes' hcareful h => ?_,
      fun {f g es es' s marks answer} hs hfg hes hg hes' hcareful h => ?_⟩
    · have hmeant : (meaning D (n + 1)).accesses a demand es () marks answer () := h
      have hentered : Fit D s.enter := hs.same (fun _ => rfl) le_rfl
      have hmeans : ∃ marks' resolved, Means D (meaning D n) a es marks' resolved ∧
          Careful marks' s.Strict ∧ (.failed ∉ marks → .failed ∉ marks' ∧ ∃ x, answer = .ok x) := by
        cases h with
        | answered means answer_eq =>
          exact ⟨_, _, means, hcareful, fun hclean => ⟨hclean, _, rfl⟩⟩
        | failed means answer_eq =>
          exact ⟨_, _, means, hcareful.of_append.1, fun hclean =>
            absurd (List.mem_append_right _ List.mem_cons_self) hclean⟩
      obtain ⟨marks', resolved, means, hcareful', hclean'⟩ := hmeans
      obtain ⟨inner, outcome, s₁, hresolves, hsucceed⟩ :=
        hA.resolves hD hentered hes hes' (hcareful'.imp fun h => h.of_alias? fun _ => rfl) means
      have haccess : (world (fuel + 1)).accesses a demand es' s _ (outcome >>= demand.require) _ :=
        Accesses.intro hresolves rfl
      have hpasses : PassesOn _ := hcareful'.elim
        (fun hclean => passesOn_concat (hsucceed hclean))
        fun hstrict => ((disciplined_world (fuel + 1)).accesses hstrict haccess).passesOn
      obtain ⟨m, _, hmeant'⟩ := (hs.accesses hes' hpasses haccess).meant
      have halike := ((lockstep_meaning hD (n + 1) m).accesses trivial hes hmeant hmeant' trivial).1
      refine ⟨_, _, _, haccess, fun hclean => ?_, halike⟩
      obtain ⟨hinner, x, rfl⟩ := hclean' hclean
      refine List.forall_mem_append.2 ⟨hsucceed hinner, List.forall_mem_singleton.2 ?_⟩
      -- the answer is alike to a result, so it is one
      rintro ⟨error, herror⟩
      rw [show outcome >>= demand.require = .error error from herror] at halike
      cases halike
    · obtain ⟨log, answer', s', hcall, hsucceed⟩ := hA.callsFunction hs hfg hes hg hes' hcareful h
      have hcall' : (world (fuel + 1)).calls g es' s log answer' s' := hcall
      obtain ⟨m, marks', hmeant⟩ :=
        (hs.calls hg hes' (passesOn_of_calls hcareful hsucceed hcall') hcall').meant
      have halike := ((lockstep_meaning hD (n + 1) m).calls trivial hfg hes h hmeant trivial).1
      exact ⟨log, answer', s', hcall', hsucceed, halike⟩

end Registry

end NamedTypes
