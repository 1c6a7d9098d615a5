import NamedTypes.Proofs.ConfigText
import NamedTypes.Proofs.ReadAsWritten
import NamedTypes.Proofs.Remembering
import NamedTypes.Proofs.SessionProvenance

/-! # Which configurations are accepted
The text of an object is a configuration if and only if its members are well formed
(`Config.WellFormed`), and the configuration is then what they describe (`Config.Describes`), in
whatever order they stand. No configuration that is read silences failures: under each of them,
those of a namespace are written (`config_text_accepted`). -/

namespace NamedTypes

namespace Config

open Json

/-! ## Members -/

/-- A value that names a level: its name as a string, or an object whose one member has the name as
its key and the value `null`. -/
def NamesLevel (value : Tree) (level : Log.Severity) : Prop :=
  value = .string level.name ∨ value = .object [(level.name, .null)]

/-- Members that describe a configuration. -/
structure WellFormed (members : List (String × Tree)) : Prop where
  /-- The keys are known. -/
  known : ∀ m ∈ members, m.1 = "log_level" ∨ m.1 = "memoize_generators"
  /-- No key occurs twice. -/
  nodup : (members.map Prod.fst).Nodup
  /-- The level is one at which failures are written. -/
  level : ∀ value, ("log_level", value) ∈ members →
    ∃ level, level ≤ .error ∧ NamesLevel value level
  /-- Whether results are remembered is a truth value. -/
  truth : ∀ value, ("memoize_generators", value) ∈ members → ∃ b, value = .bool b

/-- The members give the values of the configuration, which has defaults for what they leave out. -/
structure Describes (members : List (String × Tree)) (c : Config) : Prop where
  level : ∀ value, ("log_level", value) ∈ members → NamesLevel value c.logLevel
  noLevel : (∀ value, ("log_level", value) ∉ members) → c.logLevel = .info
  truth : ∀ value, ("memoize_generators", value) ∈ members → value = .bool c.memoize
  noTruth : (∀ value, ("memoize_generators", value) ∉ members) → c.memoize = false

theorem ofName?_eq_some_iff {name : String} {level : Log.Severity} :
    Log.Severity.ofName? name = some level ↔ name = level.name := by
  constructor
  · intro h
    unfold Log.Severity.ofName? at h
    have hname := List.find?_some h
    exact (eq_of_beq hname).symm
  · rintro rfl
    cases level <;> rfl

theorem level?_eq_some_iff {t : Tree} {level : Log.Severity} :
    t.level? = some level ↔ NamesLevel t level := by
  unfold Tree.level? NamesLevel
  split
  · simp [ofName?_eq_some_iff]
  · simp [ofName?_eq_some_iff]
  · next hstring hobject =>
    refine ⟨nofun, ?_⟩
    rintro (rfl | rfl)
    · exact absurd rfl (hstring _)
    · exact absurd rfl (hobject _)

theorem bool?_eq_some_iff {t : Tree} {b : Bool} : t.bool? = some b ↔ t = .bool b := by
  unfold Tree.bool?
  split
  · simp
  · next hbool =>
    refine ⟨nofun, ?_⟩
    rintro rfl
    exact absurd rfl (hbool _)

theorem le_error_iff {level : Log.Severity} : level ≤ .error ↔ level ≠ .fatal := by
  cases level <;> decide

/-! ## What members are taken for -/

/-- The values of the members with a key. -/
def valuesOf (key : String) (members : List (String × Tree)) : List Tree :=
  members.filterMap fun m => if m.1 = key then some m.2 else none

theorem mem_valuesOf {key : String} {members : List (String × Tree)} {value : Tree} :
    value ∈ valuesOf key members ↔ (key, value) ∈ members := by
  simp only [valuesOf, List.mem_filterMap, Option.ite_none_right_eq_some, Option.some.injEq]
  constructor
  · rintro ⟨⟨_, _⟩, hm, rfl, rfl⟩
    exact hm
  · exact fun h => ⟨_, h, rfl, rfl⟩

theorem valuesOf_cons_self (key : String) (value : Tree) (members : List (String × Tree)) :
    valuesOf key ((key, value) :: members) = value :: valuesOf key members := by
  simp [valuesOf]

theorem valuesOf_cons_of_ne {key : String} {m : String × Tree} (h : m.1 ≠ key)
    (members : List (String × Tree)) : valuesOf key (m :: members) = valuesOf key members := by
  simp [valuesOf, h]

theorem count_keys (key : String) (members : List (String × Tree)) :
    (members.map Prod.fst).count key = (valuesOf key members).length := by
  induction members with
  | nil => rfl
  | cons m members ih =>
    obtain ⟨other, value⟩ := m
    by_cases h : other = key
    · subst h
      rw [valuesOf_cons_self, List.map_cons, List.count_cons_self, ih, List.length_cons]
    · rw [valuesOf_cons_of_ne h, List.map_cons, List.count_cons_of_ne h, ih]

variable {α : Type} {value? : Tree → Option α} {old new : Option α} {values : List Tree}

/-- What is known of a field after the values of its key: what was known, if there are none, and the
one value if nothing was known. -/
def Taken (value? : Tree → Option α) (old : Option α) (values : List Tree) (new : Option α) :
    Prop :=
  values = [] ∧ new = old ∨
    old = none ∧ ∃ value a, values = [value] ∧ value? value = some a ∧ new = some a

theorem taken_nil : Taken value? old [] new ↔ new = old := by
  simp [Taken]

theorem taken_cons {value : Tree} : Taken value? old (value :: values) new ↔
    old = none ∧ ∃ a, value? value = some a ∧ Taken value? (some a) values new := by
  simp only [Taken, List.cons_ne_nil, false_and, false_or, List.cons.injEq, reduceCtorEq, or_false]
  constructor
  · rintro ⟨hold, _, a, ⟨rfl, rfl⟩, ha, rfl⟩
    exact ⟨hold, a, ha, rfl, rfl⟩
  · rintro ⟨hold, a, ha, rfl, rfl⟩
    exact ⟨hold, value, a, ⟨rfl, rfl⟩, ha, rfl⟩

/-- **Members are taken one by one**: the keys are known, and each field has its value from the
members with its own key. -/
theorem takeAll_eq_some_iff {members : List (String × Tree)} {d d' : Draft} :
    d.takeAll members = some d' ↔
      (∀ m ∈ members, m.1 = "log_level" ∨ m.1 = "memoize_generators") ∧
      Taken Tree.level? d.logLevel (valuesOf "log_level" members) d'.logLevel ∧
      Taken Tree.bool? d.memoize (valuesOf "memoize_generators" members) d'.memoize := by
  induction members generalizing d with
  | nil =>
    obtain ⟨level, memoize⟩ := d
    obtain ⟨level', memoize'⟩ := d'
    simp [Draft.takeAll, valuesOf, taken_nil, eq_comm]
  | cons m members ih =>
    obtain ⟨key, value⟩ := m
    rw [Draft.takeAll, Option.bind_eq_some_iff, List.forall_mem_cons]
    unfold Draft.take
    have hne : "log_level" ≠ "memoize_generators" := by decide
    -- a member of one key is not seen among the values of the other
    by_cases hlevel : key = "log_level"
    · subst hlevel
      rw [if_pos rfl, valuesOf_cons_self, valuesOf_cons_of_ne hne, taken_cons]
      cases hmet : d.logLevel with
      | some level => simp
      | none =>
        simp only [Option.isSome_none, Bool.false_eq_true, if_false, Option.map_eq_some_iff, ih,
          exists_exists_and_eq_and]
        constructor
        · rintro ⟨level, hlevel, hknown, hlevels, hmemoize⟩
          exact ⟨⟨.inl trivial, hknown⟩, ⟨trivial, level, hlevel, hlevels⟩, hmemoize⟩
        · rintro ⟨⟨-, hknown⟩, ⟨-, level, hlevel, hlevels⟩, hmemoize⟩
          exact ⟨level, hlevel, hknown, hlevels, hmemoize⟩
    by_cases hmemoize : key = "memoize_generators"
    · subst hmemoize
      rw [if_neg hlevel, if_pos rfl, valuesOf_cons_self, valuesOf_cons_of_ne hne.symm, taken_cons]
      cases hmet : d.memoize with
      | some value => simp
      | none =>
        simp only [Option.isSome_none, Bool.false_eq_true, if_false, Option.map_eq_some_iff, ih,
          exists_exists_and_eq_and]
        constructor
        · rintro ⟨truth, htruth, hknown, hlevels, htruths⟩
          exact ⟨⟨.inr trivial, hknown⟩, hlevels, trivial, truth, htruth, htruths⟩
        · rintro ⟨⟨-, hknown⟩, hlevels, -, truth, htruth, htruths⟩
          exact ⟨truth, htruth, hknown, hlevels, htruths⟩
    · simp [hlevel, hmemoize]

/-- What is taken from the values of a key: nothing, or the one that there is. -/
theorem exists_taken_none_iff {key : String} {members : List (String × Tree)} :
    (∃ new, Taken value? none (valuesOf key members) new) ↔
      (members.map Prod.fst).count key ≤ 1 ∧
        ∀ value, (key, value) ∈ members → (value? value).isSome := by
  rw [count_keys]
  simp only [← mem_valuesOf]
  match valuesOf key members with
  | [] => simp [taken_nil]
  | [value] => simp [taken_cons, taken_nil, Option.isSome_iff_exists]
  | value :: other :: values => simp [taken_cons]

theorem Taken.exists_of_mem (h : Taken value? none values new) {value : Tree}
    (hvalue : value ∈ values) : ∃ a, value? value = some a ∧ new = some a := by
  obtain ⟨rfl, -⟩ | ⟨-, other, a, rfl, ha, rfl⟩ := h
  · cases hvalue
  · obtain rfl := List.mem_singleton.1 hvalue
    exact ⟨a, ha, rfl⟩

theorem Taken.eq_none (h : Taken value? none values new) (hvalues : ∀ value, value ∉ values) :
    new = none := by
  rwa [List.eq_nil_iff_forall_not_mem.2 hvalues, taken_nil] at h

/-! ## Accepted members -/

variable {members : List (String × Tree)}

/-- What members are taken for is what they describe. -/
theorem describes_of_takeAll {d : Draft} (h : ({} : Draft).takeAll members = some d) :
    Describes members d.config := by
  obtain ⟨-, hlevels, htruths⟩ := takeAll_eq_some_iff.1 h
  exact
    { level := fun value hvalue => by
        obtain ⟨level, hlevel, hd⟩ := hlevels.exists_of_mem (mem_valuesOf.2 hvalue)
        rw [Draft.config, hd]
        exact level?_eq_some_iff.1 hlevel
      noLevel := fun hnone => by
        rw [Draft.config, hlevels.eq_none fun value hvalue => hnone value (mem_valuesOf.1 hvalue)]
        rfl
      truth := fun value hvalue => by
        obtain ⟨truth, htruth, hd⟩ := htruths.exists_of_mem (mem_valuesOf.2 hvalue)
        rw [Draft.config, hd]
        exact bool?_eq_some_iff.1 htruth
      noTruth := fun hnone => by
        rw [Draft.config, htruths.eq_none fun value hvalue => hnone value (mem_valuesOf.1 hvalue)]
        rfl }

/-- Members describe one configuration. -/
theorem Describes.eq {c c' : Config} (h : Describes members c) (h' : Describes members c') :
    c = c' := by
  have hlevel : c.logLevel = c'.logLevel := by
    by_cases hmem : ∃ value, ("log_level", value) ∈ members
    · obtain ⟨value, hvalue⟩ := hmem
      have hnames := level?_eq_some_iff.2 (h.level value hvalue)
      rw [level?_eq_some_iff.2 (h'.level value hvalue)] at hnames
      exact (Option.some.inj hnames).symm
    · have hnone := not_exists.1 hmem
      rw [h.noLevel hnone, h'.noLevel hnone]
  have htruth : c.memoize = c'.memoize := by
    by_cases hmem : ∃ value, ("memoize_generators", value) ∈ members
    · obtain ⟨value, hvalue⟩ := hmem
      exact Tree.bool.inj ((h.truth value hvalue).symm.trans (h'.truth value hvalue))
    · have hnone := not_exists.1 hmem
      rw [h.noTruth hnone, h'.noTruth hnone]
  cases c
  cases c'
  congr

/-- **Members are taken if and only if they are well formed.** -/
theorem exists_takeAll_iff :
    (∃ d, ({} : Draft).takeAll members = some d ∧ d.config.logLevel ≠ .fatal) ↔
      WellFormed members := by
  constructor
  · rintro ⟨d, hd, hfatal⟩
    have hdescribes := describes_of_takeAll hd
    obtain ⟨hknown, hlevels, htruths⟩ := takeAll_eq_some_iff.1 hd
    have hlevels := exists_taken_none_iff.1 ⟨_, hlevels⟩
    have htruths := exists_taken_none_iff.1 ⟨_, htruths⟩
    refine
      { known := hknown
        nodup := List.nodup_iff_count_le_one.2 fun key => ?_
        level := fun value hvalue =>
          ⟨_, le_error_iff.2 hfatal, hdescribes.level value hvalue⟩
        truth := fun value hvalue => ⟨_, hdescribes.truth value hvalue⟩ }
    -- a key that occurs is known, so it is one of those of which at most one value was taken
    by_cases hkey : key ∈ members.map Prod.fst
    · obtain ⟨m, hm, rfl⟩ := List.mem_map.1 hkey
      obtain hlevel | hmemoize := hknown m hm
      · rw [hlevel]
        exact hlevels.1
      · rw [hmemoize]
        exact htruths.1
    · rw [List.count_eq_zero.2 hkey]
      exact Nat.zero_le 1
  · intro h
    have hcount := List.nodup_iff_count_le_one.1 h.nodup
    obtain ⟨level, hlevel⟩ : ∃ new, Taken Tree.level? none (valuesOf "log_level" members) new :=
      exists_taken_none_iff.2 ⟨hcount _, fun value hvalue => by
        obtain ⟨level, -, hnames⟩ := h.level value hvalue
        exact Option.isSome_of_eq_some (level?_eq_some_iff.2 hnames)⟩
    obtain ⟨truth, htruth⟩ :
        ∃ new, Taken Tree.bool? none (valuesOf "memoize_generators" members) new :=
      exists_taken_none_iff.2 ⟨hcount _, fun value hvalue => by
        obtain ⟨b, rfl⟩ := h.truth value hvalue
        rfl⟩
    refine ⟨⟨level, truth⟩, takeAll_eq_some_iff.2 ⟨h.known, hlevel, htruth⟩, ?_⟩
    by_cases hmem : ∃ value, ("log_level", value) ∈ members
    · obtain ⟨value, hvalue⟩ := hmem
      obtain ⟨named, hle, hnames⟩ := h.level value hvalue
      obtain ⟨found, hfound, rfl⟩ := hlevel.exists_of_mem (mem_valuesOf.2 hvalue)
      rw [level?_eq_some_iff.2 hnames] at hfound
      obtain rfl := Option.some.inj hfound
      exact le_error_iff.1 hle
    · have hnone := not_exists.1 hmem
      rw [hlevel.eq_none fun value hvalue => hnone value (mem_valuesOf.1 hvalue)]
      exact nofun

/-- **What the configuration of members is.** -/
theorem ofMembers?_eq_some_iff {c : Config} :
    ofMembers? members = some c ↔ WellFormed members ∧ Describes members c := by
  rw [ofMembers?, Option.bind_eq_some_iff]
  constructor
  · rintro ⟨d, hd, hc⟩
    split at hc
    · cases hc
    · next hfatal =>
      obtain rfl := Option.some.inj hc
      exact ⟨exists_takeAll_iff.1 ⟨d, hd, hfatal⟩, describes_of_takeAll hd⟩
  · rintro ⟨hwell, hdescribes⟩
    obtain ⟨d, hd, hfatal⟩ := exists_takeAll_iff.2 hwell
    refine ⟨d, hd, ?_⟩
    rw [if_neg hfatal, (describes_of_takeAll hd).eq hdescribes]

/-! ### Order -/

theorem WellFormed.of_perm {others : List (String × Tree)} (hperm : members.Perm others)
    (h : WellFormed members) : WellFormed others where
  known m hm := h.known m (hperm.mem_iff.2 hm)
  nodup := (hperm.map Prod.fst).nodup_iff.1 h.nodup
  level value hvalue := h.level value (hperm.mem_iff.2 hvalue)
  truth value hvalue := h.truth value (hperm.mem_iff.2 hvalue)

theorem Describes.of_perm {others : List (String × Tree)} (hperm : members.Perm others) {c : Config}
    (h : Describes members c) : Describes others c where
  level value hvalue := h.level value (hperm.mem_iff.2 hvalue)
  noLevel hnone := h.noLevel fun value hvalue => hnone value (hperm.mem_iff.1 hvalue)
  truth value hvalue := h.truth value (hperm.mem_iff.2 hvalue)
  noTruth hnone := h.noTruth fun value hvalue => hnone value (hperm.mem_iff.1 hvalue)

/-- The order of members is not seen. -/
theorem ofMembers?_perm {others : List (String × Tree)} (hperm : members.Perm others) :
    ofMembers? members = ofMembers? others := by
  refine Option.ext fun c => ?_
  rw [ofMembers?_eq_some_iff, ofMembers?_eq_some_iff]
  exact ⟨fun ⟨hwell, hdescribes⟩ => ⟨hwell.of_perm hperm, hdescribes.of_perm hperm⟩,
    fun ⟨hwell, hdescribes⟩ => ⟨hwell.of_perm hperm.symm, hdescribes.of_perm hperm.symm⟩⟩

end Config

/-! ## Texts -/

namespace Config

open Json

variable {text : String} {c : Config}

theorem toOption_eq_some_iff {ε α : Type} {x : Except ε α} {a : α} :
    x.toOption = some a ↔ x = .ok a := by
  cases x <;> simp [Except.toOption]

/-- **The text of an object is accepted if its members are well formed**, as what they describe. -/
theorem ofText_eq_ok_iff {members : List (String × Tree)} (h : ObjectText text members) :
    ofText text = .ok c ↔ WellFormed members ∧ Describes members c := by
  rw [← toOption_eq_some_iff, toOption_ofText h, ofMembers?_eq_some_iff]

/-- A text is refused as a configuration, for whatever reason. -/
theorem ofText_error {error : AliasError} (h : ofText text = .error error) :
    ∃ reason, error = .invalidConfig reason := by
  unfold ofText at h
  split at h
  · exact ⟨_, (Except.error.inj h).symm⟩
  · next d _ =>
    rw [validate] at h
    split at h
    · exact ⟨_, (Except.error.inj h).symm⟩
    · cases h

/-- No configuration that is read silences failures. -/
theorem ofText_level (h : ofText text = .ok c) : c.logLevel ≤ .error := by
  unfold ofText at h
  split at h
  · cases h
  · next d _ =>
    rw [validate] at h
    split at h
    · cases h
    · next hfatal =>
      obtain rfl := Except.ok.inj h
      exact le_error_iff.2 hfatal

end Config

/-! ## Failures are written -/

namespace Registry

variable {r r' : Registry} {fuel : Nat} {log : List Visit}

theorem configs_note (r : Registry) (space : Nat) (event : Log.Event) (fields : Entries String) :
    r.configs <+: (r.note space event fields).configs :=
  SameAliases.configs_prefix (.note r space event fields)

theorem configs_noteFailure (r : Registry) (space : Nat) (name : String) (event : Log.Event)
    (error : AliasError) : r.configs <+: (r.noteFailure space name event error).configs :=
  SameAliases.configs_prefix (.noteFailure r space name event error)

/-- Giving a name a meaning leaves configurations. -/
theorem configs_put_count_note (r : Registry) (space : Nat) (name : String) (entry : Alias)
    (counter : Counter) (event : Log.Event) (fields : Entries String) : r.configs <+:
      (((r.put space name entry).count space counter).note space event fields).configs := by
  have hput : r.configs <+: (r.put space name entry).configs := by rw [configs_put]
  exact hput.trans ((SameAliases.configs_prefix (.count ..)).trans (configs_note ..))

theorem Binds.keeps_configs {space : Nat} {name : String} {source : TypeExpr}
    {outcome : Except AliasError Accessor} (h : Binds space name source r outcome r') :
    r.configs <+: r'.configs := by
  cases h with
  | bound => exact configs_put_count_note ..
  | rejected => exact configs_noteFailure ..

theorem DeclaresForward.keeps_configs {space : Nat} {name : String}
    {outcome : Except AliasError Accessor} (h : DeclaresForward space name r outcome r') :
    r.configs <+: r'.configs := by
  cases h with
  | declared => exact configs_put_count_note ..
  | pending => exact List.prefix_rfl
  | rejected => exact configs_noteFailure ..

/-- No operation changes a configuration. -/
theorem Performs.keeps_configs {op : Operation} {outcome : Except AliasError Outcome}
    (h : Performs fuel r op log outcome r') : r.configs <+: r'.configs := by
  cases h with
  | direct isDirect performed =>
    cases performsDirectly_of isDirect performed with
    | addSpace => exact SameAliases.configs_prefix (.addSpace r ..)
    | newType => exact List.prefix_rfl
    | normalize normalizes =>
      exact SameAliases.configs_prefix (.of_spaces (spaces_of_normalizes normalizes))
    | declareForward declares => exact declares.keeps_configs
    | bind binds => exact binds.keeps_configs
    | lookup => exact List.prefix_rfl
  | readLiteral reads => rw [configs_of_outlines (reads.keeps (keeps_outlines fuel))]
  | bindLiteral reads binds =>
    rw [← configs_of_outlines (reads.keeps (keeps_outlines fuel))]
    exact binds.keeps_configs
  | bindLiteralRejected reads =>
    rw [← configs_of_outlines (reads.keeps (keeps_outlines fuel))]
    exact configs_noteFailure ..
  | bindLiteralFailed reads => rw [configs_of_outlines (reads.keeps (keeps_outlines fuel))]
  | use accesses => rw [configs_of_outlines ((keeps_outlines fuel).accesses accesses)]
  | call calls => rw [configs_of_outlines ((keeps_outlines fuel).callsFunction calls)]

theorem History.keeps_configs {ops : List Operation}
    {steps : List (Except AliasError Outcome × Registry)} (h : History fuel ops r log steps) :
    r.configs <+: (r.after steps).configs := by
  induction h with
  | nil => exact List.prefix_rfl
  | cons first _ ih => exact first.keeps_configs.trans ih

/-- **A namespace writes what its configuration lets pass**, whatever has happened since it was
added. -/
theorem isSome_written?_of_history {c : Config} {name : String} {ops : List Operation}
    {steps : List (Except AliasError Outcome × Registry)}
    (h : History fuel ops (r.addSpace name c).2 log steps) {event : Log.Event}
    (hevent : c.logLevel ≤ event.severity) (fields : Entries String) :
    (((r.addSpace name c).2.after steps).written?
      ⟨(r.addSpace name c).1, event, fields⟩).isSome := by
  obtain ⟨added, hadded⟩ := h.keeps_configs
  have hconfig : ((r.addSpace name c).2.after steps).configs[r.spaces.size]? = some c := by
    have hlength : r.configs.length = r.spaces.size := by simp [configs, perSpace]
    rw [← hadded, configs, perSpace_addSpace, ← configs, List.append_assoc, ← hlength,
      List.getElem?_append_right (Nat.le_refl _), Nat.sub_self]
    rfl
  rw [configs, getElem?_perSpace, Option.map_eq_some_iff] at hconfig
  obtain ⟨n, hn, rfl⟩ := hconfig
  change ((((r.addSpace name n.config).2.after steps).space? r.spaces.size).bind _).isSome = true
  rw [hn, Option.bind_some, Log.writeEvent?, if_pos hevent]
  rfl

end Registry

open Config Json in
/-- **Configuration texts are accepted as they are meant, and silence no failures.** A text is
refused as a configuration, or it is one whose level lets failures pass: those of a namespace that
was made with it are written, whatever has happened since. The text of an object, which is what the
grammar calls one and the strict reader finds, is accepted if and only if its members are well
formed. The configuration is then what they describe, in whatever order they stand and however they
are written. -/
theorem config_text_accepted (text : String) :
    (∀ error, ofText text = .error error → ∃ reason, error = .invalidConfig reason) ∧
    (∀ c, ofText text = .ok c → c.logLevel ≤ .error ∧
      ∀ (name : String) (r : Registry) (fuel : Nat) (ops : List Operation)
        (steps : List (Except AliasError Outcome × Registry)),
        Registry.performAll fuel ops (r.addSpace name c).2 = some steps →
          ∀ event, event = .bindingRejected ∨ event = .resolutionFailed → ∀ fields,
            (((r.addSpace name c).2.after steps).written?
              ⟨(r.addSpace name c).1, event, fields⟩).isSome) ∧
    (∀ values, Json.read text = .ok (.object values) → ∃ members, ObjectText text members) ∧
    ∀ members, ObjectText text members →
      ((∃ c, ofText text = .ok c) ↔ WellFormed members) ∧
      (∀ c, ofText text = .ok c → Describes members c) ∧
      ∀ text' members', ObjectText text' members' → members.Perm members' →
        ∀ c, ofText text = .ok c ↔ ofText text' = .ok c := by
  refine ⟨fun error h => ofText_error h, fun c h => ⟨ofText_level h, ?_⟩, fun values h => ?_,
    fun members hmembers => ⟨?_, fun c h => ?_, fun text' members' hmembers' hperm c => ?_⟩⟩
  · intro name r fuel ops steps hrun event hevent fields
    obtain ⟨log, hlog⟩ := Registry.exists_history hrun
    have hseverity : event.severity = .error := by
      rcases hevent with rfl | rfl <;> rfl
    exact Registry.isSome_written?_of_history hlog (hseverity ▸ ofText_level h) fields
  · obtain ⟨members, hmembers, -⟩ := exists_objectText_of_read h
    exact ⟨members, hmembers⟩
  · constructor
    · rintro ⟨c, h⟩
      exact ((ofText_eq_ok_iff hmembers).1 h).1
    · intro hwell
      obtain ⟨d, hd, hfatal⟩ := exists_takeAll_iff.2 hwell
      exact ⟨d.config, (ofText_eq_ok_iff hmembers).2 ⟨hwell, describes_of_takeAll hd⟩⟩
  · exact ((ofText_eq_ok_iff hmembers).1 h).2
  · rw [← toOption_eq_some_iff, ← toOption_eq_some_iff, toOption_ofText hmembers,
      toOption_ofText hmembers', ofMembers?_perm hperm]

open Config Json in
/-- A text whose members stand in the other order, with an escape in a key and the level as a key of
its own. -/
theorem level_as_key_accepted :
    let text := "\x7b \"memoize_generators\":true, \"log\\u005flevel\":\x7b\"WARN\":null\x7d\x7d"
    ∃ members, ObjectText text members ∧ WellFormed members ∧
      Describes members { logLevel := .warn, memoize := true } := by
  intro text
  obtain ⟨v, hread, hkind⟩ : ∃ v, (Json.read text).toOption = some v ∧ v.kind = "object" :=
    Option.map_eq_some_iff.1 (by decide +kernel)
  obtain ⟨values, rfl⟩ : ∃ values, v = .object values := by
    cases v with
    | object values => exact ⟨values, rfl⟩
    | number n => cases n <;> simp [Value.kind] at hkind
    | _ => simp [Value.kind] at hkind
  obtain ⟨-, -, hobject, hmembers⟩ := config_text_accepted text
  obtain ⟨members, htext⟩ := hobject _ (toOption_eq_some_iff.1 hread)
  have haccepted : ofText text = .ok { logLevel := .warn, memoize := true } :=
    toOption_eq_some_iff.1 (by decide +kernel)
  obtain ⟨hwell, hdescribes, -⟩ := hmembers members htext
  exact ⟨members, htext, hwell.1 ⟨_, haccepted⟩, hdescribes _ haccepted⟩

end NamedTypes
