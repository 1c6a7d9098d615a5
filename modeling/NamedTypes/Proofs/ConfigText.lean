import NamedTypes.Config.Reader
import NamedTypes.Proofs.Grammar

/-! # Configuration texts against the grammar
What the reader of configurations makes of a text that the grammar of JSON spells (`Json.Spells`). A
configuration is read off the members of the object alone (`Config.Draft.takeAll`): blanks, and what
is written in more than one way, are not seen. A key is refused if it is unknown or has been met. -/

namespace NamedTypes

namespace Json.Tree

/-- The level that a tree names: with a string, or with the key of an object whose one member is
`null`. -/
def level? : Tree → Option Log.Severity
  | .string name => Log.Severity.ofName? name
  | .object [(name, .null)] => Log.Severity.ofName? name
  | _ => none

/-- Whether a tree is `null`. -/
def null? : Tree → Option Unit
  | .null => some ()
  | _ => none

/-- The truth value that a tree is. -/
def bool? : Tree → Option Bool
  | .bool value => some value
  | _ => none

end Json.Tree

namespace Config

open Json

variable {cs cs₁ rest : List Char} {t : Tree}

/-! ## Values -/

/-- One reading after another has a result if both have one. -/
theorem toOption_bind {ε α β : Type} (x : Except ε α) (f : α → Except ε β) :
    (x >>= f).toOption = x.toOption.bind fun a => (f a).toOption := by
  cases x <;> rfl

theorem toOption_ofJson {α : Type} (reader : Reader α) (cs : List Char) :
    (ofJson reader cs).toOption = (reader cs).toOption := by
  rw [ofJson]
  cases reader cs <;> rfl

/-- A value of a wrong kind has no result, whatever it is. -/
theorem toOption_wrongKind {α : Type} (expected : String) (cs : List Char) :
    (wrongKind expected cs : Except FormatError α).toOption = none := by
  have hbind {β : Type} (x : Except FormatError β) (what : β → String) :
      (x >>= fun b => (.error (.wrongKind (what b) expected) : Except FormatError α)).toOption =
        none := by
    cases x <;> rfl
  unfold wrongKind
  split
  · rfl
  split_ifs
  · exact hbind _ _
  · exact hbind _ _
  · exact hbind _ _
  · rw [toOption_bind]
    cases ofJson readNumber _ with
    | error => rfl
    | ok number =>
      obtain ⟨number, rest⟩ := number
      cases number <;> rfl
  · exact hbind _ _
  · rfl
  · rfl
  · rfl

theorem toOption_readBool_of_ne {c : Char} (hskip : skipBlank cs = c :: rest) (ht : c ≠ 't')
    (hf : c ≠ 'f') : (readBool cs).toOption = none := by
  unfold readBool
  split
  · next heq => exact absurd (List.cons.inj (hskip.symm.trans heq)).1 ht
  · next heq => exact absurd (List.cons.inj (hskip.symm.trans heq)).1 hf
  · exact toOption_wrongKind _ _

/-- **A truth value is read as what is spelled**, and nothing else is. -/
theorem toOption_readBool (hblank : Blank cs cs₁) (h : Spells cs₁ (.value t) rest) :
    (readBool cs).toOption = t.bool?.map (·, rest) := by
  obtain ⟨c, after, rfl, hstarts, hskip⟩ := exists_skipBlank hblank h
  cases h with
  | true =>
    unfold readBool
    rw [hskip]
    rfl
  | false =>
    unfold readBool
    rw [hskip]
    rfl
  | number =>
    exact toOption_readBool_of_ne hskip (hstarts.ne_of_number (by decide) rfl)
      (hstarts.ne_of_number (by decide) rfl)
  | null | string | emptyArray | array | emptyObject | object =>
    exact toOption_readBool_of_ne hskip (by decide) (by decide)

theorem toOption_readNull_of_ne {c : Char} (hskip : skipBlank cs = c :: rest) (hn : c ≠ 'n') :
    (readNull cs).toOption = none := by
  unfold readNull
  split
  · next heq => exact absurd (List.cons.inj (hskip.symm.trans heq)).1 hn
  · exact toOption_wrongKind _ _

/-- `null` is read as what is spelled, and nothing else is. -/
theorem toOption_readNull (hblank : Blank cs cs₁) (h : Spells cs₁ (.value t) rest) :
    (readNull cs).toOption = t.null?.map (·, rest) := by
  obtain ⟨c, after, rfl, hstarts, hskip⟩ := exists_skipBlank hblank h
  cases h with
  | null =>
    unfold readNull
    rw [hskip]
    rfl
  | number =>
    exact toOption_readNull_of_ne hskip (hstarts.ne_of_number (by decide) rfl)
  | true | false | string | emptyArray | array | emptyObject | object =>
    exact toOption_readNull_of_ne hskip (by decide)

theorem toOption_levelNamed (name : String) :
    (levelNamed name).toOption = Log.Severity.ofName? name := by
  unfold levelNamed
  cases Log.Severity.ofName? name <;> rfl

theorem toOption_readLevel_of_ne {c : Char} (hskip : skipBlank cs = c :: rest) (hquote : c ≠ '"')
    (hbrace : c ≠ '\x7b') : (readLevel cs).toOption = none := by
  unfold readLevel
  rw [hskip]
  dsimp only
  rw [if_neg hquote, if_neg hbrace]
  rfl

theorem toOption_readLevel_string {chars : List Char} (hskip : skipBlank cs = '"' :: cs₁)
    (hchars : Chars cs₁ chars rest) :
    (readLevel cs).toOption = (Log.Severity.ofName? (String.ofList chars)).map (·, rest) := by
  unfold readLevel
  rw [hskip]
  dsimp only
  rw [if_pos rfl, toOption_bind, toOption_ofJson, readString_of_chars hchars, ← toOption_levelNamed]
  exact (toOption_bind _ _).trans (by cases levelNamed (String.ofList chars) <;> rfl)

/-- An object of one member, or the first member of an object of more. -/
theorem toOption_readLevel_object {name : String} (hskip : skipBlank cs = '\x7b' :: cs₁)
    (h : Spells cs₁ (.member name t) rest) :
    (readLevel cs).toOption = (Log.Severity.ofName? name).bind fun level =>
      t.null?.bind fun _ =>
        (readOnlyMemberEnd rest).toOption.map fun after => (level, after.2) := by
  cases h with
  | member before key colon between value after =>
    unfold readLevel
    rw [hskip]
    dsimp only
    rw [if_neg (by decide), if_pos rfl, toOption_bind, toOption_ofJson,
      nextKey?_of_chars .first before key, ← toOption_levelNamed]
    refine (toOption_bind _ _).trans (Option.bind_congr fun level _ => ?_)
    -- the colon, `null` and the closing brace
    rw [toOption_bind, toOption_ofJson, readColon_of_blank colon]
    refine (toOption_bind _ _).trans ?_
    rw [toOption_readNull between value]
    cases t.null? with
    | none => rfl
    | some =>
      refine (toOption_bind _ _).trans ?_
      rw [readOnlyMemberEnd, skipBlank_of_blank after, ← readOnlyMemberEnd]
      cases readOnlyMemberEnd rest <;> rfl

theorem level?_object_of_one (name : String) (t : Tree) :
    (Tree.object [(name, t)]).level? = (Log.Severity.ofName? name).bind fun level =>
      t.null?.map fun _ => level := by
  cases t <;> simp [Tree.level?, Tree.null?]

/-- **A level is read as what is spelled**, and nothing else is. -/
theorem toOption_readLevel (hblank : Blank cs cs₁) (h : Spells cs₁ (.value t) rest) :
    (readLevel cs).toOption = t.level?.map (·, rest) := by
  obtain ⟨c, after, rfl, hstarts, hskip⟩ := exists_skipBlank hblank h
  cases h with
  | string chars => exact toOption_readLevel_string hskip chars
  | emptyObject close =>
    unfold readLevel
    rw [hskip]
    dsimp only
    rw [if_neg (by decide), if_pos rfl, toOption_bind, toOption_ofJson, nextKey?_of_close close]
    rfl
  | object members =>
    cases members with
    | @lastMember _ _ name t member =>
      rw [toOption_readLevel_object hskip member, level?_object_of_one]
      cases Log.Severity.ofName? name <;> cases t.null? <;> rfl
    | @furtherMember _ _ _ name t ms member further =>
      -- a comma stands where the object should end, and there is another member
      rw [toOption_readLevel_object hskip member]
      have hnone : (Tree.object ((name, t) :: ms)).level? = none := by
        cases further <;> cases t <;> rfl
      rw [hnone]
      cases Log.Severity.ofName? name <;> cases t.null? <;> rfl
  | number =>
    exact toOption_readLevel_of_ne hskip (hstarts.ne_of_number (by decide) rfl)
      (hstarts.ne_of_number (by decide) rfl)
  | null | true | false | emptyArray | array =>
    exact toOption_readLevel_of_ne hskip (by decide) (by decide)

/-! ## Members -/

/-- A draft after a member. -/
def Draft.take (d : Draft) (m : String × Tree) : Option Draft :=
  if m.1 = "log_level" then
    if d.logLevel.isSome then none
    else m.2.level?.map fun level => { d with logLevel := some level }
  else if m.1 = "memoize_generators" then
    if d.memoize.isSome then none
    else m.2.bool?.map fun value => { d with memoize := some value }
  else none

/-- A draft after members. -/
def Draft.takeAll : Draft → List (String × Tree) → Option Draft
  | d, [] => some d
  | d, m :: ms => (d.take m).bind fun d' => d'.takeAll ms

/-- **A member is read as what is spelled** after its key. -/
theorem toOption_readMember (d : Draft) (key : String) {cs₂ cs₃ : List Char}
    (colon : Blank cs (':' :: cs₁)) (between : Blank cs₁ cs₂) (h : Spells cs₂ (.value t) cs₃) :
    (readMember d key cs).toOption = (d.take (key, t)).map (·, cs₃) := by
  unfold readMember Draft.take
  split_ifs with hlevel hmet hmemoize hmet
  · rfl
  · rw [toOption_bind, toOption_ofJson, readColon_of_blank colon]
    refine (toOption_bind _ _).trans ?_
    rw [toOption_readLevel between h]
    cases t.level? <;> rfl
  · rfl
  · rw [toOption_bind, toOption_ofJson, readColon_of_blank colon]
    refine (toOption_bind _ _).trans ?_
    rw [toOption_readBool between h]
    cases t.bool? <;> rfl
  · rfl

theorem readMembers_of_close {bound : Nat} {isFirst : Bool} {d : Draft}
    (h : Blank cs ('\x7d' :: rest)) : readMembers (bound + 1) isFirst d cs = .ok (d, rest) := by
  rw [readMembers, ofJson, nextKey?_of_close h]
  rfl

/-- **Members are read as what is spelled**, in their order. The induction is on the members; the
bound is not met, as there are less of them. -/
theorem toOption_readMembers {members : List (String × Tree)} {bound : Nat} {isFirst : Bool}
    {d : Draft} {text cs rest : List Char} (hseparated : Separated isFirst text cs)
    (h : Spells cs (.members members) rest) (hbound : members.length < bound) :
    (readMembers bound isFirst d text).toOption = (d.takeAll members).map (·, rest) := by
  induction members generalizing bound isFirst d text cs with
  | nil => cases h
  | cons m members ih =>
    obtain ⟨bound, rfl⟩ : ∃ n, bound = n + 1 := ⟨bound - 1, by omega⟩
    rw [List.length_cons, Nat.add_lt_add_iff_right] at hbound
    obtain ⟨key, t⟩ := m
    -- what stands behind the member is read in the same way whether it is the last one or not
    have hstep {after : List Char} (hmember : Spells cs (.member key t) after)
        (hrest : ∀ d' cs₅, Blank cs₅ after → (readMembers bound false d' cs₅).toOption =
          (d'.takeAll members).map (·, rest)) :
        (readMembers (bound + 1) isFirst d text).toOption =
          (d.takeAll ((key, t) :: members)).map (·, rest) := by
      cases hmember with
      | member before chars colon between value hafter =>
        rw [readMembers, toOption_bind, toOption_ofJson, nextKey?_of_chars hseparated before chars]
        refine (toOption_bind _ _).trans ?_
        rw [toOption_readMember d _ colon between value, Draft.takeAll]
        cases d.take (_, t) with
        | none => rfl
        | some d' => exact hrest d' _ hafter
    cases h with
    | lastMember member =>
      obtain ⟨bound, rfl⟩ : ∃ n, bound = n + 1 := ⟨bound - 1, by simp at hbound; omega⟩
      refine hstep member fun d' cs₅ hclose => ?_
      rw [readMembers_of_close hclose]
      rfl
    | furtherMember member further =>
      exact hstep member fun d' cs₅ hcomma => ih (.further hcomma) further hbound

/-! ## Texts -/

/-- The configuration of members: what they are taken for, unless it would silence every event. -/
def ofMembers? (members : List (String × Tree)) : Option Config :=
  (({} : Draft).takeAll members).bind fun d =>
    if d.config.logLevel = .fatal then none else some d.config

/-- An object is read as a draft of its members. -/
theorem toOption_readDraft {members : List (String × Tree)} (hblank : Blank cs cs₁)
    (h : Spells cs₁ (.value (.object members)) rest) :
    (readDraft cs).toOption = (({} : Draft).takeAll members).map (·, rest) := by
  have hopen {after : List Char} (hskip : skipBlank cs = '\x7b' :: after) :
      readDraft cs = readMembers (after.length + 1) true {} after := by
    unfold readDraft
    rw [hskip]
    rfl
  cases h with
  | emptyObject close =>
    rw [hopen (skipBlank_eq_cons hblank rfl), readMembers_of_close close]
    rfl
  | object spelled =>
    rw [hopen (skipBlank_eq_cons hblank rfl)]
    have hsize := spelled.size_add_length_le
    rw [Part.size] at hsize
    exact toOption_readMembers .first spelled (by omega)

/-- **The text of an object is read as the configuration of its members.** -/
theorem toOption_ofText {text : String} {members : List (String × Tree)}
    (h : ObjectText text members) : (ofText text).toOption = ofMembers? members := by
  obtain ⟨cs, rest, hblank, hspelled, hend⟩ := h
  have hdraft := toOption_readDraft hblank hspelled
  have hall : (readAll readDraft text).toOption = ({} : Draft).takeAll members := by
    rw [readAll, toOption_bind, hdraft]
    cases ({} : Draft).takeAll members with
    | none => rfl
    | some d =>
      refine (toOption_bind _ _).trans ?_
      rw [readEnd_of_blank hend]
      rfl
  rw [ofMembers?, ← hall, ofText]
  cases readAll readDraft text with
  | error => rfl
  | ok d =>
    refine (toOption_bind _ _).trans ?_
    rw [validate]
    by_cases hfatal : d.config.logLevel = .fatal
    · rw [if_pos hfatal]
      exact (if_pos hfatal).symm
    · rw [if_neg hfatal]
      exact (if_neg hfatal).symm

end Config

end NamedTypes
