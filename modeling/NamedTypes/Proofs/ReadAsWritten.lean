import NamedTypes.Proofs.Grammar
import NamedTypes.Proofs.OrderedValues

/-! # What is read is written by the grammar
Each reader of JSON against the grammar (`Spells`): what it takes from the front of a text is
spelled there. For strings and numerals this is `chars_of_readChars` and `numeral_of_readNumeral`,
for values `spellsValue_of_readValue`, by induction on how deeply arrays and objects may stand
inside each other. So every text that the strict reader takes for an object is the text of one
(`exists_objectText_of_read`). -/

namespace NamedTypes.Json

variable {cs chars rest : List Char}

/-! ## Strings -/

/-- A reader of digits finds a digit. -/
theorem exists_digit {lead : Option Nat} {missing value : Nat} {result : List Char × List Char}
    (h : readChars (.digits lead missing value) cs = .ok result) :
    ∃ c cs' d, cs = c :: cs' ∧ hexDigit? c = some d := by
  cases cs with
  | nil => cases h
  | cons c cs =>
    cases hd : hexDigit? c with
    | none => rw [readChars, hd] at h; cases h
    | some d => exact ⟨c, cs, d, rfl, hd⟩

/-- A reader of four digits finds a code unit. -/
theorem exists_codeUnit {lead : Option Nat} {result : List Char × List Char}
    (h : readChars (.digits lead 4 0) cs = .ok result) :
    ∃ unit rest, CodeUnit cs unit rest ∧ afterUnit lead unit rest = .ok result := by
  obtain ⟨a, cs₁, x, rfl, first⟩ := exists_digit h
  rw [readChars_digit first] at h
  obtain ⟨b, cs₂, y, rfl, second⟩ := exists_digit h
  rw [readChars_digit second] at h
  obtain ⟨c, cs₃, z, rfl, third⟩ := exists_digit h
  rw [readChars_digit third] at h
  obtain ⟨d, rest, w, rfl, fourth⟩ := exists_digit h
  rw [readChars_lastDigit fourth, Nat.zero_mul, Nat.zero_add] at h
  exact ⟨_, rest, .intro first second third fourth, h⟩

/-- The second half of a surrogate pair, with the backslash before it. -/
theorem exists_trailing {high : Nat} (h : readChars (.leading high) cs = .ok (chars, rest)) :
    ∃ digits low cs' chars', cs = '\\' :: 'u' :: digits ∧ CodeUnit digits low cs' ∧
      isTrailingSurrogate low = true ∧ readChars .outside cs' = .ok (chars', rest) ∧
      chars = ofSurrogates high low :: chars' := by
  match cs with
  | [] => cases h
  | [c] =>
    rw [readChars] at h
    split at h <;> cases h
  | c :: u :: digits =>
    rw [readChars] at h
    split at h
    · -- the pair goes on with a backslash, the letter `u` and four digits
      next hbackslash =>
      rw [readChars] at h
      split at h
      · next hu =>
        subst hbackslash hu
        split at h
        · cases h
        obtain ⟨low, cs', hlow, h⟩ := exists_codeUnit h
        rw [afterUnit] at h
        split at h
        · next isTrailing =>
          obtain ⟨⟨chars', rest'⟩, hfurther, h⟩ := exists_ok_of_bind h
          obtain ⟨rfl, rfl⟩ := Prod.mk.inj (Except.ok.inj h)
          exact ⟨digits, low, cs', chars', rfl, hlow, isTrailing, hfurther, rfl⟩
        · cases h
      · cases h
    · cases h

/-- What is read after a backslash is an escape and the characters after it. -/
theorem chars_of_readEscape
    (further : ∀ {cs' chars' rest' : List Char}, cs'.length < cs.length →
      readChars .outside cs' = .ok (chars', rest') → Chars cs' chars' rest')
    (h : readChars .begun cs = .ok (chars, rest)) : Chars ('\\' :: cs) chars rest := by
  cases cs with
  | nil => cases h
  | cons c cs =>
    rw [readChars] at h
    split at h
    · next hu =>
      subst hu
      split at h
      · cases h
      -- four digits follow, and a second escape if they are the first half of a surrogate pair
      obtain ⟨unit, cs', hunit, h⟩ := exists_codeUnit h
      have hlength := length_of_codeUnit hunit
      rw [afterUnit] at h
      split at h
      · cases h
      next noTrailing =>
      rw [Bool.not_eq_true] at noTrailing
      split at h
      · next isLeading =>
        obtain ⟨digits, low, cs'', chars', rfl, hlow, isTrailing, hfurther, rfl⟩ :=
          exists_trailing h
        have hlength' := length_of_codeUnit hlow
        have hshorter : cs''.length < ('u' :: cs).length := by
          simp only [List.length_cons] at hlength ⊢
          omega
        exact .pair hunit noTrailing isLeading hlow isTrailing (further hshorter hfurther)
      · next noLeading =>
        obtain ⟨⟨chars', rest'⟩, hfurther, h⟩ := exists_ok_of_bind h
        obtain ⟨rfl, rfl⟩ := Prod.mk.inj (Except.ok.inj h)
        have hshorter : cs'.length < ('u' :: cs).length := by
          rw [List.length_cons]
          omega
        exact .unit hunit noTrailing (Bool.eq_false_iff.2 noLeading) (further hshorter hfurther)
    · -- a single letter
      split at h
      · cases h
      · next c' hletter =>
        obtain ⟨⟨chars', rest'⟩, hfurther, h⟩ := exists_ok_of_bind h
        obtain ⟨rfl, rfl⟩ := Prod.mk.inj (Except.ok.inj h)
        exact .letter hletter (further (Nat.lt_succ_self _) hfurther)

/-- **Characters are read as they are written.** The induction is on the length of the text, since
an escape takes more than one character of it. -/
theorem chars_of_readChars {cs chars rest : List Char}
    (h : readChars .outside cs = .ok (chars, rest)) : Chars cs chars rest := by
  induction hn : cs.length using Nat.strongRecOn generalizing cs chars rest with
  | _ n ih =>
    subst hn
    cases cs with
    | nil => cases h
    | cons c cs =>
      -- the next character closes the string, begins an escape, is refused, or stands for itself
      rw [readChars] at h
      split at h
      · next hquote =>
        obtain ⟨rfl, rfl⟩ := Prod.mk.inj (Except.ok.inj h)
        exact hquote ▸ .close
      split at h
      · next hbackslash =>
        subst hbackslash
        exact chars_of_readEscape (fun hlt hfurther =>
          ih _ (Nat.lt_succ_of_lt hlt) hfurther rfl) h
      split at h
      · cases h
      · next hquote hbackslash hcontrol =>
        obtain ⟨⟨chars', rest'⟩, hfurther, h⟩ := exists_ok_of_bind h
        obtain ⟨rfl, rfl⟩ := Prod.mk.inj (Except.ok.inj h)
        exact .plain hquote hbackslash hcontrol (ih _ (Nat.lt_succ_self _) hfurther rfl)

/-! ## Numerals -/

theorem digits_of_takeDigits {ds : List Nat} (h : takeDigits cs = (ds, rest)) (hds : ds ≠ []) :
    Digits cs ds rest := by
  induction cs generalizing ds with
  | nil =>
    obtain ⟨rfl, -⟩ := Prod.mk.inj h
    exact absurd rfl hds
  | cons c cs ih =>
    by_cases hc : c.isDigit = true
    · rw [takeDigits, List.takeWhile_cons_of_pos hc, List.dropWhile_cons_of_pos hc,
        List.map_cons] at h
      obtain ⟨rfl, hrest⟩ := Prod.mk.inj h
      by_cases hfurther : (takeDigits cs).1 = []
      · -- no digit is left, so nothing is dropped
        have htake : cs.takeWhile Char.isDigit = [] := List.map_eq_nil_iff.1 hfurther
        have happend := List.takeWhile_append_dropWhile (p := Char.isDigit) (l := cs)
        rw [htake, List.nil_append, hrest] at happend
        rw [htake, happend]
        exact .last hc
      · exact .more hc (ih (Prod.ext rfl hrest) hfurther)
    · rw [takeDigits, List.takeWhile_cons_of_neg hc] at h
      obtain ⟨rfl, -⟩ := Prod.mk.inj h
      exact absurd rfl hds

theorem digits_of_readDigits {ds : List Nat} (h : readDigits cs = .ok (ds, rest)) :
    Digits cs ds rest := by
  unfold readDigits at h
  cases htake : takeDigits cs with
  | mk digits after =>
    rw [htake] at h
    cases digits with
    | nil => cases cs <;> cases h
    | cons d digits =>
      obtain ⟨rfl, rfl⟩ : ds = d :: digits ∧ rest = after := by
        cases cs <;> cases h <;> exact ⟨rfl, rfl⟩
      exact digits_of_takeDigits htake (List.cons_ne_nil _ _)

theorem whole_of_readWhole {ds : List Nat} (h : readWhole cs = .ok (ds, rest)) :
    Digits cs ds rest ∧ ∀ d ds', ds ≠ 0 :: d :: ds' := by
  obtain ⟨⟨digits, after⟩, hdigits, h⟩ := exists_ok_of_bind h
  dsimp only at h
  split at h
  · cases h
  · next noLeadingZero =>
    obtain ⟨rfl, rfl⟩ := Prod.mk.inj (Except.ok.inj h)
    exact ⟨digits_of_readDigits hdigits, noLeadingZero⟩

theorem fraction_of_readFraction {fraction : Option (List Nat)}
    (h : readFraction cs = .ok (fraction, rest)) : Fraction cs fraction rest := by
  unfold readFraction at h
  split at h
  · obtain ⟨⟨digits, after⟩, hdigits, h⟩ := exists_ok_of_bind h
    obtain ⟨rfl, rfl⟩ := Prod.mk.inj (Except.ok.inj h)
    exact .some (digits_of_readDigits hdigits)
  · obtain ⟨rfl, rfl⟩ := Prod.mk.inj (Except.ok.inj h)
    exact .none

theorem exponent_of_readExponent {exponent : Option (Bool × List Nat)}
    (h : readExponent cs = .ok (exponent, rest)) : Exponent cs exponent rest := by
  unfold readExponent at h
  split at h
  · next e cs =>
    split at h
    · next hletter =>
      obtain ⟨⟨digits, after⟩, hdigits, h⟩ := exists_ok_of_bind h
      obtain ⟨rfl, rfl⟩ := Prod.mk.inj (Except.ok.inj h)
      refine .some hletter ?_ (digits_of_readDigits hdigits)
      split
      · exact .minus
      · exact .plus
      · exact .none
    · obtain ⟨rfl, rfl⟩ := Prod.mk.inj (Except.ok.inj h)
      exact .none
  · obtain ⟨rfl, rfl⟩ := Prod.mk.inj (Except.ok.inj h)
    exact .none

/-- **A numeral is read as it is written.** -/
theorem numeral_of_readNumeral {n : Numeral} (h : readNumeral cs = .ok (n, rest)) :
    SpellsNumeral cs n rest := by
  obtain ⟨⟨whole, cs₂⟩, hwhole, h⟩ := exists_ok_of_bind h
  obtain ⟨⟨fraction, cs₃⟩, hfraction, h⟩ := exists_ok_of_bind h
  obtain ⟨⟨exponent, cs₄⟩, hexponent, h⟩ := exists_ok_of_bind h
  obtain ⟨rfl, rfl⟩ := Prod.mk.inj (Except.ok.inj h)
  obtain ⟨hdigits, noLeadingZero⟩ := whole_of_readWhole hwhole
  refine .intro ?_ hdigits noLeadingZero (fraction_of_readFraction hfraction)
    (exponent_of_readExponent hexponent)
  dsimp only
  split
  · exact .minus
  · exact .none

/-! ## Steps through arrays and objects -/

theorem blank_of_skipBlank (h : skipBlank cs = rest) : Blank cs rest := h ▸ blank_skipBlank cs

theorem hasElement_cases {isFirst more : Bool} (h : hasElement isFirst cs = .ok (more, rest)) :
    (more = false ∧ ∃ after, rest = ']' :: after ∧ Blank cs rest) ∨
      more = true ∧ ∃ cs₁, Separated isFirst cs cs₁ ∧ Blank cs₁ rest := by
  unfold hasElement at h
  split at h
  · cases h
  next c after hskip =>
  have hblank := blank_of_skipBlank hskip
  -- what comes first is a bracket that closes, the first element, or a comma
  split at h
  · next hclose =>
    subst hclose
    obtain ⟨rfl, rfl⟩ := Prod.mk.inj (Except.ok.inj h)
    exact .inl ⟨rfl, after, rfl, hblank⟩
  split at h
  · next hfirst =>
    subst hfirst
    obtain ⟨rfl, rfl⟩ := Prod.mk.inj (Except.ok.inj h)
    exact .inr ⟨rfl, cs, .first, hblank⟩
  next hfirst =>
  rw [Bool.not_eq_true] at hfirst
  split at h
  · next hcomma =>
    subst hcomma hfirst
    -- no bracket may close right after a comma
    split at h
    · cases h
    next d after' hskip' =>
    split at h
    · cases h
    · obtain ⟨rfl, rfl⟩ := Prod.mk.inj (Except.ok.inj h)
      exact .inr ⟨rfl, after, .further hblank, blank_of_skipBlank hskip'⟩
  · cases h

/-- A key stands between quotes. -/
theorem exists_chars_of_readKey {key : String} (h : readKey cs = .ok (key, rest)) :
    ∃ cs₁ chars, cs = '"' :: cs₁ ∧ Chars cs₁ chars rest ∧ key = String.ofList chars := by
  unfold readKey at h
  split at h
  · next cs₁ =>
    obtain ⟨⟨chars, after⟩, hchars, h⟩ := exists_ok_of_bind h
    obtain ⟨rfl, rfl⟩ := Prod.mk.inj (Except.ok.inj h)
    exact ⟨cs₁, chars, rfl, chars_of_readChars hchars, rfl⟩
  · cases h

theorem nextKey?_cases {isFirst : Bool} {key : Option String}
    (h : nextKey? isFirst cs = .ok (key, rest)) :
    (key = none ∧ ∃ after, rest = '\x7d' :: after ∧ Blank cs rest) ∨
      ∃ cs₁ cs₂ chars, key = some (String.ofList chars) ∧ Separated isFirst cs cs₁ ∧
        Blank cs₁ ('"' :: cs₂) ∧ Chars cs₂ chars rest := by
  unfold nextKey? at h
  split at h
  · cases h
  next c after hskip =>
  have hblank := blank_of_skipBlank hskip
  -- what comes first is a brace that closes, the first key, or a comma
  split at h
  · next hclose =>
    subst hclose
    obtain ⟨rfl, rfl⟩ := Prod.mk.inj (Except.ok.inj h)
    exact .inl ⟨rfl, after, rfl, hblank⟩
  split at h
  · next hfirst =>
    subst hfirst
    obtain ⟨⟨key, after'⟩, hkey, h⟩ := exists_ok_of_bind h
    obtain ⟨rfl, rfl⟩ := Prod.mk.inj (Except.ok.inj h)
    obtain ⟨cs₂, chars, hquote, hchars, rfl⟩ := exists_chars_of_readKey hkey
    exact .inr ⟨cs, cs₂, chars, rfl, .first, hquote ▸ hblank, hchars⟩
  next hfirst =>
  rw [Bool.not_eq_true] at hfirst
  split at h
  · next hcomma =>
    subst hcomma hfirst
    split at h
    · cases h
    next d after' hskip' =>
    split at h
    · cases h
    · obtain ⟨⟨key, after''⟩, hkey, h⟩ := exists_ok_of_bind h
      obtain ⟨rfl, rfl⟩ := Prod.mk.inj (Except.ok.inj h)
      obtain ⟨cs₂, chars, hquote, hchars, rfl⟩ := exists_chars_of_readKey hkey
      exact .inr ⟨after, cs₂, chars, rfl, .further hblank,
        hquote ▸ blank_of_skipBlank hskip', hchars⟩
  · cases h

theorem blank_of_readColon (h : readColon cs = .ok ((), rest)) : Blank cs (':' :: rest) := by
  unfold readColon at h
  split at h
  · cases h
  next c after hskip =>
  split at h
  · next hcolon =>
    obtain ⟨-, rfl⟩ := Prod.mk.inj (Except.ok.inj h)
    exact hcolon ▸ blank_of_skipBlank hskip
  · cases h

theorem eq_of_readWord {word : List Char} (h : readWord word cs = .ok ((), rest)) :
    cs = word ++ rest := by
  induction word generalizing cs with
  | nil =>
    obtain ⟨-, rfl⟩ := Prod.mk.inj (Except.ok.inj h)
    rfl
  | cons e word ih =>
    cases cs with
    | nil => cases h
    | cons c cs =>
      rw [readWord] at h
      split at h
      · next hc => rw [hc, ih h, List.cons_append]
      · cases h

/-! ## Values -/

/-- What a value is read from: blanks, and the text of a tree that has the value. -/
def SpellsValue (cs : List Char) (v : Value) (rest : List Char) : Prop :=
  ∃ t cs₁, Blank cs cs₁ ∧ Spells cs₁ (.value t) rest ∧ t.value? = some v

section Readers

variable {readItem : Reader Value}
  (hitem : ∀ {cs v rest}, readItem cs = .ok (v, rest) → SpellsValue cs v rest)

include hitem

/-- Where values are read as they are written, so are elements. -/
theorem elements_of_readElements {bound : Nat} {isFirst : Bool} {items : List Value}
    {cs rest : List Char} (h : readElements readItem bound isFirst cs = .ok (items, rest)) :
    (items = [] ∧ Blank cs (']' :: rest)) ∨ ∃ cs₁ ts, Separated isFirst cs cs₁ ∧
      Spells cs₁ (.elements ts) rest ∧ Tree.items? ts = some items := by
  induction bound generalizing isFirst cs items with
  | zero => cases h
  | succ bound ih =>
    rw [readElements] at h
    obtain ⟨⟨more, after⟩, hmore, h⟩ := exists_ok_of_bind h
    obtain ⟨rfl, after, rfl, hblank⟩ | ⟨rfl, cs₁, hseparated, hblank⟩ := hasElement_cases hmore
    · obtain ⟨rfl, rfl⟩ := Prod.mk.inj (Except.ok.inj h)
      exact .inl ⟨rfl, hblank⟩
    · obtain ⟨⟨v, after'⟩, hfirst, h⟩ := exists_ok_of_bind h
      obtain ⟨⟨vs, after''⟩, hfurther, h⟩ := exists_ok_of_bind h
      obtain ⟨rfl, rfl⟩ := Prod.mk.inj (Except.ok.inj h)
      -- what the rest was read as says whether this element is the last one
      obtain ⟨t, cs₂, hbefore, hspelled, hvalue⟩ := hitem hfirst
      have hbefore := hblank.trans hbefore
      obtain ⟨rfl, hclose⟩ | ⟨cs₃, ts, hcomma, hspells, hvalues⟩ := ih hfurther
      · exact .inr ⟨cs₁, [t], hseparated, .lastElement hbefore hspelled hclose, by
          simp [Tree.items?, hvalue]⟩
      · cases hcomma with
        | further hcomma =>
          exact .inr ⟨cs₁, t :: ts, hseparated, .element hbefore hspelled hcomma hspells, by
            simp [Tree.items?, hvalue, hvalues]⟩

/-- Where values are read as they are written, so are members. -/
theorem members_of_readMembers {bound : Nat} {isFirst : Bool} {members : Entries Value}
    {cs rest : List Char} (h : readMembers readItem bound isFirst cs = .ok (members, rest)) :
    (members = [] ∧ Blank cs ('\x7d' :: rest)) ∨ ∃ cs₁ ms, Separated isFirst cs cs₁ ∧
      Spells cs₁ (.members ms) rest ∧ Tree.members? ms = some members := by
  induction bound generalizing isFirst cs members with
  | zero => cases h
  | succ bound ih =>
    rw [readMembers] at h
    obtain ⟨⟨key, after⟩, hkey, h⟩ := exists_ok_of_bind h
    obtain ⟨rfl, after, rfl, hblank⟩ | ⟨cs₁, cs₂, chars, rfl, hseparated, hbefore, hchars⟩ :=
      nextKey?_cases hkey
    · obtain ⟨rfl, rfl⟩ := Prod.mk.inj (Except.ok.inj h)
      exact .inl ⟨rfl, hblank⟩
    · obtain ⟨⟨⟨⟩, after₁⟩, hcolon, h⟩ := exists_ok_of_bind h
      obtain ⟨⟨v, after₂⟩, hvalue, h⟩ := exists_ok_of_bind h
      obtain ⟨⟨ms, after₃⟩, hfurther, h⟩ := exists_ok_of_bind h
      obtain ⟨rfl, rfl⟩ := Prod.mk.inj (Except.ok.inj h)
      obtain ⟨t, cs₃, hbetween, hspelled, hvalue⟩ := hitem hvalue
      have hmember {rest : List Char} (hafter : Blank after₂ rest) :
          Spells cs₁ (.member (String.ofList chars) t) rest :=
        .member hbefore hchars (blank_of_readColon hcolon) hbetween hspelled hafter
      -- as with elements, the rest says whether this member is the last one
      obtain ⟨rfl, hclose⟩ | ⟨cs₄, ms', hcomma, hspells, hvalues⟩ := ih hfurther
      · exact .inr ⟨cs₁, _, hseparated, .lastMember (hmember hclose), by
          simp [Tree.members?, hvalue]⟩
      · cases hcomma with
        | further hcomma =>
          exact .inr ⟨cs₁, _, hseparated, .furtherMember (hmember hcomma) hspells, by
            simp [Tree.members?, hvalue, hvalues]⟩

end Readers

/-- A word that stands for a value. -/
theorem spellsValue_of_readWord {c : Char} {word : List Char} {t : Tree} {v w : Value}
    (hblank : Blank cs (c :: chars)) (ht : t.value? = some w)
    (hspells : ∀ rest, Spells (c :: (word ++ rest)) (.value t) rest)
    (h : (do let (_, rest) ← readWord word chars; return (w, rest) :
      Except ReadError (Value × List Char)) = .ok (v, rest)) : SpellsValue cs v rest := by
  obtain ⟨⟨⟨⟩, after⟩, hword, h⟩ := exists_ok_of_bind h
  obtain ⟨rfl, rfl⟩ := Prod.mk.inj (Except.ok.inj h)
  rw [eq_of_readWord hword] at hblank
  exact ⟨t, _, hblank, hspells after, ht⟩

/-- **A value is read as it is written.** The induction is on how deeply arrays and objects may
stand inside each other. -/
theorem spellsValue_of_readValue {nesting : Nat} {v : Value} {cs rest : List Char}
    (h : readValue nesting cs = .ok (v, rest)) : SpellsValue cs v rest := by
  induction nesting using Nat.strongRecOn generalizing cs v rest with
  | _ nesting ih =>
    rw [readValue] at h
    split at h
    · cases h
    next c after hskip =>
    have hblank := blank_of_skipBlank hskip
    split at h
    · -- the first character tells what the value is: here the word `null`
      next hc =>
      subst hc
      exact spellsValue_of_readWord hblank rfl (fun _ => .null) h
    split at h
    · -- the word `true`
      next hc =>
      subst hc
      exact spellsValue_of_readWord hblank rfl (fun _ => .true) h
    split at h
    · -- the word `false`
      next hc =>
      subst hc
      exact spellsValue_of_readWord hblank rfl (fun _ => .false) h
    split at h
    · -- a number, which has a value only if it is in range
      obtain ⟨⟨number, after'⟩, hnumber, h⟩ := exists_ok_of_bind h
      obtain ⟨rfl, rfl⟩ := Prod.mk.inj (Except.ok.inj h)
      obtain ⟨⟨numeral, after''⟩, hnumeral, hnumber⟩ := exists_ok_of_bind hnumber
      obtain ⟨number', hvalue, hnumber⟩ := exists_ok_of_bind hnumber
      obtain ⟨rfl, rfl⟩ := Prod.mk.inj (Except.ok.inj hnumber)
      exact ⟨.number numeral, _, hblank, .number (numeral_of_readNumeral hnumeral), by
        simp [Tree.value?, hvalue, Except.toOption]⟩
    split at h
    · -- a string
      next hc =>
      subst hc
      obtain ⟨⟨text, after'⟩, htext, h⟩ := exists_ok_of_bind h
      obtain ⟨rfl, rfl⟩ := Prod.mk.inj (Except.ok.inj h)
      obtain ⟨⟨chars, after''⟩, hchars, htext⟩ := exists_ok_of_bind htext
      obtain ⟨rfl, rfl⟩ := Prod.mk.inj (Except.ok.inj htext)
      exact ⟨_, _, hblank, .string (chars_of_readChars hchars), rfl⟩
    split at h
    · -- an array
      next hc =>
      subst hc
      cases nesting with
      | zero => cases h
      | succ nesting =>
        obtain ⟨⟨items, after'⟩, hitems, h⟩ := exists_ok_of_bind h
        obtain ⟨rfl, rfl⟩ := Prod.mk.inj (Except.ok.inj h)
        obtain ⟨rfl, hclose⟩ | ⟨cs₁, ts, hfirst, hspells, hvalues⟩ :=
          elements_of_readElements (ih nesting (Nat.lt_succ_self _)) hitems
        · exact ⟨_, _, hblank, .emptyArray hclose, rfl⟩
        · cases hfirst
          exact ⟨_, _, hblank, .array hspells, by simp [Tree.value?, hvalues]⟩
    split at h
    · -- an object
      next hc =>
      subst hc
      cases nesting with
      | zero => cases h
      | succ nesting =>
        obtain ⟨⟨members, after'⟩, hmembers, h⟩ := exists_ok_of_bind h
        obtain ⟨rfl, rfl⟩ := Prod.mk.inj (Except.ok.inj h)
        obtain ⟨rfl, hclose⟩ | ⟨cs₁, ms, hfirst, hspells, hvalues⟩ :=
          members_of_readMembers (ih nesting (Nat.lt_succ_self _)) hmembers
        · exact ⟨_, _, hblank, .emptyObject hclose, rfl⟩
        · cases hfirst
          exact ⟨_, _, hblank, .object hspells, by simp [Tree.value?, hvalues]⟩
    · cases h

/-- **What is read as an object is the text of one**, whose members have the values that were
read. -/
theorem exists_objectText_of_read {text : String} {members : Entries Value}
    (h : read text = .ok (.object members)) :
    ∃ ms, ObjectText text ms ∧ (Tree.object ms).value? = some (.object members) := by
  rw [read] at h
  obtain ⟨⟨v, rest⟩, hread, h⟩ := exists_ok_of_bind h
  obtain ⟨⟨⟩, hend, h⟩ := exists_ok_of_bind h
  obtain rfl := Except.ok.inj h
  obtain ⟨t, cs, hblank, hspelled, hvalue⟩ := spellsValue_of_readValue hread
  have hrest : Blank rest [] := by
    unfold readEnd at hend
    split at hend
    · next hskip => exact blank_of_skipBlank hskip
    · cases hend
  -- only the tree of an object has an object for its value
  obtain ⟨ms, rfl⟩ : ∃ ms, t = .object ms := by
    cases t with
    | object ms => exact ⟨ms, rfl⟩
    | null | bool | string => cases hvalue
    | number n =>
      obtain ⟨_, -, hvalue⟩ := Option.map_eq_some_iff.1 hvalue
      cases hvalue
    | array ts =>
      obtain ⟨_, -, hvalue⟩ := Option.map_eq_some_iff.1 hvalue
      cases hvalue
  exact ⟨ms, ⟨cs, rest, hblank, hspelled, hrest⟩, hvalue⟩

end NamedTypes.Json
