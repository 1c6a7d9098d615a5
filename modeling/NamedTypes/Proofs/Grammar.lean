import Mathlib.Data.List.Basic
import NamedTypes.Json.Reader

/-! # The grammar of JSON
What a text is written as, told without a reader: `Spells` relates the front of a text to a part of
a **syntax tree** (`Tree`) and to the text that is left. A tree keeps what a value does not: the
members of an object in the order of the text, and each of those that have the same key.

The steps by which readers go through a text find what the grammar says. The converse, that whatever
is read is written by the grammar, is shown in `NamedTypes.Proofs.ReadAsWritten`. -/

namespace NamedTypes.Json

/-! ## Trees -/

/-- A value as it is written. -/
inductive Tree
  | null
  | bool (value : Bool)
  | number (numeral : Numeral)
  | string (value : String)
  | array (items : List Tree)
  /-- The members in the order of the text. -/
  | object (members : List (String × Tree))

mutual

/-- The value of a tree, unless it holds a number that is too large. -/
def Tree.value? : Tree → Option Value
  | .null => some .null
  | .bool value => some (.bool value)
  | .number numeral => numeral.value.toOption.map .number
  | .string value => some (.string value)
  | .array items => (Tree.items? items).map .array
  | .object members => (Tree.members? members).map Value.ofMembers

/-- The values of elements. -/
def Tree.items? : List Tree → Option (List Value)
  | [] => some []
  | t :: ts => do return (← t.value?) :: (← Tree.items? ts)

/-- The values of members, in the order of the text. -/
def Tree.members? : List (String × Tree) → Option (Entries Value)
  | [] => some []
  | (key, t) :: ms => do return (key, ← t.value?) :: (← Tree.members? ms)

end

/-! ## Blanks and strings -/

/-- Blanks at the front of a text, and the text after them. -/
inductive Blank : List Char → List Char → Prop
  | done {cs : List Char} : Blank cs cs
  | more {c : Char} {cs rest : List Char} (isBlank : isBlank c = true) (further : Blank cs rest) :
    Blank (c :: cs) rest

/-- The four digits of a code unit. -/
inductive CodeUnit : List Char → Nat → List Char → Prop
  | intro {a b c d : Char} {x y z w : Nat} {rest : List Char} (first : hexDigit? a = some x)
    (second : hexDigit? b = some y) (third : hexDigit? c = some z) (fourth : hexDigit? d = some w) :
    CodeUnit (a :: b :: c :: d :: rest) (((x * 16 + y) * 16 + z) * 16 + w) rest

/-- The characters of a string, up to and with its closing quote. -/
inductive Chars : List Char → List Char → List Char → Prop
  | close {rest : List Char} : Chars ('"' :: rest) [] rest
  | plain {c : Char} {cs chars rest : List Char} (noQuote : c ≠ '"') (noBackslash : c ≠ '\\')
    (noControl : ¬ c.toNat < 0x20) (further : Chars cs chars rest) :
    Chars (c :: cs) (c :: chars) rest
  | letter {letter c : Char} {cs chars rest : List Char} (escape : letterEscape? letter = some c)
    (further : Chars cs chars rest) : Chars ('\\' :: letter :: cs) (c :: chars) rest
  | unit {unit : Nat} {digits cs chars rest : List Char} (codeUnit : CodeUnit digits unit cs)
    (noTrailing : isTrailingSurrogate unit = false) (noLeading : isLeadingSurrogate unit = false)
    (further : Chars cs chars rest) : Chars ('\\' :: 'u' :: digits) (Char.ofNat unit :: chars) rest
  | pair {high low : Nat} {digits digits' cs chars rest : List Char}
    (leading : CodeUnit digits high ('\\' :: 'u' :: digits'))
    (noTrailing : isTrailingSurrogate high = false) (isLeading : isLeadingSurrogate high = true)
    (trailing : CodeUnit digits' low cs) (isTrailing : isTrailingSurrogate low = true)
    (further : Chars cs chars rest) :
    Chars ('\\' :: 'u' :: digits) (ofSurrogates high low :: chars) rest

/-! ## Numerals -/

/-- One digit or more. -/
inductive Digits : List Char → List Nat → List Char → Prop
  | last {c : Char} {rest : List Char} (isDigit : c.isDigit = true) :
    Digits (c :: rest) [c.toNat - '0'.toNat] rest
  | more {c : Char} {cs rest : List Char} {ds : List Nat} (isDigit : c.isDigit = true)
    (further : Digits cs ds rest) : Digits (c :: cs) ((c.toNat - '0'.toNat) :: ds) rest

/-- The sign of a numeral, which is a minus or none. -/
inductive Sign : List Char → Bool → List Char → Prop
  | minus {cs : List Char} : Sign ('-' :: cs) true cs
  | none {cs : List Char} : Sign cs false cs

/-- A fraction, or none. -/
inductive Fraction : List Char → Option (List Nat) → List Char → Prop
  | none {cs : List Char} : Fraction cs none cs
  | some {cs rest : List Char} {ds : List Nat} (digits : Digits cs ds rest) :
    Fraction ('.' :: cs) (some ds) rest

/-- The sign of an exponent, which may be a plus. -/
inductive ExponentSign : List Char → Bool → List Char → Prop
  | minus {cs : List Char} : ExponentSign ('-' :: cs) true cs
  | plus {cs : List Char} : ExponentSign ('+' :: cs) false cs
  | none {cs : List Char} : ExponentSign cs false cs

/-- An exponent, or none. -/
inductive Exponent : List Char → Option (Bool × List Nat) → List Char → Prop
  | none {cs : List Char} : Exponent cs none cs
  | some {e : Char} {cs after rest : List Char} {negative : Bool} {ds : List Nat}
    (letter : e = 'e' ∨ e = 'E') (sign : ExponentSign cs negative after)
    (digits : Digits after ds rest) : Exponent (e :: cs) (some (negative, ds)) rest

/-- A numeral. Only a lone zero begins with zero. -/
inductive SpellsNumeral : List Char → Numeral → List Char → Prop
  | intro {cs cs₁ cs₂ cs₃ rest : List Char} {n : Numeral} (sign : Sign cs n.negative cs₁)
    (whole : Digits cs₁ n.whole cs₂) (noLeadingZero : ∀ d ds, n.whole ≠ 0 :: d :: ds)
    (fraction : Fraction cs₂ n.fraction cs₃) (exponent : Exponent cs₃ n.exponent rest) :
    SpellsNumeral cs n rest

/-! ## Values -/

/-- A part of a tree that a text may spell. -/
inductive Part
  | value (tree : Tree)
  /-- Elements of an array, at least one, up to and with the closing bracket. -/
  | elements (trees : List Tree)
  /-- A member of an object, with the blanks around it. -/
  | member (key : String) (tree : Tree)
  /-- Members of an object, at least one, up to and with the closing brace. -/
  | members (members : List (String × Tree))

/-- **The grammar of JSON.** The front of a text spells a part of a tree; the last text is what is
left. -/
inductive Spells : List Char → Part → List Char → Prop
  | null {rest : List Char} : Spells ('n' :: 'u' :: 'l' :: 'l' :: rest) (.value .null) rest
  | true {rest : List Char} : Spells ('t' :: 'r' :: 'u' :: 'e' :: rest) (.value (.bool true)) rest
  | false {rest : List Char} :
    Spells ('f' :: 'a' :: 'l' :: 's' :: 'e' :: rest) (.value (.bool false)) rest
  | number {cs rest : List Char} {n : Numeral} (numeral : SpellsNumeral cs n rest) :
    Spells cs (.value (.number n)) rest
  | string {cs chars rest : List Char} (spelled : Chars cs chars rest) :
    Spells ('"' :: cs) (.value (.string (String.ofList chars))) rest
  | emptyArray {cs rest : List Char} (blank : Blank cs (']' :: rest)) :
    Spells ('[' :: cs) (.value (.array [])) rest
  | array {cs rest : List Char} {items : List Tree} (elements : Spells cs (.elements items) rest) :
    Spells ('[' :: cs) (.value (.array items)) rest
  | emptyObject {cs rest : List Char} (blank : Blank cs ('\x7d' :: rest)) :
    Spells ('\x7b' :: cs) (.value (.object [])) rest
  | object {cs rest : List Char} {members : List (String × Tree)}
    (spelled : Spells cs (.members members) rest) :
    Spells ('\x7b' :: cs) (.value (.object members)) rest
  | lastElement {cs cs₁ cs₂ rest : List Char} {t : Tree} (before : Blank cs cs₁)
    (element : Spells cs₁ (.value t) cs₂) (after : Blank cs₂ (']' :: rest)) :
    Spells cs (.elements [t]) rest
  | element {cs cs₁ cs₂ cs₃ rest : List Char} {t : Tree} {ts : List Tree} (before : Blank cs cs₁)
    (element : Spells cs₁ (.value t) cs₂) (after : Blank cs₂ (',' :: cs₃))
    (further : Spells cs₃ (.elements ts) rest) : Spells cs (.elements (t :: ts)) rest
  | member {cs cs₁ cs₂ cs₃ cs₄ cs₅ rest chars : List Char} {t : Tree}
    (before : Blank cs ('"' :: cs₁)) (key : Chars cs₁ chars cs₂) (colon : Blank cs₂ (':' :: cs₃))
    (between : Blank cs₃ cs₄)
    (value : Spells cs₄ (.value t) cs₅) (after : Blank cs₅ rest) :
    Spells cs (.member (String.ofList chars) t) rest
  | lastMember {cs rest : List Char} {key : String} {t : Tree}
    (member : Spells cs (.member key t) ('\x7d' :: rest)) : Spells cs (.members [(key, t)]) rest
  | furtherMember {cs cs₁ rest : List Char} {key : String} {t : Tree} {ms : List (String × Tree)}
    (member : Spells cs (.member key t) (',' :: cs₁)) (further : Spells cs₁ (.members ms) rest) :
    Spells cs (.members ((key, t) :: ms)) rest

/-- **The whole text is an object** with the given members, in their order. -/
def ObjectText (text : String) (members : List (String × Tree)) : Prop :=
  ∃ cs rest, Blank text.toList cs ∧ Spells cs (.value (.object members)) rest ∧ Blank rest []

/-- What stands between an element or member and the next one: a comma, but not before the first. -/
inductive Separated : Bool → List Char → List Char → Prop
  | first {cs : List Char} : Separated true cs cs
  | further {cs rest : List Char} (comma : Blank cs (',' :: rest)) : Separated false cs rest

variable {cs chars rest : List Char}

/-! ## Blanks and strings are read -/

theorem skipBlank_of_blank (h : Blank cs rest) : skipBlank cs = skipBlank rest := by
  induction h with
  | done => rfl
  | more isBlank _ ih => rw [skipBlank, List.dropWhile_cons_of_pos isBlank, ← skipBlank, ih]

theorem Blank.trans {cs₁ : List Char} (h : Blank cs cs₁) (h' : Blank cs₁ rest) : Blank cs rest := by
  induction h with
  | done => exact h'
  | more isBlank _ ih => exact .more isBlank (ih h')

theorem blank_skipBlank (cs : List Char) : Blank cs (skipBlank cs) := by
  induction cs with
  | nil => exact .done
  | cons c cs ih =>
    by_cases hc : isBlank c = true
    · rw [skipBlank, List.dropWhile_cons_of_pos hc]
      exact .more hc ih
    · rw [skipBlank, List.dropWhile_cons_of_neg hc]
      exact .done

theorem skipBlank_cons {c : Char} (hc : isBlank c = false) : skipBlank (c :: cs) = c :: cs := by
  rw [skipBlank, List.dropWhile_cons_of_neg (by simp [hc])]

/-- After blanks, what comes next. -/
theorem skipBlank_eq_cons {c : Char} (h : Blank cs (c :: rest)) (hc : isBlank c = false) :
    skipBlank cs = c :: rest := by
  rw [skipBlank_of_blank h, skipBlank_cons hc]

theorem lacksFourBytes_of_codeUnit {unit : Nat} (h : CodeUnit cs unit rest) :
    lacksFourBytes cs = false := by
  cases h with
  | @intro a b c d =>
    have ha := a.utf8Size_pos
    have hb := b.utf8Size_pos
    have hc := c.utf8Size_pos
    have hd := d.utf8Size_pos
    simp only [lacksFourBytes, List.take_succ_cons, List.take_zero, List.foldl_cons, List.foldl_nil]
    exact decide_eq_false (by omega)

/-- What is read after the four digits of a code unit. -/
def afterUnit (lead : Option Nat) (unit : Nat) : Reader (List Char) := fun cs =>
  match lead with
  | none =>
    if isTrailingSurrogate unit then .error .loneSurrogate
    else if isLeadingSurrogate unit then readChars (.leading unit) cs
    else do
      let (chars, rest) ← readChars .outside cs
      return (Char.ofNat unit :: chars, rest)
  | some high =>
    if isTrailingSurrogate unit then do
      let (chars, rest) ← readChars .outside cs
      return (ofSurrogates high unit :: chars, rest)
    else .error .loneSurrogate

/-- A digit that is not the last one of its code unit. -/
theorem readChars_digit {lead : Option Nat} {missing value : Nat} {c : Char} {d : Nat}
    (h : hexDigit? c = some d) :
    readChars (.digits lead (missing + 2) value) (c :: cs) =
      readChars (.digits lead (missing + 1) (value * 16 + d)) cs := by
  rw [readChars, h]
  exact if_pos (Nat.lt_add_left missing (by decide))

/-- The last digit of a code unit. -/
theorem readChars_lastDigit {lead : Option Nat} {value : Nat} {c : Char} {d : Nat}
    (h : hexDigit? c = some d) :
    readChars (.digits lead 1 value) (c :: cs) = afterUnit lead (value * 16 + d) cs := by
  rw [readChars, h]
  cases lead <;> rfl

theorem readChars_of_codeUnit {lead : Option Nat} {unit : Nat} (h : CodeUnit cs unit rest) :
    readChars (.digits lead 4 0) cs = afterUnit lead unit rest := by
  cases h with
  | intro first second third fourth =>
    rw [readChars_digit first, readChars_digit second, readChars_digit third,
      readChars_lastDigit fourth, Nat.zero_mul, Nat.zero_add]

/-- **What the characters of a string are written as is read as those.** -/
theorem readChars_of_chars (h : Chars cs chars rest) :
    readChars .outside cs = .ok (chars, rest) := by
  induction h with
  | close => rfl
  | plain noQuote noBackslash noControl _ ih =>
    rw [readChars, if_neg noQuote, if_neg noBackslash, if_neg noControl, ih]
    rfl
  | @letter letter c cs chars rest escape _ ih =>
    -- four digits stand behind that letter, so it is none of the short escapes
    have hu : letter ≠ 'u' := by
      rintro rfl
      cases escape
    rw [readChars, if_neg (by decide), if_pos rfl, readChars, if_neg hu, escape]
    dsimp only
    rw [ih]
    rfl
  | unit codeUnit noTrailing noLeading _ ih =>
    rw [readChars, if_neg (by decide), if_pos rfl, readChars, if_pos rfl,
      lacksFourBytes_of_codeUnit codeUnit, readChars_of_codeUnit codeUnit]
    simp only [afterUnit, noTrailing, noLeading, ih]
    rfl
  | pair leading noTrailing isLeading trailing isTrailing _ ih =>
    rw [readChars, if_neg (by decide), if_pos rfl, readChars, if_pos rfl,
      lacksFourBytes_of_codeUnit leading, readChars_of_codeUnit leading]
    simp only [afterUnit, noTrailing, isLeading, readChars, lacksFourBytes_of_codeUnit trailing,
      readChars_of_codeUnit trailing, isTrailing, ih]
    rfl

/-! ## Keys and colons are read -/

theorem readColon_of_blank (h : Blank cs (':' :: rest)) : readColon cs = .ok ((), rest) := by
  rw [readColon, skipBlank_eq_cons h rfl]
  rfl

theorem readString_of_chars (h : Chars cs chars rest) :
    readString cs = .ok (String.ofList chars, rest) := by
  rw [readString, readChars_of_chars h]
  rfl

/-- The key of the next member. -/
theorem nextKey?_of_chars {isFirst : Bool} {text cs₁ : List Char}
    (hseparated : Separated isFirst text cs) (hblank : Blank cs ('"' :: cs₁))
    (hchars : Chars cs₁ chars rest) :
    nextKey? isFirst text = .ok (some (String.ofList chars), rest) := by
  cases hseparated with
  | first =>
    rw [nextKey?, skipBlank_eq_cons hblank rfl]
    simp only [readKey, readString_of_chars hchars]
    rfl
  | further comma =>
    rw [nextKey?, skipBlank_eq_cons comma rfl]
    simp only [skipBlank_eq_cons hblank rfl, readKey, readString_of_chars hchars]
    rfl

/-- There is no key before the closing brace. -/
theorem nextKey?_of_close {isFirst : Bool} (h : Blank cs ('\x7d' :: rest)) :
    nextKey? isFirst cs = .ok (none, '\x7d' :: rest) := by
  rw [nextKey?, skipBlank_eq_cons h rfl]
  rfl

theorem readEnd_of_blank (h : Blank cs []) : readEnd cs = .ok () := by
  rw [readEnd, skipBlank_of_blank h]
  rfl

/-! ## How a value starts -/

/-- The characters with which a tree may start. -/
def Tree.Starts : Tree → Char → Prop
  | .null, c => c = 'n'
  | .bool true, c => c = 't'
  | .bool false, c => c = 'f'
  | .number _, c => c = '-' ∨ c.isDigit = true
  | .string _, c => c = '"'
  | .array _, c => c = '['
  | .object _, c => c = '\x7b'

theorem exists_digit_of_digits {ds : List Nat} (h : Digits cs ds rest) :
    ∃ c after, cs = c :: after ∧ c.isDigit = true := by
  cases h with
  | last isDigit => exact ⟨_, _, rfl, isDigit⟩
  | more isDigit => exact ⟨_, _, rfl, isDigit⟩

/-- **A value tells its kind by its first character.** -/
theorem exists_starts {t : Tree} (h : Spells cs (.value t) rest) :
    ∃ c after, cs = c :: after ∧ t.Starts c := by
  cases h with
  | null => exact ⟨'n', _, rfl, rfl⟩
  | true => exact ⟨'t', _, rfl, rfl⟩
  | false => exact ⟨'f', _, rfl, rfl⟩
  | number numeral =>
    cases numeral with
    | intro sign whole =>
      obtain ⟨c, after, rfl, hdigit⟩ := exists_digit_of_digits whole
      generalize Numeral.negative _ = negative at sign
      cases sign with
      | minus => exact ⟨'-', _, rfl, .inl rfl⟩
      | none => exact ⟨c, after, rfl, .inr hdigit⟩
  | string => exact ⟨'"', _, rfl, rfl⟩
  | emptyArray => exact ⟨'[', _, rfl, rfl⟩
  | array => exact ⟨'[', _, rfl, rfl⟩
  | emptyObject => exact ⟨'\x7b', _, rfl, rfl⟩
  | object => exact ⟨'\x7b', _, rfl, rfl⟩

theorem Tree.Starts.isBlank_eq_false {t : Tree} {c : Char} (h : t.Starts c) :
    isBlank c = false := by
  have hdigit (hc : c.isDigit = true) : isBlank c = false := by
    by_contra hblank
    simp only [isBlank, Bool.not_eq_false, Bool.or_eq_true, beq_iff_eq] at hblank
    obtain ((rfl | rfl) | rfl) | rfl := hblank <;> cases hc
  match t, h with
  | .null, h | .bool true, h | .bool false, h | .string _, h | .array _, h | .object _, h =>
    rw [show c = _ from h]
    rfl
  | .number _, .inl h => exact h ▸ rfl
  | .number _, .inr h => exact hdigit h

/-- A numeral starts with nothing but a minus or a digit. -/
theorem Tree.Starts.ne_of_number {n : Numeral} {c d : Char} (h : (Tree.number n).Starts c)
    (hminus : d ≠ '-') (hdigit : d.isDigit = false) : c ≠ d := by
  rintro rfl
  rcases h with h | h
  · exact hminus h
  · rw [hdigit] at h
    cases h

/-- What readers of values look at: the first character after blanks. -/
theorem exists_skipBlank {cs₁ : List Char} {t : Tree} (hblank : Blank cs cs₁)
    (h : Spells cs₁ (.value t) rest) :
    ∃ c after, cs₁ = c :: after ∧ t.Starts c ∧ skipBlank cs = c :: after := by
  obtain ⟨c, after, rfl, hstarts⟩ := exists_starts h
  exact ⟨c, after, rfl, hstarts, skipBlank_eq_cons hblank hstarts.isBlank_eq_false⟩

/-! ## How long a text is -/

theorem Blank.length_le (h : Blank cs rest) : rest.length ≤ cs.length := by
  induction h with
  | done => exact Nat.le_refl _
  | more _ _ ih => exact Nat.le_succ_of_le ih

theorem length_of_codeUnit {unit : Nat} (h : CodeUnit cs unit rest) :
    cs.length = rest.length + 4 := by
  cases h
  rfl

theorem Chars.length_lt (h : Chars cs chars rest) : rest.length < cs.length := by
  induction h with
  | close => exact Nat.lt_succ_self _
  | plain _ _ _ _ ih => exact Nat.lt_succ_of_lt ih
  | letter _ _ ih => exact Nat.lt_succ_of_lt (Nat.lt_succ_of_lt ih)
  | unit codeUnit _ _ _ ih =>
    have := length_of_codeUnit codeUnit
    simp only [List.length_cons]
    omega
  | pair leading _ _ trailing _ _ ih =>
    have := length_of_codeUnit leading
    have := length_of_codeUnit trailing
    simp only [List.length_cons] at *
    omega

theorem Digits.length_lt {ds : List Nat} (h : Digits cs ds rest) : rest.length < cs.length := by
  induction h with
  | last => exact Nat.lt_succ_self _
  | more _ _ ih => exact Nat.lt_succ_of_lt ih

theorem Sign.length_le {negative : Bool} (h : Sign cs negative rest) : rest.length ≤ cs.length := by
  cases h with
  | minus => exact Nat.le_succ _
  | none => exact Nat.le_refl _

theorem Fraction.length_le {ds : Option (List Nat)} (h : Fraction cs ds rest) :
    rest.length ≤ cs.length := by
  cases h with
  | none => exact Nat.le_refl _
  | some digits => exact Nat.le_succ_of_le (Nat.le_of_lt digits.length_lt)

theorem Exponent.length_le {exponent : Option (Bool × List Nat)} (h : Exponent cs exponent rest) :
    rest.length ≤ cs.length := by
  cases h with
  | none => exact Nat.le_refl _
  | some _ sign digits =>
    have := digits.length_lt
    cases sign <;> simp only [List.length_cons] <;> omega

theorem SpellsNumeral.length_le {n : Numeral} (h : SpellsNumeral cs n rest) :
    rest.length ≤ cs.length := by
  cases h with
  | intro sign whole _ fraction exponent =>
    have := sign.length_le
    have := whole.length_lt
    have := fraction.length_le
    have := exponent.length_le
    omega

/-- The number of the members of a part. -/
def Part.size : Part → Nat
  | .members ms => ms.length
  | _ => 0

/-- Each member takes a character of the text at least. -/
theorem Spells.size_add_length_le {part : Part} (h : Spells cs part rest) :
    part.size + rest.length ≤ cs.length := by
  induction h with
  | null | true | false =>
    simp only [Part.size, List.length_cons]
    omega
  | number numeral => simpa [Part.size] using numeral.length_le
  | string spelled =>
    have := spelled.length_lt
    simp only [Part.size, List.length_cons]
    omega
  | emptyArray blank | emptyObject blank =>
    have := blank.length_le
    simp only [Part.size, List.length_cons] at *
    omega
  | array _ ih | object _ ih =>
    simp only [Part.size, List.length_cons] at *
    omega
  -- the text of an element is inside of the array, so elements add nothing to the size; members do
  | lastElement before _ after ih =>
    have := before.length_le
    have := after.length_le
    simp only [Part.size, List.length_cons] at *
    omega
  | element before _ after _ ih ih' =>
    have := before.length_le
    have := after.length_le
    simp only [Part.size, List.length_cons] at *
    omega
  | member before key colon between _ after ih =>
    have := before.length_le
    have := key.length_lt
    have := colon.length_le
    have := between.length_le
    have := after.length_le
    simp only [Part.size, List.length_cons] at *
    omega
  | lastMember _ ih =>
    simp only [Part.size, List.length_cons, List.length_nil] at *
    omega
  | furtherMember _ _ ih ih' =>
    simp only [Part.size, List.length_cons] at *
    omega

end NamedTypes.Json
