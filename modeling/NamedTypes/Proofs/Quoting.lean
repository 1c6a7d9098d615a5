import Mathlib
import NamedTypes.Json.Quoted
import NamedTypes.Json.Reader

/-! # Reading quoted strings back
What `Json.quoted` writes, the strict reader reads back as the string that was written, whatever
stands behind it (`Json.readString_escape`): one lemma for each class of characters, and the string
by induction. Nothing that is written is a control character (`Json.isControl_of_mem_quoted`). -/

namespace NamedTypes

/-! ## Separated texts -/

/-- Separated texts are the first one, and each other one after a separator. -/
theorem intercalate_cons {α : Type} (separator part : List α) (parts : List (List α)) :
    separator.intercalate (part :: parts) =
      part ++ parts.flatMap fun other => separator ++ other := by
  induction parts generalizing part with
  | nil => simp
  | cons other parts ih => simp [List.intercalate_cons_cons, ih]

namespace Json

/-! ## Digits -/

theorem hexDigit?_hexDigit {n : Nat} (h : n < 16) : hexDigit? (hexDigit n) = some n := by
  interval_cases n <;> rfl

theorem isControl_hexDigit {n : Nat} (h : n < 16) : isControl (hexDigit n) = false := by
  interval_cases n <;> rfl

theorem lacksFourBytes_hexDigits (unit : Nat) (rest : List Char) :
    lacksFourBytes (hexDigits unit ++ rest) = false := by
  have hpos (n : Nat) : 0 < (hexDigit n).utf8Size := Char.utf8Size_pos _
  have h₁ := hpos (unit / 4096 % 16)
  have h₂ := hpos (unit / 256 % 16)
  have h₃ := hpos (unit / 16 % 16)
  have h₄ := hpos (unit % 16)
  simp only [lacksFourBytes, hexDigits, List.cons_append, List.nil_append, List.take_succ_cons,
    List.take_zero, List.foldl_cons, List.foldl_nil]
  exact decide_eq_false (by omega)

/-! ## Characters -/

variable {cs chars rest : List Char}

/-- The digits of a code unit that is no surrogate stand for its character. -/
theorem readChars_hexDigits {unit : Nat} (hunit : unit < 0xd800)
    (h : readChars .outside cs = .ok (chars, rest)) :
    readChars (.digits none 4 0) (hexDigits unit ++ cs) = .ok (Char.ofNat unit :: chars, rest) := by
  have hdigit (n : Nat) : hexDigit? (hexDigit (n % 16)) = some (n % 16) :=
    hexDigit?_hexDigit (Nat.mod_lt n (by decide))
  have hvalue : (((0 * 16 + unit / 4096 % 16) * 16 + unit / 256 % 16) * 16 + unit / 16 % 16) * 16 +
      unit % 16 = unit := by omega
  have htrailing : isTrailingSurrogate unit = false := by
    simp only [isTrailingSurrogate, Bool.and_eq_false_iff, decide_eq_false_iff_not]
    omega
  have hleading : isLeadingSurrogate unit = false := by
    simp only [isLeadingSurrogate, Bool.and_eq_false_iff, decide_eq_false_iff_not]
    omega
  simp only [hexDigits, List.cons_append, List.nil_append, readChars, hdigit, hvalue, htrailing,
    hleading, h]
  rfl

/-- A character that stands as it is. -/
theorem readChars_plain {c : Char} (hquote : c ≠ '"') (hbackslash : c ≠ '\\')
    (hcontrol : isControl c = false) (h : readChars .outside cs = .ok (chars, rest)) :
    readChars .outside (c :: cs) = .ok (c :: chars, rest) := by
  have hle : ¬ c.toNat < 0x20 := fun hlt => by simp [isControl, hlt] at hcontrol
  simp only [readChars, if_neg hquote, if_neg hbackslash, if_neg hle, h]
  rfl

/-- A character that has an escape of one letter. -/
theorem readChars_letter {c letter : Char} (hletter : letter ≠ 'u')
    (hc : letterEscape? letter = some c) (h : readChars .outside cs = .ok (chars, rest)) :
    readChars .outside ('\\' :: letter :: cs) = .ok (c :: chars, rest) := by
  simp only [readChars, if_neg hletter, hc, h]
  rfl

/-- A control character that is written by the digits of its code unit. -/
theorem readChars_control {c : Char} (hcontrol : isControl c = true)
    (h : readChars .outside cs = .ok (chars, rest)) :
    readChars .outside ('\\' :: 'u' :: (hexDigits c.toNat ++ cs)) = .ok (c :: chars, rest) := by
  have hlt : c.toNat < 0xa0 := by
    simp only [isControl, Bool.or_eq_true, Bool.and_eq_true, decide_eq_true_eq] at hcontrol
    omega
  have hdigits := readChars_hexDigits (Nat.lt_trans hlt (by decide)) h
  rw [Char.ofNat_toNat] at hdigits
  simpa [readChars, lacksFourBytes_hexDigits] using hdigits

/-- Every character is read back. -/
theorem readChars_escapeChar (c : Char) (h : readChars .outside cs = .ok (chars, rest)) :
    readChars .outside (escapeChar c ++ cs) = .ok (c :: chars, rest) := by
  unfold escapeChar
  split_ifs with hquote hbackslash hn hr ht hcontrol
  · subst hquote; exact readChars_letter (by decide) rfl h
  · subst hbackslash; exact readChars_letter (by decide) rfl h
  · subst hn; exact readChars_letter (by decide) rfl h
  · subst hr; exact readChars_letter (by decide) rfl h
  · subst ht; exact readChars_letter (by decide) rfl h
  · exact readChars_control hcontrol h
  · exact readChars_plain hquote hbackslash (by simpa using hcontrol) h

/-! ## Strings -/

/-- Characters are read back up to the closing quote. -/
theorem readChars_escape (cs rest : List Char) :
    readChars .outside (escape cs ++ '"' :: rest) = .ok (cs, rest) := by
  induction cs with
  | nil => rfl
  | cons c cs ih =>
    rw [escape, List.flatMap_cons, List.append_assoc]
    exact readChars_escapeChar c ih

/-- A string is read back. -/
theorem readString_escape (s : String) (rest : List Char) :
    readString (escape s.toList ++ '"' :: rest) = .ok (s, rest) := by
  rw [readString, readChars_escape]
  exact congrArg (fun t => Except.ok (t, rest)) String.ofList_toList

theorem quoted_append (s : String) (rest : List Char) :
    quoted s ++ rest = '"' :: (escape s.toList ++ '"' :: rest) := by
  simp [quoted]

/-- A key is read back. -/
theorem readKey_quoted (s : String) (rest : List Char) :
    readKey (quoted s ++ rest) = .ok (s, rest) := by
  rw [quoted_append, readKey, readString_escape]

/-- A value that is a string is read back. -/
theorem readValue_quoted (nesting : Nat) (s : String) (rest : List Char) :
    readValue nesting (quoted s ++ rest) = .ok (.string s, rest) := by
  rw [quoted_append, readValue, skipBlank, List.dropWhile_cons_of_neg (by decide)]
  simp only [readString_escape]
  rfl

theorem isControl_of_mem_hexDigits {unit : Nat} {d : Char} (h : d ∈ hexDigits unit) :
    isControl d = false := by
  have hdigit (n : Nat) : isControl (hexDigit (n % 16)) = false :=
    isControl_hexDigit (Nat.mod_lt n (by decide))
  simp only [hexDigits, List.mem_cons, List.not_mem_nil, or_false] at h
  rcases h with rfl | rfl | rfl | rfl <;> exact hdigit _

/-- No character is written with a control character. -/
theorem isControl_of_mem_escapeChar {c d : Char} (h : d ∈ escapeChar c) : isControl d = false := by
  have hpair {letter : Char} (hletter : isControl letter = false) (hd : d ∈ ['\\', letter]) :
      isControl d = false := by
    simp only [List.mem_cons, List.not_mem_nil, or_false] at hd
    rcases hd with rfl | rfl
    · rfl
    · exact hletter
  unfold escapeChar at h
  split_ifs at h with hquote hbackslash hn hr ht hcontrol
  · exact hpair rfl h
  · exact hpair rfl h
  · exact hpair rfl h
  · exact hpair rfl h
  · exact hpair rfl h
  · rcases List.mem_cons.1 h with rfl | h
    · rfl
    rcases List.mem_cons.1 h with rfl | h
    · rfl
    · exact isControl_of_mem_hexDigits h
  · obtain rfl := List.mem_singleton.1 h
    simpa using hcontrol

/-- No character of a quoted string is a control character. -/
theorem isControl_of_mem_quoted {s : String} {d : Char} (h : d ∈ quoted s) :
    isControl d = false := by
  rcases List.mem_cons.1 h with rfl | h
  · rfl
  rcases List.mem_append.1 h with h | h
  · obtain ⟨c, -, hc⟩ := List.mem_flatMap.1 h
    exact isControl_of_mem_escapeChar hc
  · obtain rfl := List.mem_singleton.1 h
    rfl

end Json

end NamedTypes
