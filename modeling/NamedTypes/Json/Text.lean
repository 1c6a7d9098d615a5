import NamedTypes.Json.ReadError

/-! # Blanks, words and strings of JSON
The smallest parts of the grammar. Main definition: `Reader` for the body of a string, which goes
through the characters once and remembers how far an escape has been read (`Escape`). -/

namespace NamedTypes.Json

/-- The four characters that may stand between the parts of a text. -/
def isBlank (c : Char) : Bool := c == ' ' || c == '\t' || c == '\n' || c == '\r'

/-- The text after its leading blanks. -/
def skipBlank (cs : List Char) : List Char := cs.dropWhile isBlank

/-- Reads the rest of a word whose first letter has been read. -/
def readWord : List Char → Reader Unit
  | [], cs => .ok ((), cs)
  | _ :: _, [] => .error .endInValue
  | e :: expected, c :: cs => if c = e then readWord expected cs else .error .expectedWord

/-! ## Escapes -/

/-- The value of a hexadecimal digit of either case. -/
def hexDigit? (c : Char) : Option Nat :=
  if '0' ≤ c ∧ c ≤ '9' then some (c.toNat - '0'.toNat)
  else if 'a' ≤ c ∧ c ≤ 'f' then some (c.toNat - 'a'.toNat + 10)
  else if 'A' ≤ c ∧ c ≤ 'F' then some (c.toNat - 'A'.toNat + 10)
  else none

/-- The character of an escape that consists of one letter. -/
def letterEscape? : Char → Option Char
  | '"' => some '"'
  | '\\' => some '\\'
  | '/' => some '/'
  | 'b' => some '\x08'
  | 'f' => some '\x0c'
  | 'n' => some '\n'
  | 'r' => some '\r'
  | 't' => some '\t'
  | _ => none

/-- Whether a code unit is the first half of a surrogate pair. -/
def isLeadingSurrogate (unit : Nat) : Bool := 0xD800 ≤ unit && unit ≤ 0xDBFF

/-- Whether a code unit is the second half of a surrogate pair. -/
def isTrailingSurrogate (unit : Nat) : Bool := 0xDC00 ≤ unit && unit ≤ 0xDFFF

/-- The character that a surrogate pair stands for. -/
def ofSurrogates (leading trailing : Nat) : Char :=
  Char.ofNat (0x10000 + (leading - 0xD800) * 0x400 + (trailing - 0xDC00))

/-- How much of an escape has been read inside a string. -/
inductive Escape
  /-- No escape has begun. -/
  | outside
  /-- A backslash has been read. -/
  | begun
  /-- In the digits of a code unit: the leading surrogate before it, if there is one, how many
  digits are missing, and the value of those read. -/
  | digits (leading : Option Nat) (missing : Nat) (value : Nat)
  /-- A leading surrogate is complete. -/
  | leading (unit : Nat)
  /-- A leading surrogate and the backslash after it have been read. -/
  | leadingBegun (unit : Nat)

/-- Four digits take four bytes; a text with fewer left ends inside the string. -/
def lacksFourBytes (cs : List Char) : Bool :=
  (cs.take 4).foldl (fun n c => n + c.utf8Size) 0 < 4

/-- Reads the characters of a string up to its closing quote. -/
def readChars : Escape → Reader (List Char)
  | _, [] => .error .endInString
  | .outside, c :: cs =>
    if c = '"' then .ok ([], cs)
    else if c = '\\' then readChars .begun cs
    else if c.toNat < 0x20 then .error .controlCharacter
    else do
      let (chars, rest) ← readChars .outside cs
      return (c :: chars, rest)
  | .begun, c :: cs =>
    if c = 'u' then
      if lacksFourBytes cs then .error .endInString else readChars (.digits none 4 0) cs
    else match letterEscape? c with
      | none => .error .invalidEscape
      | some e => do
        let (chars, rest) ← readChars .outside cs
        return (e :: chars, rest)
  | .digits lead missing value, c :: cs =>
    match hexDigit? c with
    | none => .error .invalidEscape
    | some d =>
      let unit := value * 16 + d
      if missing > 1 then readChars (.digits lead (missing - 1) unit) cs
      else match lead with
        | none =>
          if isTrailingSurrogate unit then .error .loneSurrogate
          else if isLeadingSurrogate unit then readChars (.leading unit) cs
          else do
            let (chars, rest) ← readChars .outside cs
            return (Char.ofNat unit :: chars, rest)
        | some leadingUnit =>
          if isTrailingSurrogate unit then do
            let (chars, rest) ← readChars .outside cs
            return (ofSurrogates leadingUnit unit :: chars, rest)
          else .error .loneSurrogate
  | .leading unit, c :: cs =>
    if c = '\\' then readChars (.leadingBegun unit) cs else .error .unfinishedSurrogate
  | .leadingBegun unit, c :: cs =>
    if c = 'u' then
      if lacksFourBytes cs then .error .endInString else readChars (.digits (some unit) 4 0) cs
    else .error .unfinishedSurrogate

/-- Reads a string whose opening quote has been read. -/
def readString : Reader String := fun cs => do
  let (chars, rest) ← readChars .outside cs
  return (String.ofList chars, rest)

end NamedTypes.Json
