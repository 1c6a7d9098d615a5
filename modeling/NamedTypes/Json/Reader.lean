import NamedTypes.Json.Numeral
import NamedTypes.Json.Text
import NamedTypes.Table

/-! # Reading JSON
The strict grammar: no leading zeros, no trailing commas, no raw control characters in strings,
surrogate escapes only in pairs, nothing but blanks after the value, and at most `maxNesting` arrays
and objects inside each other. `hasElement` and `nextKey?` are the steps by which every reader of
this library goes through an array or object; `read` reads a whole text. -/

namespace NamedTypes.Json

/-! ## Steps through arrays and objects -/

/-- Goes to the next element of an array, whose first element stands without a comma before it, and
says whether there is one; otherwise the closing bracket comes next. -/
def hasElement (isFirst : Bool) : Reader Bool := fun cs =>
  match skipBlank cs with
  | [] => .error .endInList
  | c :: rest =>
    if c = ']' then .ok (false, c :: rest)
    else if isFirst then .ok (true, c :: rest)
    else if c = ',' then
      match skipBlank rest with
      | [] => .error .endInValue
      | d :: after => if d = ']' then .error .trailingComma else .ok (true, d :: after)
    else .error .expectedListEnd

/-- Reads a key at the front of a text. -/
def readKey : Reader String
  | '"' :: cs => readString cs
  | _ => .error .keyNotString

/-- Reads the next key of an object, whose first key stands without a comma before it; without one
the closing brace comes next. -/
def nextKey? (isFirst : Bool) : Reader (Option String) := fun cs =>
  match skipBlank cs with
  | [] => .error .endInObject
  | c :: rest =>
    if c = '\x7d' then .ok (none, c :: rest)
    else if isFirst then do
      let (key, rest) ← readKey (c :: rest)
      return (some key, rest)
    else if c = ',' then
      match skipBlank rest with
      | [] => .error .endInValue
      | d :: after =>
        if d = '\x7d' then .error .trailingComma
        else do
          let (key, rest) ← readKey (d :: after)
          return (some key, rest)
    else .error .expectedObjectEnd

/-- Reads the colon between a key and its value. -/
def readColon : Reader Unit := fun cs =>
  match skipBlank cs with
  | [] => .error .endInObject
  | c :: rest => if c = ':' then .ok ((), rest) else .error .expectedColon

/-- Reads the bracket that closes an array after its last element. -/
def readListEnd : Reader Unit := fun cs =>
  match skipBlank cs with
  | [] => .error .endInList
  | ']' :: rest => .ok ((), rest)
  | ',' :: rest => match skipBlank rest with
    | ']' :: _ => .error .trailingComma
    | _ => .error .trailingCharacters
  | _ :: _ => .error .trailingCharacters

/-- A text that is used up but for blanks. -/
def readEnd (cs : List Char) : Except ReadError Unit :=
  match skipBlank cs with
  | [] => .ok ()
  | _ :: _ => .error .trailingCharacters

/-! ## Values -/

/-- How many arrays and objects may stand inside each other. -/
def maxNesting : Nat := 127

/-- Reads the elements of an array up to and with its closing bracket. The number bounds the
elements; one more than the length of the text always suffices. -/
def readElements (readItem : Reader Value) : Nat → (isFirst : Bool) → Reader (List Value)
  | 0, _, _ => .error .endInList
  | bound + 1, isFirst, cs => do
    match ← hasElement isFirst cs with
    | (false, rest) => return ([], rest.drop 1)
    | (true, rest) =>
      let (item, rest) ← readItem rest
      let (items, rest) ← readElements readItem bound false rest
      return (item :: items, rest)

/-- Reads the members of an object up to and with its closing brace, in the order of the text and
with keys repeated as they stand. The number bounds the members; one more than the length of the
text always suffices. -/
def readMembers (readItem : Reader Value) : Nat → (isFirst : Bool) → Reader (Entries Value)
  | 0, _, _ => .error .endInObject
  | bound + 1, isFirst, cs => do
    match ← nextKey? isFirst cs with
    | (none, rest) => return ([], rest.drop 1)
    | (some key, rest) =>
      let (_, rest) ← readColon rest
      let (item, rest) ← readItem rest
      let (members, rest) ← readMembers readItem bound false rest
      return ((key, item) :: members, rest)

/-- The object with the given members; of a repeated key the last value counts. -/
def Value.ofMembers (members : Entries Value) : Value :=
  .object (members.foldl (fun es e => Entries.insert e.1 e.2 es) [])

/-- Reads a value that opens at most `nesting` arrays and objects inside each other. -/
def readValue (nesting : Nat) : Reader Value := fun cs =>
  match skipBlank cs with
  | [] => .error .endInValue
  | c :: rest =>
    if c = 'n' then do
      let (_, rest) ← readWord "ull".toList rest
      return (.null, rest)
    else if c = 't' then do
      let (_, rest) ← readWord "rue".toList rest
      return (.bool true, rest)
    else if c = 'f' then do
      let (_, rest) ← readWord "alse".toList rest
      return (.bool false, rest)
    else if c = '-' ∨ c.isDigit then do
      let (number, rest) ← readNumber (c :: rest)
      return (.number number, rest)
    else if c = '"' then do
      let (text, rest) ← readString rest
      return (.string text, rest)
    else if c = '[' then
      match nesting with
      | 0 => .error .nestedTooDeeply
      | nesting + 1 => do
        let (items, rest) ← readElements (readValue nesting) (rest.length + 1) true rest
        return (.array items, rest)
    else if c = '\x7b' then
      match nesting with
      | 0 => .error .nestedTooDeeply
      | nesting + 1 => do
        let (members, rest) ← readMembers (readValue nesting) (rest.length + 1) true rest
        return (Value.ofMembers members, rest)
    else .error .expectedValue

/-- Reads a text that holds one value. -/
def read (text : String) : Except ReadError Value := do
  let (value, rest) ← readValue maxNesting text.toList
  readEnd rest
  return value

end NamedTypes.Json
