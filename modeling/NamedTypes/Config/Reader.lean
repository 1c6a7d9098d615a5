import NamedTypes.Config
import NamedTypes.Json.NumberText
import NamedTypes.Json.Reader
import NamedTypes.Text.Quoted

/-! # Configuration text
A configuration is written as a JSON object with the members `log_level` and `memoize_generators`,
or as an array of their values in this order; what is missing takes its default. A level is written
as a string, or as an object whose one key is the level and whose value is `null`. Main definition:
`Config.ofText`. The text is read once from front to back, so the first problem met is the one
reported; a key that is unknown or repeated is reported before its value is looked at. -/

namespace NamedTypes

open Json (ReadError skipBlank)

/-- Why a text is not a configuration. -/
inductive FormatError
  /-- The text is not JSON. -/
  | json (cause : ReadError)
  /-- A value of a wrong kind stands somewhere. -/
  | wrongKind (found expected : String)
  /-- A level has a name that is not among the levels. -/
  | unknownLevel (name : String)
  /-- A key is not among the members. -/
  | unknownField (name : String)
  /-- A key occurs twice. -/
  | duplicateField (name : String)
deriving DecidableEq, Repr

namespace FormatError

/-- A word between backquotes. -/
def marked (word : String) : String := "`" ++ word ++ "`"

/-- The names of all levels. -/
def levelNames : String := ", ".intercalate (Log.Severity.all.map fun s => marked s.name)

/-- The wording of a cause. -/
def message : FormatError → String
  | .json cause => cause.message
  | .wrongKind found expected => s!"invalid type: {found}, expected {expected}"
  | .unknownLevel name => s!"unknown variant {marked name}, expected one of {levelNames}"
  | .unknownField name =>
    s!"unknown field {marked name}, expected `log_level` or `memoize_generators`"
  | .duplicateField name => s!"duplicate field {marked name}"

end FormatError

namespace Config

/-- A reader of a part of a configuration. -/
abbrev FormatReader (α : Type) : Type := List Char → Except FormatError (α × List Char)

/-- A reader of JSON as a reader of configurations. -/
def ofJson {α : Type} (reader : Json.Reader α) : FormatReader α := fun cs =>
  (reader cs).mapError .json

/-- Refuses with a problem of the JSON grammar. -/
def refuse {α : Type} (cause : ReadError) : Except FormatError α := .error (.json cause)

/-! ## Values of a wrong kind -/

/-- Names the value at the front of a text, which is of another kind than expected. Arrays and
objects are named by their first character; everything else is read, and a problem met on the way
counts first. -/
def wrongKind {α : Type} (expected : String) (cs : List Char) : Except FormatError α :=
  let found (what : String) : Except FormatError α := .error (.wrongKind what expected)
  match skipBlank cs with
  | [] => refuse .endInValue
  | c :: rest =>
    if c = 'n' then do
      let _ ← ofJson (Json.readWord "ull".toList) rest
      found "null"
    else if c = 't' then do
      let _ ← ofJson (Json.readWord "rue".toList) rest
      found "boolean `true`"
    else if c = 'f' then do
      let _ ← ofJson (Json.readWord "alse".toList) rest
      found "boolean `false`"
    else if c = '-' ∨ c.isDigit then do
      let (number, _) ← ofJson Json.readNumber (c :: rest)
      match number with
      | .int _ => found ("integer " ++ FormatError.marked number.text)
      | .float _ => found ("floating point " ++ FormatError.marked number.text)
    else if c = '"' then do
      let (text, _) ← ofJson Json.readString rest
      found ("string " ++ Text.quoted text)
    else if c = '[' then found "sequence"
    else if c = '\x7b' then found "map"
    else refuse .expectedValue

/-! ## Values of the members -/

/-- Reads a truth value. -/
def readBool : FormatReader Bool := fun cs =>
  match skipBlank cs with
  | 't' :: rest => do
    let (_, rest) ← ofJson (Json.readWord "rue".toList) rest
    return (true, rest)
  | 'f' :: rest => do
    let (_, rest) ← ofJson (Json.readWord "alse".toList) rest
    return (false, rest)
  | cs => wrongKind "a boolean" cs

/-- Reads `null`. -/
def readNull : FormatReader Unit := fun cs =>
  match skipBlank cs with
  | 'n' :: rest => ofJson (Json.readWord "ull".toList) rest
  | cs => wrongKind "unit" cs

/-- The level of a name. -/
def levelNamed (name : String) : Except FormatError Log.Severity :=
  match Log.Severity.ofName? name with
  | some level => .ok level
  | none => .error (.unknownLevel name)

/-- Reads the brace that closes an object of one member. -/
def readOnlyMemberEnd : FormatReader Unit := fun cs =>
  match skipBlank cs with
  | [] => refuse .endInObject
  | c :: rest => if c = '\x7d' then .ok ((), rest) else refuse .expectedValue

/-- Reads a level: its name as a string, or an object whose one key is the name and whose value is
`null`. An object without keys is no value that could be a level. -/
def readLevel : FormatReader Log.Severity := fun cs =>
  match skipBlank cs with
  | [] => refuse .endInValue
  | c :: rest =>
    if c = '"' then do
      let (name, rest) ← ofJson Json.readString rest
      return (← levelNamed name, rest)
    else if c = '\x7b' then do
      match ← ofJson (Json.nextKey? true) rest with
      | (none, _) => refuse .expectedValue
      | (some name, rest) =>
        let level ← levelNamed name
        let (_, rest) ← ofJson Json.readColon rest
        let (_, rest) ← readNull rest
        let (_, rest) ← readOnlyMemberEnd rest
        return (level, rest)
    else refuse .expectedValue

/-! ## Configurations -/

/-- What has been read of a configuration. -/
structure Draft where
  logLevel : Option Log.Severity := none
  memoize : Option Bool := none

/-- The configuration of a draft; what has not been read takes its default. -/
def Draft.config (d : Draft) : Config where
  logLevel := d.logLevel.getD ({} : Config).logLevel
  memoize := d.memoize.getD ({} : Config).memoize

/-- Reads the value of a member into a draft, after its key. -/
def readMember (draft : Draft) (key : String) : FormatReader Draft := fun cs =>
  if key = "log_level" then
    if draft.logLevel.isSome then .error (.duplicateField key)
    else do
      let (_, rest) ← ofJson Json.readColon cs
      let (level, rest) ← readLevel rest
      return ({ draft with logLevel := some level }, rest)
  else if key = "memoize_generators" then
    if draft.memoize.isSome then .error (.duplicateField key)
    else do
      let (_, rest) ← ofJson Json.readColon cs
      let (memoize, rest) ← readBool rest
      return ({ draft with memoize := some memoize }, rest)
  else .error (.unknownField key)

/-- Reads the members of an object up to and with its closing brace. The number bounds the members;
one more than the length of the text always suffices. -/
def readMembers : Nat → (isFirst : Bool) → Draft → FormatReader Draft
  | 0, _, _, _ => refuse .endInObject
  | bound + 1, isFirst, draft, cs => do
    match ← ofJson (Json.nextKey? isFirst) cs with
    | (none, rest) => return (draft, rest.drop 1)
    | (some key, rest) =>
      let (draft, rest) ← readMember draft key rest
      readMembers bound false draft rest

/-- Reads the elements of an array up to and with its closing bracket: a level and a truth value, of
which the last ones may be missing. -/
def readElements : FormatReader Draft := fun cs => do
  let (more, rest) ← ofJson (Json.hasElement true) cs
  if more then
    let (level, rest) ← readLevel rest
    let (more, rest) ← ofJson (Json.hasElement false) rest
    if more then
      let (memoize, rest) ← readBool rest
      let (_, rest) ← ofJson Json.readListEnd rest
      return ({ logLevel := some level, memoize := some memoize }, rest)
    else
      return ({ logLevel := some level }, rest.drop 1)
  else
    return ({}, rest.drop 1)

/-- Reads a configuration. -/
def readDraft : FormatReader Draft := fun cs =>
  match skipBlank cs with
  | [] => refuse .endInValue
  | c :: rest =>
    if c = '[' then readElements rest
    else if c = '\x7b' then readMembers (rest.length + 1) true {} rest
    else wrongKind "struct NamespaceConfig" (c :: rest)

/-- Reads a whole text as what `reader` reads; only blanks may follow. -/
def readAll {α : Type} (reader : FormatReader α) (text : String) : Except FormatError α := do
  let (result, rest) ← reader text.toList
  (Json.readEnd rest).mapError .json
  return result

/-- The configuration that a text describes. A text that is no configuration is refused, and so is
one that would silence every event. -/
def ofText (text : String) : Except AliasError Config :=
  match readAll readDraft text with
  | .error cause => .error (.invalidConfig s!"Invalid config JSON: {cause.message}")
  | .ok draft => do
    draft.config.validate
    return draft.config

/-- The severity that a text describes. -/
def severityOfText (text : String) : Except FormatError Log.Severity := readAll readLevel text

end Config

end NamedTypes
