/-! # Why a text is not JSON
The causes for which the readers of this library refuse a text, and their wording. A reader goes
through the text once, so the cause reported is the first one met. -/

namespace NamedTypes.Json

/-- Why a text was refused. -/
inductive ReadError
  /-- The text ends where a value, or the rest of one, should stand. -/
  | endInValue
  /-- The text ends inside an object. -/
  | endInObject
  /-- The text ends inside an array. -/
  | endInList
  /-- The text ends inside a string. -/
  | endInString
  /-- No value starts here. -/
  | expectedValue
  /-- A word starts like `null`, `true` or `false` and goes on differently. -/
  | expectedWord
  /-- An object key is not followed by a colon. -/
  | expectedColon
  /-- An array element is followed by neither a comma nor the end of the array. -/
  | expectedListEnd
  /-- An object member is followed by neither a comma nor the end of the object. -/
  | expectedObjectEnd
  /-- An object key is not a string. -/
  | keyNotString
  /-- A comma stands before the end of an array or object. -/
  | trailingComma
  /-- Something other than blanks follows the value. -/
  | trailingCharacters
  /-- A string holds a control character. -/
  | controlCharacter
  /-- A backslash is followed by something that is not an escape. -/
  | invalidEscape
  /-- A surrogate escape stands where none may stand, or the second half of a pair is none. -/
  | loneSurrogate
  /-- The first half of a surrogate pair is not followed by another escape. -/
  | unfinishedSurrogate
  /-- A number breaks the grammar. -/
  | invalidNumber
  /-- A number is too large for a floating point number. -/
  | numberOutOfRange
  /-- Arrays and objects are nested too deeply. -/
  | nestedTooDeeply
deriving DecidableEq, Repr

/-- The wording of a cause. -/
def ReadError.message : ReadError → String
  | .endInValue => "EOF while parsing a value"
  | .endInObject => "EOF while parsing an object"
  | .endInList => "EOF while parsing a list"
  | .endInString => "EOF while parsing a string"
  | .expectedValue => "expected value"
  | .expectedWord => "expected ident"
  | .expectedColon => "expected `:`"
  | .expectedListEnd => "expected `,` or `]`"
  | .expectedObjectEnd => "expected `,` or `\x7d`"
  | .keyNotString => "key must be a string"
  | .trailingComma => "trailing comma"
  | .trailingCharacters => "trailing characters"
  | .controlCharacter => "control character (\\u0000-\\u001F) found while parsing a string"
  | .invalidEscape => "invalid escape"
  | .loneSurrogate => "lone leading surrogate in hex escape"
  | .unfinishedSurrogate => "unexpected end of hex escape"
  | .invalidNumber => "invalid number"
  | .numberOutOfRange => "number out of range"
  | .nestedTooDeeply => "recursion limit exceeded"

/-- A reader takes what it needs from the front of a text and gives back the rest. -/
abbrev Reader (α : Type) : Type := List Char → Except ReadError (α × List Char)

end NamedTypes.Json
