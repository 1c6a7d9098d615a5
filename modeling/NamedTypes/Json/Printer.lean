import NamedTypes.Json.NumberText
import NamedTypes.Json.Quoted

/-! # Writing JSON
`Value.print` writes a value without blanks, object members in the order in which they stand. -/

namespace NamedTypes.Json.Value

mutual

/-- The text of a value. -/
def printed : Value → List Char
  | .null => "null".toList
  | .bool value => (toString value).toList
  | .number value => value.text.toList
  | .string value => quoted value
  | .array items => '[' :: (List.intercalate [','] (printedItems items) ++ [']'])
  | .object members => '\x7b' :: (List.intercalate [','] (printedMembers members) ++ ['\x7d'])

/-- The texts of values. -/
def printedItems : List Value → List (List Char)
  | [] => []
  | v :: vs => printed v :: printedItems vs

/-- The texts of members. -/
def printedMembers : List (String × Value) → List (List Char)
  | [] => []
  | (key, v) :: members => (quoted key ++ ':' :: printed v) :: printedMembers members

end

/-- The text of a value as a string. -/
def print (v : Value) : String := String.ofList v.printed

end NamedTypes.Json.Value
