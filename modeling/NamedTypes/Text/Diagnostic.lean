import NamedTypes.Json.NumberText
import NamedTypes.Registry.Basic
import NamedTypes.Text.Quoted

/-! # Values in diagnostics
How JSON values, expressions, errors, severities, accessors and namespaces are written out for
someone who looks for a mistake: constructors by name, lists in brackets, strings in quotes. The
bodies of type functions are not written out. -/

namespace NamedTypes

/-- Texts in brackets, separated by commas. -/
def bracketed (texts : List String) : String := "[" ++ ", ".intercalate texts ++ "]"

/-- A named structure with its fields. -/
def structureText (name : String) (fields : Entries String) : String :=
  let field (f : String × String) : String := f.1 ++ ": " ++ f.2
  name ++ " \x7b " ++ ", ".intercalate (fields.map field) ++ " \x7d"

namespace Json.Value

mutual

/-- A JSON value in diagnostics. -/
def diagnostic : Value → String
  | .null => "Null"
  | .bool value => "Bool(" ++ toString value ++ ")"
  | .number value => "Number(" ++ value.text ++ ")"
  | .string value => "String(" ++ Text.quoted value ++ ")"
  | .array items => "Array " ++ bracketed (diagnosticItems items)
  | .object members => "Object \x7b" ++ ", ".intercalate (diagnosticMembers members) ++ "\x7d"

/-- JSON values in diagnostics. -/
def diagnosticItems : List Value → List String
  | [] => []
  | v :: vs => diagnostic v :: diagnosticItems vs

/-- Members of an object in diagnostics. -/
def diagnosticMembers : List (String × Value) → List String
  | [] => []
  | (key, v) :: members => (Text.quoted key ++ ": " ++ diagnostic v) :: diagnosticMembers members

end

end Json.Value

/-- A type in diagnostics. -/
def Ty.diagnostic (t : Ty) : String := "Type(" ++ t.describe ++ ")"

namespace Expr

variable {F : Type}

mutual

/-- An expression in diagnostics. -/
def diagnostic : Expr F → String
  | .leaf type => "Leaf(" ++ type.diagnostic ++ ")"
  | .sequence items => "Sequence(" ++ bracketed (diagnosticItems items) ++ ")"
  | .record fields => "Record(" ++ bracketed (diagnosticFields fields) ++ ")"
  | .generator _ => "Generator(Generator(..))"
  | .data value => "Data(" ++ value.diagnostic ++ ")"

/-- Expressions in diagnostics. -/
def diagnosticItems : List (Expr F) → List String
  | [] => []
  | e :: es => diagnostic e :: diagnosticItems es

/-- Fields of a record in diagnostics. -/
def diagnosticFields : List (String × Expr F) → List String
  | [] => []
  | (key, e) :: fields =>
    ("(" ++ Text.quoted key ++ ", " ++ diagnostic e ++ ")") :: diagnosticFields fields

end

end Expr

/-- What an expression came to, in diagnostics. -/
def Normalized.diagnostic {F : Type} : Normalized F → String
  | .type t => "Type(" ++ t.diagnostic ++ ")"
  | .function _ => "Function(" ++ structureText "TypeFunction" [("body", "Generator(..)")] ++ ")"

/-- An error in diagnostics. -/
def AliasError.diagnostic : AliasError → String
  | .unsupportedLiteral shape =>
    structureText "UnsupportedLiteral" [("shape", Text.quoted shape)]
  | .unsupportedValidator name =>
    structureText "UnsupportedValidatorObject" [("name", Text.quoted name)]
  | .undefinedAlias name => "UndefinedAlias(" ++ Text.quoted name ++ ")"
  | .nameCollision name => "NameCollision(" ++ Text.quoted name ++ ")"
  | .usage detail => "UsageError(" ++ Text.quoted detail ++ ")"
  | .invalidConfig detail => "InvalidConfig(" ++ Text.quoted detail ++ ")"

/-- A severity in diagnostics. -/
def Log.Severity.diagnostic : Log.Severity → String
  | .trace => "Trace"
  | .info => "Info"
  | .warn => "Warn"
  | .error => "Error"
  | .fatal => "Fatal"

/-- An accessor in diagnostics, with the state of its alias. -/
def Registry.accessorDiagnostic (r : Registry) (a : Accessor) : String :=
  structureText "Accessor" [("name", Text.quoted a.name), ("state", (r.state a).name)]

/-- A namespace in diagnostics. -/
def Namespace.diagnostic (n : Namespace) : String :=
  structureText "Namespace"
    [("name", Text.quoted n.name), ("aliases", bracketed (n.names.map Text.quoted))]

end NamedTypes
