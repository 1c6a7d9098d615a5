/-! # Errors
What can go wrong when expressions are compiled and when names are declared, bound and used. Every
error carries the text that names its cause; the constructions below fix that text for the causes
that this library meets itself, and bodies of type functions may raise errors with any text. -/

namespace NamedTypes

/-- An error, with the text that names its cause. -/
inductive AliasError
  /-- An expression, or a part of one, describes no type. -/
  | unsupportedLiteral (shape : String)
  /-- A name in a literal is not known. -/
  | unsupportedValidator (name : String)
  /-- A name has no definition. -/
  | undefinedAlias (name : String)
  /-- A name has a definition already. -/
  | nameCollision (name : String)
  /-- An alias was invoked in a way that it does not allow. -/
  | usage (detail : String)
  /-- A configuration is not acceptable. -/
  | invalidConfig (detail : String)
deriving DecidableEq, Repr

namespace AliasError

/-- The code of an error. -/
def code : AliasError → String
  | .unsupportedLiteral _ => "TYPE_UNSUPPORTED_LITERAL"
  | .unsupportedValidator _ => "TYPE_UNSUPPORTED_VALIDATOR"
  | .undefinedAlias _ => "TYPE_UNDEFINED_ALIAS"
  | .nameCollision _ => "TYPE_NAME_COLLISION"
  | .usage _ => "TYPE_USAGE_ERROR"
  | .invalidConfig _ => "TYPE_INVALID_CONFIG"

/-- The wording of an error. -/
def message : AliasError → String
  | .unsupportedLiteral shape => s!"Unsupported type literal: {shape}"
  | .unsupportedValidator name => s!"'{name}' is not a validator"
  | .undefinedAlias name => s!"Type alias '{name}' is not defined"
  | .nameCollision name => s!"Type alias '{name}' is already defined"
  | .usage detail => s!"Invalid type function usage: {detail}"
  | .invalidConfig detail => s!"Invalid namespace configuration: {detail}"

/-- Whether an error is one that declarations raise, and not one that comes from resolving or
invoking an alias. -/
def isDeclarationError : AliasError → Bool
  | .nameCollision _ | .unsupportedValidator _ => true
  | _ => false

/-! ## Causes met by the library itself -/

/-- A raw value of the given kind stands where a type is needed. -/
def rawValue (kind : String) : AliasError := .unsupportedLiteral s!"raw {kind} value"

/-- A record has two fields of one name. -/
def duplicateField (name : String) : AliasError :=
  .unsupportedLiteral s!"record with duplicate field '{name}'"

/-- A type function stands where a type is needed. -/
def misplacedFunction : AliasError :=
  .unsupportedLiteral "type function where a type was expected"

/-- An alias that is no type function was given arguments. -/
def takesNoParameters (name : String) : AliasError :=
  .usage s!"'{name}' is not a type function and takes no parameters"

/-- A type function was given one argument that is not a list of parameters. -/
def notAParameterList (shape : String) : AliasError :=
  .usage s!"expected a parameter list, got a single {shape} argument"

/-- A type function was given several arguments in place of one list of parameters. -/
def bareArguments (count : Nat) : AliasError :=
  .usage s!"expected a single parameter list, got {count} bare arguments"

end AliasError

end NamedTypes
