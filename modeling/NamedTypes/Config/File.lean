import NamedTypes.Config.Reader
import NamedTypes.Log.Line

/-! # Configuration files
Loading a configuration from a file. A file that cannot be read is refused with the reason; a
configuration that was loaded is announced under its own threshold. -/

namespace NamedTypes

/-- Why a file has no text. -/
inductive FileError
  /-- There is no such file. -/
  | missing
  /-- The path names a directory. -/
  | isDirectory
  /-- The bytes of the file are no UTF-8. -/
  | notUtf8
deriving DecidableEq, Repr

/-- The wording of a reason. -/
def FileError.message : FileError → String
  | .missing => "No such file or directory (os error 2)"
  | .isDirectory => "Is a directory (os error 21)"
  | .notUtf8 => "stream did not contain valid UTF-8"

namespace Config

/-- The configuration in a file, given its path and what reading the file gave. -/
def load (path : String) (content : Except FileError String) : Except AliasError Config :=
  match content with
  | .error reason => .error (.invalidConfig s!"Failed to read {path}: {reason.message}")
  | .ok text => ofText text

/-- What is written when a configuration was loaded from a path. -/
def announce? (c : Config) (path : String) : Option Log.Written :=
  Log.writeEvent? c.logLevel .configLoaded [("log_level", c.logLevel.name), ("path", path)]

end Config

end NamedTypes
