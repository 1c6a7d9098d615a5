import NamedTypes.AliasError
import NamedTypes.Log.Severity

/-! # Configurations
What may be chosen for a namespace: the threshold of its log, and whether its type functions
remember results. Nothing that happens in a namespace is fatal, so a threshold of `fatal` would
silence it entirely, failures included; `Config.validate` refuses it. -/

namespace NamedTypes

/-- The configuration of a namespace. -/
structure Config where
  /-- The least severity that is logged. -/
  logLevel : Log.Severity := .info
  /-- Whether type functions remember the results of calls. -/
  memoize : Bool := false
deriving DecidableEq, Repr

namespace Config

/-- The configuration that logs failures only. -/
def quiet : Config := { logLevel := .error }

/-- The configuration whose type functions remember results. -/
def memoized : Config := { memoize := true }

/-- Refuses a configuration that would silence every event. -/
def validate (c : Config) : Except AliasError Unit :=
  if c.logLevel = .fatal then .error (.invalidConfig "log_level FATAL would suppress every event")
  else .ok ()

end Config

end NamedTypes
