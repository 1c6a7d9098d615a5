import NamedTypes.Log.Severity

/-! # Events
What happens in the life of a namespace, with the name and the severity under which it is logged.
Only failures are errors; what single accesses do is traced; everything else is information. -/

namespace NamedTypes.Log

/-- An event in the life of a namespace. -/
inductive Event
  /-- A namespace came into being. -/
  | namespaceCreated
  /-- A configuration was loaded from a file. -/
  | configLoaded
  /-- A name was declared ahead of its definition. -/
  | forwardDeclared
  /-- A name was bound to a plain expression. -/
  | aliasBound
  /-- A name was bound to a type function. -/
  | functionBound
  /-- A declaration was refused. -/
  | bindingRejected
  /-- A plain alias was compiled and its type kept. -/
  | aliasResolved
  /-- A plain alias answered with the type it keeps. -/
  | cacheHit
  /-- The body of a type function was entered. -/
  | functionInvoked
  /-- A type function answered with a result it remembers. -/
  | memoHit
  /-- An access failed. -/
  | resolutionFailed
deriving DecidableEq, Repr

namespace Event

/-- The name under which an event is logged. -/
def name : Event → String
  | .namespaceCreated => "NAMESPACE_CREATED"
  | .configLoaded => "CONFIG_LOADED"
  | .forwardDeclared => "ALIAS_FORWARD_DECLARED"
  | .aliasBound => "ALIAS_BOUND"
  | .functionBound => "TYPE_FUNCTION_BOUND"
  | .bindingRejected => "BINDING_REJECTED"
  | .aliasResolved => "ALIAS_RESOLVED"
  | .cacheHit => "ALIAS_CACHE_HIT"
  | .functionInvoked => "TYPE_FUNCTION_INVOKED"
  | .memoHit => "TYPE_FUNCTION_MEMO_HIT"
  | .resolutionFailed => "RESOLUTION_FAILED"

/-- The severity at which an event is logged. -/
def severity : Event → Severity
  | .cacheHit | .functionInvoked | .memoHit => .trace
  | .bindingRejected | .resolutionFailed => .error
  | _ => .info

end Event

end NamedTypes.Log
