import NamedTypes.AliasError
import NamedTypes.Expr.Basic

/-! # Invocations
How type functions may be called: bare, or applied to one list of parameters, which is one argument
that is a sequence. Every other argument list is refused. -/

namespace NamedTypes

/-- A call of a type function. -/
inductive Invocation (F : Type) : Type
  /-- Without arguments. -/
  | bare
  /-- With a list of parameters. -/
  | applied (parameters : List (Expr F))

namespace Invocation

variable {F : Type}

/-- The call that a raw argument list describes. -/
def ofArguments : List (Expr F) → Except AliasError (Invocation F)
  | [] => .ok .bare
  | [.sequence parameters] => .ok (.applied parameters)
  | [other] => .error (.notAParameterList other.shape)
  | arguments => .error (.bareArguments arguments.length)

/-- The parameters of a call. -/
def parameters : Invocation F → List (Expr F)
  | .bare => []
  | .applied parameters => parameters

/-- Whether every parameter is an existing type, so that a call with the same parameters is given
the same instances. -/
def isStable (i : Invocation F) : Bool := i.parameters.all Expr.isLeaf

/-- The name of the kind of a call. -/
def kind : Invocation F → String
  | .bare => "Bare"
  | .applied _ => "Applied"

end Invocation

end NamedTypes
