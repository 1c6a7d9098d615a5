import NamedTypes.Accessor
import NamedTypes.Expr.Normalize

/-! # Bodies of type functions
What a type function does when it is called is a **body** (`Body`): a tree of requests, each with
one continuation for every answer. A body may make new types, use aliases through their accessors,
call type functions that it was answered, and build further ones. An access or a call that fails is
an answer like any other, so a body can recover from it or pass the error on. Bodies have no other
effects, and `Body.run` performs them with any handler of their requests.

Type functions are not handed to bodies themselves. Those that a body gets from an access or builds
are kept in the **frame** of the run, and the body refers to them by their positions there; an
expression of a body is therefore an `Expr Nat`. A **generator** (`Generator`) is a type function
outside of any run: the functions that it captured together with what it does with its arguments. -/

namespace NamedTypes

/-- What a type function does. -/
inductive Body : Type
  /-- Ends with an expression. -/
  | finish (result : Expr Nat)
  /-- Ends with an error. -/
  | fail (error : AliasError)
  /-- Makes a new type. -/
  | create (validator : Validator) (next : Ty → Body)
  /-- Invokes an alias with a raw argument list. A type function among the answers is the position
  at which it is kept from then on. -/
  | access (accessor : Accessor) (demand : Demand) (arguments : List (Expr Nat))
      (next : Except AliasError (Normalized Nat) → Body)
  /-- Calls the type function at a position with raw arguments, without any alias. -/
  | call (function : Nat) (arguments : List (Expr Nat))
      (next : Except AliasError (Normalized Nat) → Body)
  /-- Builds a type function, which is kept at the position that is answered. The captured positions
  become the first ones of its own runs, in the given order. -/
  | build (captured : List Nat) (function : List Ty → Body) (next : Nat → Body)

/-- A type function: the functions that it captured, and what it does with its arguments. -/
inductive Generator : Type
  | mk (captured : List Generator) (function : List Ty → Body)

/-- A type expression outside of any run. -/
abbrev TypeExpr : Type := Expr Generator

namespace Generator

/-- The functions that a type function captured. -/
def captured : Generator → List Generator
  | mk captured _ => captured

/-- The body that a type function runs on arguments. -/
def body : Generator → List Ty → Body
  | mk _ function => function

/-- The function that stands for a position without one; every call of it fails. -/
def absent : Generator := mk [] fun _ => .fail (.usage "no such function")

end Generator

/-! ## Frames -/

/-- The type functions that a run keeps, by position. -/
abbrev Frame : Type := List Generator

namespace Frame

/-- The function at a position. -/
def get (frame : Frame) (position : Nat) : Generator := frame.getD position .absent

/-- An expression of a run as one outside of it. -/
def close (frame : Frame) (e : Expr Nat) : TypeExpr := e.map frame.get

/-- An answer as a run gets it, and the frame from then on: a type function is kept behind the
others. -/
def receive (frame : Frame) :
    Except AliasError (Normalized Generator) → Except AliasError (Normalized Nat) × Frame
  | .error error => (.error error, frame)
  | .ok (.type type) => (.ok (.type type), frame)
  | .ok (.function function) => (.ok (.function frame.length), frame ++ [function])

/-- The frame of a run that has built a type function. -/
def build (frame : Frame) (captured : List Nat) (function : List Ty → Body) : Frame :=
  frame ++ [.mk (captured.map frame.get) function]

end Frame

/-! ## Running bodies -/

/-- How the requests of bodies that go beyond their own run are performed. -/
structure Handler (m : Type → Type) where
  /-- Makes a new type. -/
  create : Validator → m Ty
  /-- Invokes an alias. -/
  access : Accessor → Demand → List TypeExpr → m (Except AliasError (Normalized Generator))
  /-- Calls a type function. -/
  call : Generator → List TypeExpr → m (Except AliasError (Normalized Generator))

variable {m : Type → Type} [Monad m]

/-- Performs a body that runs with a frame. The resulting expression is still raw. -/
def Body.run (handler : Handler m) : Body → Frame → m (Except AliasError TypeExpr)
  | .finish result, frame => pure (.ok (frame.close result))
  | .fail error, _ => pure (.error error)
  | .create validator next, frame => do
    let type ← handler.create validator
    (next type).run handler frame
  | .access accessor demand arguments next, frame => do
    let answer ← handler.access accessor demand (arguments.map frame.close)
    (next (frame.receive answer).1).run handler (frame.receive answer).2
  | .call function arguments next, frame => do
    let answer ← handler.call (frame.get function) (arguments.map frame.close)
    (next (frame.receive answer).1).run handler (frame.receive answer).2
  | .build captured function next, frame =>
    (next frame.length).run handler (frame.build captured function)

/-- Runs a type function on arguments. The resulting expression is still raw. -/
def Generator.invoke (handler : Handler m) (function : Generator) (arguments : List Ty) :
    m (Except AliasError TypeExpr) :=
  (function.body arguments).run handler function.captured

end NamedTypes
