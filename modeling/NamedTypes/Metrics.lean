/-! # Counters
What a namespace counts. Counters only ever rise, one step at a time. -/

namespace NamedTypes

/-- The counters of a namespace. -/
inductive Counter
  /-- Names declared ahead of their definition. -/
  | forwardDeclarations
  /-- Definitions bound. -/
  | bindings
  /-- Times a plain alias was compiled. -/
  | normalizations
  /-- Times a plain alias answered with the type it keeps. -/
  | cacheHits
  /-- Times the body of a type function was entered. -/
  | functionInvocations
  /-- Times a type function answered with a result it remembers. -/
  | memoHits
  /-- Failures reported. -/
  | errors
deriving DecidableEq, Repr

namespace Counter

/-- The counters in the order in which they are listed. -/
def all : List Counter :=
  [.forwardDeclarations, .bindings, .normalizations, .cacheHits, .functionInvocations, .memoHits,
    .errors]

/-- The name of a counter. -/
def name : Counter → String
  | .forwardDeclarations => "forward_declarations"
  | .bindings => "bindings"
  | .normalizations => "normalizations"
  | .cacheHits => "cache_hits"
  | .functionInvocations => "function_invocations"
  | .memoHits => "memo_hits"
  | .errors => "errors"

/-- The counter of a name. -/
def ofName? (name : String) : Option Counter := all.find? fun c => c.name == name

end Counter

/-- A reading of all counters. -/
structure Metrics where
  forwardDeclarations : Nat := 0
  bindings : Nat := 0
  normalizations : Nat := 0
  cacheHits : Nat := 0
  functionInvocations : Nat := 0
  memoHits : Nat := 0
  errors : Nat := 0
deriving DecidableEq, Repr

namespace Metrics

/-- The value of one counter. -/
def get (m : Metrics) : Counter → Nat
  | .forwardDeclarations => m.forwardDeclarations
  | .bindings => m.bindings
  | .normalizations => m.normalizations
  | .cacheHits => m.cacheHits
  | .functionInvocations => m.functionInvocations
  | .memoHits => m.memoHits
  | .errors => m.errors

/-- Raises one counter by one. -/
def increment (m : Metrics) : Counter → Metrics
  | .forwardDeclarations => { m with forwardDeclarations := m.forwardDeclarations + 1 }
  | .bindings => { m with bindings := m.bindings + 1 }
  | .normalizations => { m with normalizations := m.normalizations + 1 }
  | .cacheHits => { m with cacheHits := m.cacheHits + 1 }
  | .functionInvocations => { m with functionInvocations := m.functionInvocations + 1 }
  | .memoHits => { m with memoHits := m.memoHits + 1 }
  | .errors => { m with errors := m.errors + 1 }

/-- Raising a counter raises that counter by one and no other. -/
theorem get_increment (m : Metrics) (c d : Counter) :
    (m.increment c).get d = m.get d + if c = d then 1 else 0 := by
  cases c <;> cases d <;> rfl

/-- The values of all counters in order. -/
def values (m : Metrics) : List Nat := Counter.all.map m.get

/-- All counters as one JSON object. -/
def json (m : Metrics) : String :=
  let member (c : Counter) : String := "\"" ++ c.name ++ "\":" ++ toString (m.get c)
  "\x7b" ++ ",".intercalate (Counter.all.map member) ++ "\x7d"

end Metrics

end NamedTypes
