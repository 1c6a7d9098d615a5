/-! # Severities
How grave an event is. Severities are ordered from `trace` to `fatal`; a threshold lets an event
pass whose severity is at least the threshold. -/

namespace NamedTypes.Log

/-- How grave an event is. -/
inductive Severity
  /-- Details of single accesses. -/
  | trace
  /-- Declarations and first resolutions. -/
  | info
  /-- Trouble that was dealt with. -/
  | warn
  /-- An operation failed. -/
  | error
  /-- Nothing can go on. -/
  | fatal
deriving DecidableEq, Repr

namespace Severity

/-- All severities in ascending order. -/
def all : List Severity := [.trace, .info, .warn, .error, .fatal]

/-- The place of a severity in the order. -/
def rank : Severity → Nat
  | .trace => 0
  | .info => 1
  | .warn => 2
  | .error => 3
  | .fatal => 4

/-- The name of a severity. -/
def name : Severity → String
  | .trace => "TRACE"
  | .info => "INFO"
  | .warn => "WARN"
  | .error => "ERROR"
  | .fatal => "FATAL"

/-- The severity of a name, written exactly so. -/
def ofName? (name : String) : Option Severity := all.find? fun s => s.name == name

instance : LE Severity := ⟨fun s t => s.rank ≤ t.rank⟩

instance (s t : Severity) : Decidable (s ≤ t) := inferInstanceAs (Decidable (s.rank ≤ t.rank))

theorem le_def {s t : Severity} : s ≤ t ↔ s.rank ≤ t.rank := Iff.rfl

end Severity

end NamedTypes.Log
