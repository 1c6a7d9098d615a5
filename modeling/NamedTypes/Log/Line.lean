import NamedTypes.Json.Quoted
import NamedTypes.Log.Event
import NamedTypes.Table

/-! # Log lines
An event is logged as one line that holds one JSON object: the event first, the severity second,
then the fields by ascending key. Keys and values are escaped (`Json.quoted`), which keeps every
value inside its string and the whole event on its line. Errors go to one stream and everything else
to the other. -/

namespace NamedTypes.Log

/-! ## Lines -/

/-- A key and its value as a member of an object. -/
def renderField (field : String × String) : List Char :=
  Json.quoted field.1 ++ ':' :: Json.quoted field.2

/-- The line of an event, with its line break. Fields of one key keep their order. -/
def render (severity : Severity) (event : String) (fields : Entries String) : String :=
  let members := ("event", event) :: ("severity", severity.name) :: fields.sort
  String.ofList
    ('\x7b' :: (List.intercalate [','] (members.map renderField) ++ ['\x7d', '\n']))

/-! ## Writing -/

/-- Where lines are written. -/
inductive Stream
  | standardOutput
  | standardError
deriving DecidableEq, Repr

/-- The stream for events of a severity. -/
def Severity.stream (s : Severity) : Stream :=
  if Severity.error ≤ s then .standardError else .standardOutput

/-- A line together with the stream it is written to. -/
structure Written where
  /-- The stream. -/
  stream : Stream
  /-- The line, with its line break. -/
  line : String
deriving DecidableEq, Repr

/-- What is written for an event text of a severity. -/
def write (severity : Severity) (event : String) (fields : Entries String) : Written :=
  ⟨severity.stream, render severity event fields⟩

/-- What is written for an event under a threshold: nothing if its severity does not reach the
threshold. -/
def writeEvent? (threshold : Severity) (event : Event) (fields : Entries String) :
    Option Written :=
  if threshold ≤ event.severity then some (write event.severity event.name fields) else none

end NamedTypes.Log
