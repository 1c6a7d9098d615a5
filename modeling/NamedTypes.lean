import NamedTypes.Accessor
import NamedTypes.AliasError
import NamedTypes.Body
import NamedTypes.Cell
import NamedTypes.Config
import NamedTypes.Config.File
import NamedTypes.Config.Reader
import NamedTypes.Decimal.Shortest
import NamedTypes.Expr.Basic
import NamedTypes.Expr.Normalize
import NamedTypes.Invocation
import NamedTypes.Json.NumberText
import NamedTypes.Json.Numeral
import NamedTypes.Json.Printer
import NamedTypes.Json.Quoted
import NamedTypes.Json.ReadError
import NamedTypes.Json.Reader
import NamedTypes.Json.Text
import NamedTypes.Json.Value
import NamedTypes.Literal
import NamedTypes.Log.Event
import NamedTypes.Log.Line
import NamedTypes.Log.Severity
import NamedTypes.Memo
import NamedTypes.Metrics
import NamedTypes.Proofs.Acceptance
import NamedTypes.Proofs.Action
import NamedTypes.Proofs.Adequacy
import NamedTypes.Proofs.AliasChanges
import NamedTypes.Proofs.Alike
import NamedTypes.Proofs.Bookkeeping
import NamedTypes.Proofs.CallProtocol
import NamedTypes.Proofs.ConfigAccepted
import NamedTypes.Proofs.ConfigText
import NamedTypes.Proofs.Counters
import NamedTypes.Proofs.DeclarationReports
import NamedTypes.Proofs.Declarations
import NamedTypes.Proofs.Deeds
import NamedTypes.Proofs.DefinitionOrder
import NamedTypes.Proofs.Demands
import NamedTypes.Proofs.Entries
import NamedTypes.Proofs.Evaluation
import NamedTypes.Proofs.Expansion
import NamedTypes.Proofs.Faults
import NamedTypes.Proofs.FieldOrder
import NamedTypes.Proofs.FirstResult
import NamedTypes.Proofs.Forcing
import NamedTypes.Proofs.Grammar
import NamedTypes.Proofs.History
import NamedTypes.Proofs.LifeCycle
import NamedTypes.Proofs.LiteralNames
import NamedTypes.Proofs.LiteralWalk
import NamedTypes.Proofs.Literals
import NamedTypes.Proofs.Lockstep
import NamedTypes.Proofs.LogLevel
import NamedTypes.Proofs.LogLines
import NamedTypes.Proofs.Matching
import NamedTypes.Proofs.Meaning
import NamedTypes.Proofs.Nesting
import NamedTypes.Proofs.OrderedValues
import NamedTypes.Proofs.Permanence
import NamedTypes.Proofs.PlainAlias
import NamedTypes.Proofs.Progress
import NamedTypes.Proofs.Provenance
import NamedTypes.Proofs.Quoting
import NamedTypes.Proofs.ReadAsWritten
import NamedTypes.Proofs.Readings
import NamedTypes.Proofs.Reentry
import NamedTypes.Proofs.Rejections
import NamedTypes.Proofs.Remembering
import NamedTypes.Proofs.Rendering
import NamedTypes.Proofs.Replay
import NamedTypes.Proofs.Reporting
import NamedTypes.Proofs.SessionProvenance
import NamedTypes.Proofs.Standing
import NamedTypes.Proofs.StrictSessions
import NamedTypes.Proofs.Strictness
import NamedTypes.Proofs.Thresholds
import NamedTypes.Proofs.Transparency
import NamedTypes.Proofs.TypesInPlace
import NamedTypes.Proofs.World
import NamedTypes.Registry.Access
import NamedTypes.Registry.Basic
import NamedTypes.Registry.Declare
import NamedTypes.Session.Basic
import NamedTypes.Session.Operations
import NamedTypes.Session.Term
import NamedTypes.Table
import NamedTypes.Text.CharSet
import NamedTypes.Text.Diagnostic
import NamedTypes.Text.Extender
import NamedTypes.Text.Quoted
import NamedTypes.Text.Unprintable
import NamedTypes.Validator
