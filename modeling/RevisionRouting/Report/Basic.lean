import RevisionRouting.Decision.Basic
import RevisionRouting.Report.Severity
import RevisionRouting.Revision

/-!
# Reports

Routing reports what it does to whoever watches: every revision before it is
looked at and its decision afterwards, both under one mark (`Invocation`), and
every input that is rejected. Every routing of a revision has a mark of its own; it is
made of random bytes and written in the usual groups of hexadecimal digits.

Two watchers are at hand. The log turns each report into a record
(`Report.record`); the memory keeps what was observed of revisions and ignores
rejections (`observations`). Reports never change a decision.

A log record says what happened (`Event`), how much it matters, and with what
details. It is written as one line of JSON with its members in order of their
names (`LogRecord.line`). Event and severity always stand under their own names;
a detail under one of these names is lost.
-/

namespace RevisionRouting

/-! ### Marks -/

/-- The mark that ties the two observations of one revision together. -/
structure Invocation where
  label : String
  deriving DecidableEq, Repr

namespace Invocation

/-- The numbers of bytes in the groups of a mark. -/
def groups : List Nat := [4, 2, 2, 2, 6]

/-- Random bytes with the bits set that say that they are random. -/
def stamped (bytes : List UInt8) : List UInt8 :=
  (bytes.modify 6 fun b => b &&& 0x0F ||| 0x40).modify 8 fun b => b &&& 0x3F ||| 0x80

/-- A byte as two hexadecimal digits. -/
def hex (b : UInt8) : List Char := [Nat.digitChar (b.toNat / 16), Nat.digitChar (b.toNat % 16)]

/-- The bytes cut into groups of the given sizes. -/
def cut : List Nat → List UInt8 → List (List UInt8)
  | [], _ => []
  | n :: ns, bytes => bytes.take n :: cut ns (bytes.drop n)

/-- The mark made of sixteen random bytes. -/
def ofRandom (bytes : List UInt8) : Invocation :=
  ⟨String.intercalate "-" ((cut groups (stamped bytes)).map fun g => String.ofList (g.flatMap hex))⟩

end Invocation

/-! ### Log records -/

/-- What a log record is about. -/
inductive Event where
  | revisionReceived
  | revisionRouted
  | resurrectionDetected
  | policyLoaded
  | inputRejected
  | streamComplete
  deriving DecidableEq, Repr

/-- The name of an event in log records. -/
def Event.name : Event → String
  | revisionReceived => "REVISION_RECEIVED"
  | revisionRouted => "REVISION_ROUTED"
  | resurrectionDetected => "RESURRECTION_DETECTED"
  | policyLoaded => "POLICY_LOADED"
  | inputRejected => "INPUT_REJECTED"
  | streamComplete => "STREAM_COMPLETE"

/-- An entry of the log. -/
structure LogRecord where
  severity : Severity
  event : Event
  /-- The details, by name; of two with one name the later counts. -/
  fields : List (String × Json.Value)

namespace LogRecord

/-- The JSON object that a record is written as. -/
def members (r : LogRecord) : Json.Members :=
  .ofList (r.fields ++ [("event", .string r.event.name), ("severity", .string r.severity.name)])

/-- The line that a record is written as, with its line end. -/
def line (r : LogRecord) : String := r.members.text ++ "\n"

end LogRecord

/-- The records of a log that keeps those from a least severity on. -/
def keptFrom (least : Severity) (records : List LogRecord) : List LogRecord :=
  records.filter fun r => least ≤ r.severity

/-! ### Reports -/

/-- What is observed of the routing of a revision. -/
inductive Observation where
  | received (id : Invocation) (revision : Revision)
  | routed (id : Invocation) (decision : Decision)

namespace Observation

/-- The mark of an observation. -/
def id : Observation → Invocation
  | received id _ => id
  | routed id _ => id

/-- The decision that was observed. -/
def decision? : Observation → Option Decision
  | received _ _ => none
  | routed _ d => some d

end Observation

/-- What is reported to watchers. -/
inductive Report where
  | observed (o : Observation)
  | rejected (reason : String)

namespace Report

/-- What is observed of a revision, if the report is about one. -/
def observation? : Report → Option Observation
  | observed o => some o
  | rejected _ => none

/-- A value that may be absent. -/
def orNull (v : Option Json.Value) : Json.Value := v.getD .null

/-- The record of a revision before it is looked at. -/
def receivedRecord (id : Invocation) (r : Revision) : LogRecord :=
  ⟨.trace, .revisionReceived, [
    ("invocation", .string id.label),
    ("doc", r.document.toValue),
    ("old_doc", orNull (r.prior.map Document.toValue)),
    ("meta", r.metadata.toValue)]⟩

/-- What a decision is logged as: a resurrection is a warning. -/
def routedEvent : RoutingPath → Severity × Event
  | .softDelete => (.warn, .resurrectionDetected)
  | .normal => (.info, .revisionRouted)

/-- The record of a decision. -/
def routedRecord (id : Invocation) (d : Decision) : LogRecord :=
  ⟨(routedEvent d.path).1, (routedEvent d.path).2, [
    ("invocation", .string id.label),
    ("path", .string d.path.name),
    ("channels", .string d.channels.text),
    ("expiry", orNull (d.expiry.map fun e => .string e.text)),
    ("short_circuited", .bool d.shortCircuited)]⟩

/-- The record of a report. -/
def record : Report → LogRecord
  | observed (.received id r) => receivedRecord id r
  | observed (.routed id d) => routedRecord id d
  | rejected reason => ⟨.warn, .inputRejected, [("reason", .string reason)]⟩

end Report

/-- What the memory keeps of some reports. -/
def observations (reports : List Report) : List Observation :=
  reports.filterMap Report.observation?

/-- The decisions among some observations. -/
def decisions (os : List Observation) : List Decision := os.filterMap Observation.decision?

/-- The log of some reports from a least severity on. -/
def logOf (least : Severity) (reports : List Report) : List LogRecord :=
  keptFrom least (reports.map Report.record)

end RevisionRouting
