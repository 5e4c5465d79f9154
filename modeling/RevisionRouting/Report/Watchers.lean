import RevisionRouting.Report.Basic

/-!
# Watchers

Watchers are told reports one after the other, as they come. A log writes the line of
each record from its least severity on (`Log`). The memory keeps what was observed of
revisions (`remember`). `Watchers` are the two together.

The record of a revision before it is looked at holds all its documents, so a log that
would drop the record does not make it in the first place.
-/

namespace RevisionRouting

/-- A log with all that has been written to it. -/
structure Log where
  /-- The least severity that is logged. -/
  least : Severity
  text : String := ""

namespace Log

/-- Whether records of a severity are kept. -/
def keeps (l : Log) (s : Severity) : Bool := l.least ≤ s

/-- Writes the line of a record, if the record is kept. -/
def write (l : Log) (r : LogRecord) : Log :=
  if l.keeps r.severity then { l with text := l.text ++ r.line } else l

/-- Takes note of a report. -/
def tell (l : Log) : Report → Log
  | .observed (.received id r) =>
    if l.keeps .trace then l.write (Report.receivedRecord id r) else l
  | .observed (.routed id d) => l.write (Report.routedRecord id d)
  | .rejected reason => l.write (Report.record (.rejected reason))

end Log

/-- Takes note of a report in memory. -/
def remember (memory : List Observation) : Report → List Observation
  | .observed o => memory ++ [o]
  | .rejected _ => memory

/-- A log and a memory that are told the same. -/
structure Watchers where
  log : Log
  memory : List Observation := []

/-- Tells both watchers a report. -/
def Watchers.tell (w : Watchers) (report : Report) : Watchers where
  log := w.log.tell report
  memory := remember w.memory report

end RevisionRouting
