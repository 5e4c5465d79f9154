import RevisionRouting.Proofs.Json.Members
import RevisionRouting.Proofs.Json.OneLine
import RevisionRouting.Report.Watchers

/-!
# What watchers know

A watcher that is told some reports knows what they say and nothing else. The text of a
log is that of the records it keeps (`Log.foldl_tell`), as not making a record is no different
from dropping it (`Log.tell_eq_write`); the memory holds the observations
(`foldl_remember`).

Records are told apart in the text of a log: each is one line (`LogRecord.line_spec`), and
the line says how severe it is.
-/

namespace RevisionRouting

/-- The text of a log with the given records. -/
def logText (records : List LogRecord) : String := String.join (records.map LogRecord.line)

theorem logText_cons (r : LogRecord) (records : List LogRecord) :
    logText (r :: records) = r.line ++ logText records := by
  rw [logText, List.map_cons, String.join_cons, logText]

theorem logOf_cons (least : Severity) (report : Report) (reports : List Report) :
    logOf least (report :: reports) =
      if least ≤ report.record.severity then report.record :: logOf least reports
      else logOf least reports := by
  simp only [logOf, keptFrom, List.map_cons, List.filter_cons, decide_eq_true_eq]

/-- Every record is kept by a log of traces. -/
theorem logOf_trace (reports : List Report) : logOf .trace reports = reports.map Report.record :=
  List.filter_eq_self.2 fun r _ => decide_eq_true (Nat.zero_le r.severity.rank)

/-- Event and severity are the last of the members, so no details of their names count. -/
theorem LogRecord.get?_members (r : LogRecord) (name : String) : r.members.get? name =
    if name = "severity" then some (.string r.severity.name)
    else if name = "event" then some (.string r.event.name)
    else r.fields.reverse.lookup name := by
  rw [members, List.append_cons, Json.Members.get?_ofList_append, Json.Members.get?_ofList_append,
    Json.Members.get?_ofList]

/-- A record is written as one line, in which its severity stands. -/
theorem LogRecord.line_spec (r : LogRecord) : ∃ text : String, r.line = text ++ "\n" ∧
    '\n' ∉ text.toList ∧ r.members.get? "severity" = some (.string r.severity.name) := by
  refine ⟨r.members.text, rfl, ?_, ?_⟩
  · -- compact texts have no line end in them
    rw [Json.Members.text, Json.Value.text, String.toList_ofList]
    exact Json.Value.lineEnd_not_mem_chars _
  · rw [get?_members, if_pos rfl]

namespace Log

variable (l : Log)

theorem write_of_keeps {r : LogRecord} (h : l.least ≤ r.severity) :
    l.write r = { l with text := l.text ++ r.line } := if_pos (decide_eq_true h)

theorem write_of_not_keeps {r : LogRecord} (h : ¬ l.least ≤ r.severity) : l.write r = l :=
  if_neg fun hkeeps => h (of_decide_eq_true hkeeps)

/-- **A record that is not made would have been dropped**, so every report is logged as its
record. -/
theorem tell_eq_write (report : Report) : l.tell report = l.write report.record := by
  -- a rejection and a decision make their records in any case
  cases report with
  | rejected reason => rfl
  | observed o =>
    cases o with
    | routed id d => rfl
    | received id r =>
      -- the record is a trace, and without traces it is dropped
      by_cases h : l.least ≤ .trace
      · exact if_pos (decide_eq_true h)
      · have hwrite : l.write (Report.receivedRecord id r) = l := l.write_of_not_keeps h
        exact (if_neg fun hkeeps => h (of_decide_eq_true hkeeps)).trans hwrite.symm

/-- **The text of a log** is that of the records of the reports from its least severity on. -/
theorem foldl_tell (reports : List Report) : reports.foldl tell l =
    { l with text := l.text ++ logText (logOf l.least reports) } := by
  -- the log is generalized, as every kept record changes its text
  induction reports generalizing l with
  | nil => exact congrArg (Log.mk l.least) (String.append_empty).symm
  | cons report reports ih =>
    rw [List.foldl_cons, tell_eq_write, logOf_cons]
    by_cases h : l.least ≤ report.record.severity
    · -- a kept record is written before those of the reports that follow
      rw [l.write_of_keeps h, ih, if_pos h, logText_cons, String.append_assoc]
    · rw [l.write_of_not_keeps h, ih, if_neg h]

end Log

/-- **The memory holds what was observed**, in order. -/
theorem foldl_remember (memory : List Observation) (reports : List Report) :
    reports.foldl remember memory = memory ++ observations reports := by
  induction reports generalizing memory with
  | nil => exact (List.append_nil memory).symm
  | cons report reports ih =>
    rw [List.foldl_cons, ih]
    -- the memory takes observations alone
    cases report with
    | observed o => exact List.append_assoc memory [o] _
    | rejected reason => rfl

/-- Two watchers that are told together know what each would know alone. -/
theorem Watchers.foldl_tell (w : Watchers) (reports : List Report) :
    reports.foldl tell w =
      ⟨reports.foldl Log.tell w.log, reports.foldl remember w.memory⟩ := by
  induction reports generalizing w with
  | nil => rfl
  | cons report reports ih => exact ih (w.tell report)

end RevisionRouting
