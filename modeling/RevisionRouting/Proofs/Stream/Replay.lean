import RevisionRouting.Proofs.Report.Record
import RevisionRouting.Proofs.Report.Watchers
import RevisionRouting.Proofs.Revision.RoundTrip
import RevisionRouting.Proofs.Stream.Accounts
import RevisionRouting.Proofs.Stream.Failures

/-!
# The trace log can be replayed

A log that keeps traces holds a record of every accepted line with the parts of its revision. Put
together again these are a line that stands for the same revision, and is answered alike
(`run_of_received`).

The records of the lines stand in the log in the order of the lines, so the record of a line is
known by the number of lines accepted before it (`receivedRecords_run`). Two facts lead there. A
stream comes to a line as it does without failures (`run_eq_followedBy`), and on each accepted line
one revision is reported as received (`length_receivedRecords_runLines`).
-/

namespace RevisionRouting

/-! ### The records of revisions -/

/-- The records of revisions before they are looked at, in a log that keeps traces. -/
def receivedRecords (reports : List Report) : List LogRecord :=
  (logOf .trace reports).filter fun r => r.event = .revisionReceived

theorem receivedRecords_append (reports more : List Report) :
    receivedRecords (reports ++ more) = receivedRecords reports ++ receivedRecords more := by
  simp only [receivedRecords, logOf_trace, List.map_append, List.filter_append]

theorem receivedRecords_revise (p : Policy) (now : Time.Instant) (id : Invocation)
    (r : Revision) : receivedRecords (p.revise now id r).2 = [Report.receivedRecord id r] := by
  -- the other record of a revision is that of its decision
  have hrouted (path : RoutingPath) : (Report.routedEvent path).2 ≠ .revisionReceived := by
    cases path <;> decide
  simp [receivedRecords, logOf_trace, Policy.revise, Report.record, Report.receivedRecord,
    Report.routedRecord, hrouted]

theorem receivedRecords_rejected (reason : String) : receivedRecords [.rejected reason] = [] := rfl

namespace Stream

variable (p : Policy) (now : Time.Instant) (ids : Nat → Invocation)

/-- Whether there is a revision in a line. -/
def isAccepted (line : List UInt8) : Bool := (revisionOf line).isOk

theorem length_receivedRecords_answer (id : Invocation) (t : Tally) (line : List UInt8) :
    (receivedRecords (answer p now id t line).reports).length =
      if isAccepted line then 1 else 0 := by
  unfold isAccepted
  cases hr : revisionOf line with
  | ok r =>
    -- the record of what was received is the one that counts
    rw [answer_of_revision p now hr, receivedRecords_revise]
    rfl
  | error f =>
    -- a rejection has a record of another kind
    rw [answer_of_failure p now hr, receivedRecords_rejected]
    rfl

/-- One revision is reported as received on each accepted line. -/
theorem length_receivedRecords_runLines (t : Tally) (lines : List (List UInt8)) :
    (receivedRecords (runLines p now ids none none t lines).reports).length =
      lines.countP isAccepted := by
  -- line by line, the counts before being arbitrary
  induction lines generalizing t with
  | nil => rfl
  | cons line lines ih =>
    rw [runLines_cons, Option.filter_none, List.countP_cons]
    dsimp only
    rw [receivedRecords_append, List.length_append, ih, length_receivedRecords_answer]
    omega

/-! ### The records of lines -/

variable {source : Source} {breakage : Option Breakage} {before after : List (List UInt8)}
  {line : List UInt8}

/-- A stream comes to a line as it does without failures, if the writer bears the lines before. -/
theorem run_eq_followedBy (hlines : source.lines = before ++ line :: after)
    (hreached : ∀ b ∈ breakage, before.length ≤ b.after) :
    ∃ t : Tally, t.lines = before.length ∧ run p now ids source breakage =
      (complete p now ids before).followedBy
        (runLines p now ids breakage source.failure t (line :: after)) := by
  obtain ⟨t, ht⟩ := exists_result_complete p now ids before
  have hcount : t.lines = before.length := (lines_of_result p now ids ht).trans (Nat.zero_add _)
  -- the writer bears the responses to the lines before, so it might as well not fail
  have hbears : runLines p now ids breakage none {} before = complete p now ids before := by
    cases breakage with
    | none => rfl
    | some b =>
      exact runLines_of_le p now ids b none ((Nat.zero_add _).le.trans (hreached b rfl))
  refine ⟨t, hcount, ?_⟩
  rw [run_eq_runLines, hlines, runLines_append p now ids (hbears ▸ ht), hbears]

/-- A line is reported first of all that is left, whether it can be answered or not. -/
theorem exists_reports_runLines (breakage : Option Breakage) (failure : Option String) (t : Tally)
    (line : List UInt8) (after : List (List UInt8)) :
    ∃ more, (runLines p now ids breakage failure t (line :: after)).reports =
      (answer p now (ids t.routed) t line).reports ++ more := by
  rw [runLines_cons]
  -- whether or not the writer fails here, the reports of the line come first
  cases breakage.filter fun b => b.after ≤ t.lines with
  | none => exact ⟨_, rfl⟩
  | some b => exact ⟨[], (List.append_nil _).symm⟩

/-- A line is answered first of all that is left, if the writer bears it. -/
theorem exists_output_runLines {breakage : Option Breakage} {t : Tally}
    (hbears : ∀ b ∈ breakage, t.lines < b.after) (failure : Option String) (line : List UInt8)
    (after : List (List UInt8)) :
    ∃ more, (runLines p now ids breakage failure t (line :: after)).output =
      (responseTo p now line).line ++ more := by
  have hfilter : breakage.filter (fun b => b.after ≤ t.lines) = none :=
    Option.filter_eq_none_iff.2 fun b hb => by simpa using hbears b hb
  rw [runLines_cons, hfilter, ← answer_response p now (ids t.routed) t]
  exact ⟨_, rfl⟩

/-- **The record of a line** is found in the log by the number of lines accepted before it. -/
theorem receivedRecords_run {r : Revision} (hlines : source.lines = before ++ line :: after)
    (hreached : ∀ b ∈ breakage, before.length ≤ b.after) (hr : revisionOf line = .ok r) :
    ∃ id, (receivedRecords (run p now ids source breakage).reports)[before.countP isAccepted]? =
      some (Report.receivedRecord id r) := by
  obtain ⟨t, -, hrun⟩ := run_eq_followedBy p now ids hlines hreached
  obtain ⟨more, hmore⟩ := exists_reports_runLines p now ids breakage source.failure t line after
  -- as many records stand before that of the line as lines were accepted before it
  have hcount : (receivedRecords (complete p now ids before).reports).length =
      before.countP isAccepted := length_receivedRecords_runLines p now ids {} before
  refine ⟨ids t.routed, ?_⟩
  -- behind the records of the lines before stands that of the line
  rw [hrun, Outcome.followedBy, hmore, answer_of_revision p now hr, receivedRecords_append,
    receivedRecords_append, receivedRecords_revise, ← hcount]
  simp

/-! ### Replaying -/

/-- The line of a value is a line by itself. -/
theorem filledLines_object (ms : Json.Members) {ending : List UInt8} (hending : ending ∈ lineEnds) :
    filledLines (bytesOf ms.text ++ ending) = [bytesOf ms.text] := by
  -- the last byte is that of a bracket, which is no blank
  have hlast : ∃ bytes, bytesOf ms.text = bytes ++ [0x7D] := by
    refine ⟨Text.Utf8.encode ('\x7b' :: List.intercalate [','] (Json.memberTexts ms)), ?_⟩
    rw [bytesOf, Json.Members.toList_text, ← List.cons_append, Text.Utf8.encode_append]
    rfl
  -- the bracket at the end is no carriage return, and it is no blank
  refine filledLines_append_lineEnd (lineFeed_not_mem_bytesOf (.object ms)) ?_ ?_ hending
  · obtain ⟨bytes, hbytes⟩ := hlast
    rw [hbytes, List.getLast?_concat]
    decide
  · obtain ⟨bytes, hbytes⟩ := hlast
    rw [hbytes, isBlankLine, List.all_append]
    exact Bool.and_false _

/-- The bytes of a text with a revision are a line with it. -/
theorem revisionOf_bytesOf {text : String} {r : Revision} (h : Revision.parse text = .ok r) :
    revisionOf (bytesOf text) = .ok r := by
  rw [bytesOf, revisionOf_of_decode (Text.Utf8.decode_encode _), String.ofList_toList, h]
  rfl

theorem wellFormed_of_revisionOf {r : Revision} (h : revisionOf line = .ok r) : r.WellFormed := by
  obtain ⟨cs, -, hparse⟩ := Json.bind_eq_ok_iff.1 h
  exact Revision.wellFormed_of_parse (Json.mapError_eq_ok_iff.1 hparse)

/-- The record of a revision that was read is read back. -/
theorem parse_text_receivedRecord {r : Revision} (h : r.WellFormed) (hfloat : r.FloatFree)
    (id : Invocation) : Json.Value.parse (Report.receivedRecord id r).text =
      .ok (.object (Report.receivedRecord id r).members) := by
  -- the details are the mark, the three parts and nothing else
  refine LogRecord.parse_text ?_ ?_
  · simp only [Report.receivedRecord, List.forall_mem_cons]
    exact ⟨.string, h.document, h.prior, h.metadata, fun m hm => absurd hm List.not_mem_nil⟩
  · simp only [Report.receivedRecord, List.forall_mem_cons]
    exact ⟨.string, hfloat.document, hfloat.prior, hfloat.metadata,
      fun m hm => absurd hm List.not_mem_nil⟩

/-- **The trace log can be replayed.** Take an accepted line of a stream, with no float in its
revision, up to which the writer did not fail. Its record in a log that keeps traces is the one with
as many before it, of those about received revisions, as there were lines accepted before. It is a
line with an object. The texts of the object's parts put together stand for the same revision; and
as a stream they are answered by what the line was answered by, which stands in the output after
the responses to the lines before, if the writer did not fail at it. -/
theorem run_of_received {r : Revision} (hlines : source.lines = before ++ line :: after)
    (hreached : ∀ b ∈ breakage, before.length ≤ b.after) (hr : revisionOf line = .ok r)
    (hfloat : r.FloatFree) :
    let o := run p now ids source breakage
    ∃ (record : LogRecord) (text : String) (ms : Json.Members) (d old m : Json.Value),
      ((logOf .trace o.reports).filter fun x => x.event = .revisionReceived)[
        before.countP isAccepted]? = some record ∧
      record.line = text ++ "\n" ∧ Json.Value.parse text = .ok (.object ms) ∧
      ms.get? "doc" = some d ∧ ms.get? "old_doc" = some old ∧ ms.get? "meta" = some m ∧
      let replayed := "\x7b\"doc\":" ++ d.text ++ ",\"oldDoc\":" ++ old.text ++
        ",\"meta\":" ++ m.text ++ "\x7d"
      Revision.parse replayed = .ok r ∧
      ∀ (ids' : Nat → Invocation), ∀ ending ∈ lineEnds,
        let again := run p now ids' ⟨bytesOf replayed ++ ending, none⟩ none
        (∃ tally, again.result = .ok tally) ∧ again.output = (responseTo p now line).line ∧
        ((∀ b ∈ breakage, before.length < b.after) → ∃ rest,
          o.output = (complete p now ids before).output ++ again.output ++ rest) := by
  intro o
  -- a revision that was read is well formed, hence its record can be read back
  have hwell := wellFormed_of_revisionOf hr
  obtain ⟨id, hrecord⟩ := receivedRecords_run p now ids hlines hreached hr
  obtain ⟨hdoc, hold, hmeta⟩ := Report.get?_receivedRecord id r
  refine ⟨_, _, _, _, _, _, hrecord, LogRecord.line_eq _, parse_text_receivedRecord hwell hfloat id,
    hdoc, hold, hmeta, ?_⟩
  intro replayed
  -- the texts of the parts put together are the text of the revision
  have hreplayed : replayed = r.members.text := (Revision.text_members r).symm
  have hparse : Revision.parse replayed = .ok r := by
    rw [hreplayed]
    exact Revision.parse_text hwell hfloat
  refine ⟨hparse, fun ids' ending hending => ?_⟩
  -- with any line end behind it, that text is a stream of one line
  have hfilled : filledLines (bytesOf replayed ++ ending) = [bytesOf replayed] := by
    rw [hreplayed]
    exact filledLines_object r.members hending
  obtain ⟨hresult, houtput⟩ := run_of_filledLines p now ids' hfilled
  -- both lines are answered by the decision on the one revision
  rw [responseTo_of_revision p now (revisionOf_bytesOf hparse),
    ← responseTo_of_revision p now hr] at houtput
  refine ⟨hresult, houtput, fun hbears => ?_⟩
  -- in the output the response stands behind those to the lines before
  obtain ⟨t, hcount, hrun⟩ := run_eq_followedBy p now ids hlines hreached
  obtain ⟨rest, hrest⟩ :=
    exists_output_runLines p now ids (hcount ▸ hbears) source.failure line after
  refine ⟨rest, ?_⟩
  rw [houtput, String.append_assoc, ← hrest]
  exact congrArg Outcome.output hrun

theorem minusOne_fits : -0x8000000000000000 ≤ (-1 : Int) ∧ (-1 : Int) < 0x10000000000000000 := by
  decide

/-- A document with a control character in it. -/
def belled : Document := ⟨[("a", .array [.number (.integer (-1) minusOne_fits), .string "\x07"])]⟩

/-- A revision of it as an array, which ends before the metadata. -/
def belledValue : Json.Value := .array [belled.toValue, .null]

/-- A stream that holds this revision after a line that is rejected. -/
def belledSource : Source where
  bytes := bytesOf "no revision\n" ++ bytesOf belledValue.text ++ [carriageReturn, lineFeed]

theorem wellFormed_belled : belled.toValue.WellFormed (Json.nestingLimit - 1) := by
  refine .object (List.pairwise_singleton _ _) (List.forall_mem_singleton.2 (.array ?_))
  exact List.forall_mem_cons.2 ⟨.number, List.forall_mem_singleton.2 .string⟩

theorem floatFree_belled : belled.toValue.FloatFree := by
  refine .object (List.forall_mem_singleton.2 (.array ?_))
  exact List.forall_mem_cons.2 ⟨.integer, List.forall_mem_singleton.2 .string⟩

theorem revisionOf_belledValue :
    revisionOf (bytesOf belledValue.text) = .ok ⟨belled, none, .empty⟩ := by
  have hwell : belledValue.WellFormed Json.nestingLimit :=
    .array (List.forall_mem_cons.2 ⟨wellFormed_belled, List.forall_mem_singleton.2 .null⟩)
  have hfloat : belledValue.FloatFree :=
    .array (List.forall_mem_cons.2 ⟨floatFree_belled, List.forall_mem_singleton.2 .null⟩)
  refine revisionOf_bytesOf (Revision.parse_eq_ok_iff.2 ⟨belledValue, ?_, ?_, ?_⟩)
  · exact Json.Value.parse_text hwell hfloat
  · exact ⟨by decide, by decide⟩
  · exact ⟨rfl, .inl ⟨rfl, .inr rfl⟩, .inl ⟨rfl, rfl⟩⟩

theorem lines_belledSource :
    belledSource.lines = [bytesOf "no revision"] ++ bytesOf belledValue.text :: [] := by
  decide

/-- The time at which it is routed. -/
def midday : Time.Instant := ⟨1710072000, 0, Time.Instant.zero_nanos_lt⟩

/-- The record of the revision is the first of its kind, as the line before it is rejected; and the
revision is put together from it, though it was written as an array. -/
theorem run_of_received_belled :
    let o := run .testing midday (fun n => ⟨toString n⟩) belledSource none
    belledSource.lines = [bytesOf "no revision"] ++ bytesOf belledValue.text :: [] ∧
    revisionOf (bytesOf belledValue.text) = .ok ⟨belled, none, .empty⟩ ∧
    ∃ (record : LogRecord) (text : String) (ms : Json.Members) (d old m : Json.Value),
      ((logOf .trace o.reports).filter fun x => x.event = .revisionReceived)[0]? = some record ∧
      record.line = text ++ "\n" ∧ Json.Value.parse text = .ok (.object ms) ∧
      ms.get? "doc" = some d ∧ ms.get? "old_doc" = some old ∧ ms.get? "meta" = some m ∧
      let replayed := "\x7b\"doc\":" ++ d.text ++ ",\"oldDoc\":" ++ old.text ++
        ",\"meta\":" ++ m.text ++ "\x7d"
      Revision.parse replayed = .ok ⟨belled, none, .empty⟩ ∧
      let again :=
        run .testing midday (fun _ => ⟨"again"⟩) ⟨bytesOf replayed ++ [lineFeed], none⟩ none
      (∃ tally, again.result = .ok tally) ∧
      again.output = (responseTo .testing midday (bytesOf belledValue.text)).line ∧
      ∃ rest, o.output =
        (complete .testing midday (fun n => ⟨toString n⟩) [bytesOf "no revision"]).output ++
          again.output ++ rest := by
  intro o
  have hreached : ∀ b ∈ (none : Option Breakage), [bytesOf "no revision"].length ≤ b.after :=
    fun b hb => absurd hb (Option.not_mem_none b)
  have hfloat : Revision.FloatFree ⟨belled, none, .empty⟩ :=
    ⟨floatFree_belled, .null, .object fun m hm => absurd hm List.not_mem_nil⟩
  have hnone : [bytesOf "no revision"].countP isAccepted = 0 := by decide
  obtain ⟨record, text, ms, d, old, m, hrecord, hline, hobject, hd, hold, hm, hparse, hagain⟩ :=
    run_of_received .testing midday (fun n => ⟨toString n⟩) lines_belledSource hreached
      revisionOf_belledValue hfloat
  rw [hnone] at hrecord
  obtain ⟨hresult, houtput, hrest⟩ := hagain (fun _ => ⟨"again"⟩) [lineFeed] (by decide)
  exact ⟨lines_belledSource, revisionOf_belledValue, record, text, ms, d, old, m, hrecord, hline,
    hobject, hd, hold, hm, hparse, hresult, houtput,
    hrest fun b hb => absurd hb (Option.not_mem_none b)⟩

end Stream

end RevisionRouting
