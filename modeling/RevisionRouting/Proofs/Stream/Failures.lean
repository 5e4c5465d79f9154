import Mathlib.Data.List.DropRight
import RevisionRouting.Proofs.Stream.Responses

/-!
# Streams that break off

A stream comes to an early end where a response cannot be written or where reading
fails. Either end is told by streams that come to their own end (`complete`), and
what these report is told line by line (`reportsOn`).

The loop can be left between two lines and taken up again with the counts reached
there (`runLines_append`). A writer that is going to fail makes no difference as
long as the responses do not exceed what it bears (`runLines_of_le`). The line after
that is routed and reported like any other; then its response breaks off, and no line
is read after it (`runLines_cons_of_le`). So the output is that of a complete stream, and
whoever watches has been told of one line more (`run_of_breakage`).

A reader that fails loses what stands after the last line end and nothing else
(`Source.lines_of_failure`): the stream answers and reports what it would without
these bytes (`run_of_failure`).
-/

namespace RevisionRouting.Stream

variable (p : Policy) (now : Time.Instant) (ids : Nat → Invocation)

/-! ### What is reported -/

/-- What is reported of some lines, `routed` revisions having been routed before them: that a
revision was received and, under the same mark, the decision on it; or why a line was rejected. -/
def reportsOn (routed : Nat) : List (List UInt8) → List Report
  | [] => []
  | line :: lines =>
    match revisionOf line with
    | .ok r =>
      .observed (.received (ids routed) r) ::
        .observed (.routed (ids routed) (p.evaluate now r)) :: reportsOn (routed + 1) lines
    | .error f => .rejected f.message :: reportsOn routed lines

/-- A stream without failures reports every line, the marks given out in order. -/
theorem reports_runLines (tally : Tally) (lines : List (List UInt8)) :
    (runLines p now ids none none tally lines).reports =
      reportsOn p now ids tally.routed lines := by
  induction lines generalizing tally with
  | nil => rfl
  | cons line lines ih =>
    rw [runLines_cons, Option.filter_none, reportsOn]
    dsimp only
    rw [ih]
    cases hr : revisionOf line with
    | ok r =>
      -- only a routed revision uses up a mark
      rw [answer_of_revision p now hr]
      rfl
    | error f =>
      rw [answer_of_failure p now hr]
      rfl

/-! ### Going on -/

/-- What comes of a stream that is left and taken up again. -/
def Outcome.followedBy (before rest : Outcome) : Outcome where
  result := rest.result
  output := before.output ++ rest.output
  reports := before.reports ++ rest.reports

/-- Every line is counted, as routed or as rejected. -/
theorem lines_tally_answer (id : Invocation) (tally : Tally) (line : List UInt8) :
    (answer p now id tally line).tally.lines = tally.lines + 1 := by
  -- one count or the other goes up by one
  unfold answer Tally.lines
  cases revisionOf line with
  | ok r => exact Nat.add_right_comm _ _ _
  | error f => rfl

/-- **The loop goes on where it was left**, with the counts that it had reached. -/
theorem runLines_append {breakage : Option Breakage} {tally t : Tally}
    {lines : List (List UInt8)}
    (h : (runLines p now ids breakage none tally lines).result = .ok t)
    (failure : Option String) (more : List (List UInt8)) :
    runLines p now ids breakage failure tally (lines ++ more) =
      (runLines p now ids breakage none tally lines).followedBy
        (runLines p now ids breakage failure t more) := by
  -- by induction on the lines read so far; the counts are those reached before them
  induction lines generalizing tally with
  | nil =>
    cases h
    rw [List.nil_append, Outcome.followedBy, runLines_nil, String.empty_append, List.nil_append]
  | cons line lines ih =>
    rw [List.cons_append, runLines_cons, runLines_cons]
    rw [runLines_cons] at h
    cases hb : breakage.filter fun b => b.after ≤ tally.lines with
    | some b =>
      -- had the writer failed here, the loop would not have come to its end
      simp [hb] at h
    | none =>
      -- the line is answered on both sides, and the rest goes on by induction
      simp only [hb] at h ⊢
      rw [ih h]
      simp only [Outcome.followedBy, String.append_assoc, List.append_assoc]

/-! ### A writer that fails -/

/-- A writer that bears all responses of some lines does not fail on them. -/
theorem runLines_of_le (b : Breakage) (failure : Option String) {tally : Tally}
    {lines : List (List UInt8)} (h : tally.lines + lines.length ≤ b.after) :
    runLines p now ids (some b) failure tally lines =
      runLines p now ids none failure tally lines := by
  induction lines generalizing tally with
  | nil => cases failure <;> rfl
  | cons line lines ih =>
    rw [List.length_cons] at h
    -- the writer bears this response, and one less of those that follow
    have hbears : ¬ b.after ≤ tally.lines := by omega
    have hbears' : (answer p now (ids tally.routed) tally line).tally.lines + lines.length ≤
        b.after := by
      rw [lines_tally_answer]
      omega
    have hrest := ih hbears'
    simp only [runLines_cons, Option.filter_some, decide_eq_true_eq, hbears, if_false,
      Option.filter_none, hrest]

/-- A writer that bears no further response fails on the next line, which has been reported by
then, and the lines after it are not looked at. -/
theorem runLines_cons_of_le (b : Breakage) (failure : Option String) {tally : Tally}
    (h : b.after ≤ tally.lines) (line : List UInt8) (lines : List (List UInt8)) :
    runLines p now ids (some b) failure tally (line :: lines) =
      ⟨.error b.failure, b.written (responseTo p now line),
        (answer p now (ids tally.routed) tally line).reports⟩ := by
  -- the check on the writer comes after the answer, so the reports are there already
  simp only [runLines_cons, Option.filter_some, h, decide_true, if_true, answer_response]

/-- The counts of a complete stream are of all its lines. -/
theorem lines_of_result {tally t : Tally} {lines : List (List UInt8)}
    (h : (runLines p now ids none none tally lines).result = .ok t) :
    t.lines = tally.lines + lines.length := by
  induction lines generalizing tally with
  | nil =>
    cases h
    rfl
  | cons line lines ih =>
    -- the counts go up by one a line
    simp only [runLines_cons, Option.filter_none] at h
    rw [ih h, lines_tally_answer, List.length_cons]
    omega

/-- The reports of a complete stream on one more line. -/
theorem reports_complete_concat {t : Tally} {lines : List (List UInt8)}
    (h : (complete p now ids lines).result = .ok t) (line : List UInt8) :
    (complete p now ids (lines ++ [line])).reports =
      (complete p now ids lines).reports ++ (answer p now (ids t.routed) t line).reports := by
  rw [complete, runLines_append p now ids h]
  simp only [Outcome.followedBy, complete, runLines_cons, runLines_nil, Option.filter_none, List.append_nil]

/-- A stream whose writer fails at the response to `line`. -/
theorem runLines_of_breakage (b : Breakage) {before : List (List UInt8)}
    (hbefore : before.length = b.after) (line : List UInt8) (after : List (List UInt8)) :
    runLines p now ids (some b) none {} (before ++ line :: after) =
      ⟨.error b.failure,
        (complete p now ids before).output ++ b.written (responseTo p now line),
        (complete p now ids (before ++ [line])).reports⟩ := by
  -- the lines before are within what the writer bears
  have hbears : runLines p now ids (some b) none {} before = complete p now ids before :=
    runLines_of_le p now ids b none (by rw [hbefore]; exact Nat.le_of_eq (Nat.zero_add _))
  -- the counts reached before the line say how many responses have been written
  obtain ⟨t, ht⟩ := exists_result_complete p now ids before
  have hlines : t.lines = before.length := (lines_of_result p now ids ht).trans (Nat.zero_add _)
  -- leave the loop before the line, take it up again, and fail
  rw [runLines_append p now ids (hbears ▸ ht), hbears,
    runLines_cons_of_le p now ids b none (by omega), reports_complete_concat p now ids ht]
  rfl

/-- A writer that bears the responses to all lines is as good as one that does not fail. -/
theorem run_of_le {b : Breakage} {bytes : List UInt8} (h : (filledLines bytes).length ≤ b.after) :
    run p now ids ⟨bytes, none⟩ (some b) = run p now ids ⟨bytes, none⟩ none := by
  rw [run_eq_complete, run_eq_runLines_filledLines, complete]
  exact runLines_of_le p now ids b none ((Nat.zero_add _).le.trans h)

/-- What comes of a stream whose writer fails at the response to one of its lines. -/
theorem run_of_lt {b : Breakage} {bytes : List UInt8} (h : b.after < (filledLines bytes).length) :
    run p now ids ⟨bytes, none⟩ (some b) =
      ⟨.error b.failure,
        String.join (((filledLines bytes).take b.after).map (replyTo p now)) ++
          b.written (responseTo p now (filledLines bytes)[b.after]),
        reportsOn p now ids 0 ((filledLines bytes).take (b.after + 1))⟩ := by
  -- the line whose response breaks off stands between those before it and those after it
  have hsplit : filledLines bytes = (filledLines bytes).take b.after ++
      (filledLines bytes)[b.after] :: (filledLines bytes).drop (b.after + 1) := by
    rw [← List.drop_eq_getElem_cons h, List.take_append_drop]
  have hlength : ((filledLines bytes).take b.after).length = b.after :=
    List.length_take_of_le (Nat.le_of_lt h)
  -- the stream is that of the lines before, the line itself and those after
  have hbroken := runLines_of_breakage p now ids b hlength (filledLines bytes)[b.after]
    ((filledLines bytes).drop (b.after + 1))
  rw [← hsplit, output_complete, ← List.take_succ_eq_append_getElem h, complete,
    reports_runLines] at hbroken
  rw [run_eq_runLines_filledLines]
  exact hbroken

/-- What is written of the response at which a writer fails. -/
theorem bytesOf_written (b : Breakage) (line : List UInt8) :
    bytesOf (b.written (responseTo p now line)) =
      match b.step with
      | .text => []
      | .lineEnd => (bytesOf (replyTo p now line)).dropLast
      | .flush => bytesOf (replyTo p now line) := by
  rw [← line_responseTo, Breakage.written]
  cases b.step with
  | text => rfl
  | lineEnd =>
    dsimp only
    rw [Response.bytes_line, List.dropLast_concat]
  | flush => rfl

/-- **A writer that fails** after `b.after` responses, whoever watches. If the lines of the stream
are no more, nothing changes. Otherwise the stream ends with the failure of the writer; written are
the replies to the first `b.after` lines and of the next one what came before the step that failed.
The watchers have been told of the lines up to this one, its own included: of each revision that it
was received and how it was routed, of each other line why it was rejected. So that is what the
memory holds and, from its least severity on, what a log says. -/
theorem run_of_breakage {ω : Type} (tell : ω → Report → ω) (watchers : ω) (b : Breakage)
    (bytes : List UInt8) :
    let lines := filledLines bytes
    let whole := watch tell p now ids ⟨bytes, none⟩ none watchers
    let broken := watch tell p now ids ⟨bytes, none⟩ (some b) watchers
    whole.output = String.join (lines.map (replyTo p now)) ∧
    (lines.length ≤ b.after → broken = whole) ∧
    ∀ h : b.after < lines.length,
      let answered := (lines.take b.after).flatMap fun line => bytesOf (replyTo p now line)
      let next := bytesOf (replyTo p now lines[b.after])
      let seen := reportsOn p now ids 0 (lines.take (b.after + 1))
      broken.watchers = seen.foldl tell watchers ∧
      (∀ least : Severity,
        (watch Watchers.tell p now ids ⟨bytes, none⟩ (some b) ⟨⟨least, ""⟩, []⟩).watchers =
          ⟨⟨least, logText (logOf least seen)⟩, observations seen⟩) ∧
      match b.step with
      | .text => broken.result = .error ⟨.input, "JSON error: " ++ b.reason⟩ ∧
          bytesOf broken.output = answered
      | .lineEnd => broken.result = .error ⟨.io, b.reason⟩ ∧
          bytesOf broken.output = answered ++ next.dropLast
      | .flush => broken.result = .error ⟨.io, b.reason⟩ ∧
          bytesOf broken.output = answered ++ next := by
  intro lines whole broken
  -- the three clauses: the unbroken output, enough responses, too few responses
  refine ⟨?_, fun h => ?_, fun h => ?_⟩
  · have hwhole : whole = _ := watch_eq_complete p now ids tell watchers bytes
    rw [hwhole]
    exact output_complete p now ids lines
  · -- the writer bears them all, so both runs are one
    simp only [broken, whole, watch_eq, run_of_le p now ids h]
  · -- the run breaks off at the line number `b.after`
    intro answered next seen
    have hbroken : broken = ⟨.error b.failure,
        String.join ((lines.take b.after).map (replyTo p now)) ++
          b.written (responseTo p now lines[b.after]), seen.foldl tell watchers⟩ := by
      simp only [broken, watch_eq, run_of_lt p now ids h]
      rfl
    have houtput : bytesOf broken.output =
        answered ++ bytesOf (b.written (responseTo p now lines[b.after])) := by
      rw [hbroken, bytesOf_append, bytesOf_join, List.flatMap_map]
    -- any watcher is told what was seen, and so is the one that logs and remembers
    refine ⟨by rw [hbroken], fun least => ?_, ?_⟩
    · rw [watch_eq, run_of_lt p now ids h]
      exact foldl_tell_fresh least seen
    · -- what was written of the last reply goes by the step
      rw [houtput, bytesOf_written, hbroken, Breakage.failure]
      cases b.step with
      | text => exact ⟨rfl, List.append_nil _⟩
      | lineEnd => exact ⟨rfl, rfl⟩
      | flush => exact ⟨rfl, rfl⟩

/-! ### A reader that fails -/

/-- The bytes up to the last line end. -/
def untilLastLineEnd (bytes : List UInt8) : List UInt8 := bytes.rdropWhile (· ≠ lineFeed)

/-- What a byte at the end does to the lines: a line end closes the last of them, and any other byte
joins what stands after it. -/
theorem split_concat (bytes : List UInt8) (b : UInt8) :
    split (bytes ++ [b]) =
      if b = lineFeed then ((split bytes).1 ++ [(split bytes).2], [])
      else ((split bytes).1, (split bytes).2 ++ [b]) := by
  -- the last byte meets either no line or the lines found so far
  induction bytes with
  | nil => by_cases hb : b = lineFeed <;> simp [split, hb]
  | cons a bytes ih =>
    rw [List.cons_append, split, ih, split]
    obtain ⟨lines, rest⟩ := split bytes
    -- the new byte is a line end or not, and so is the first, which may have no line behind it
    by_cases hb : b = lineFeed <;> by_cases ha : a = lineFeed <;> cases lines <;>
      simp [ha, hb]

/-- The bytes up to the last line end have the terminated lines of all, and nothing after them. -/
theorem split_untilLastLineEnd (bytes : List UInt8) :
    split (untilLastLineEnd bytes) = ((split bytes).1, []) := by
  -- by induction from the end, where bytes are cut off
  induction bytes using List.reverseRecOn with
  | nil => rfl
  | append_singleton bytes b ih =>
    rw [split_concat]
    by_cases hb : b = lineFeed
    · -- the last byte ends a line, so nothing is cut off
      have hkeep : untilLastLineEnd (bytes ++ [b]) = bytes ++ [b] :=
        List.rdropWhile_concat_neg _ _ b (by simp [hb])
      rw [hkeep, split_concat, if_pos hb]
    · -- the last byte is cut off, and it was in no terminated line
      have hdrop : untilLastLineEnd (bytes ++ [b]) = untilLastLineEnd bytes :=
        List.rdropWhile_concat_pos _ _ b (by simp [hb])
      rw [hdrop, if_neg hb]
      exact ih

/-- **The lines that a failing reader delivers** are those of the bytes up to the last line end. -/
theorem Source.lines_of_failure (bytes : List UInt8) (reason : String) :
    Source.lines ⟨bytes, some reason⟩ = Source.lines ⟨untilLastLineEnd bytes, none⟩ := by
  simp [lines, rawLines, split_untilLastLineEnd]

/-- A failure of the reader changes the end of a stream alone. -/
theorem runLines_of_failure (reason : String) (tally : Tally) (lines : List (List UInt8)) :
    runLines p now ids none (some reason) tally lines =
      ⟨.error (.ofIo reason), (runLines p now ids none none tally lines).output,
        (runLines p now ids none none tally lines).reports⟩ := by
  -- the failure comes up where no line is left
  obtain ⟨t, ht⟩ := (runLines_eq p now ids tally lines).1
  have happend := runLines_append p now ids ht (some reason) []
  rw [List.append_nil] at happend
  rw [happend, Outcome.followedBy, runLines_nil_of_failure, String.append_empty, List.append_nil]

/-- **A reader that fails** after some bytes loses the unfinished line alone. The stream ends with
the reader's failure, and up to there output and reports are those of the stream that ends after the
last line end. -/
theorem run_of_failure (bytes : List UInt8) (reason : String) :
    let cut := run p now ids ⟨bytes, some reason⟩ none
    let whole := run p now ids ⟨untilLastLineEnd bytes, none⟩ none
    (∃ tally, whole.result = .ok tally) ∧ cut.result = .error ⟨.io, reason⟩ ∧
      cut.output = whole.output ∧ cut.reports = whole.reports := by
  intro cut whole
  -- both streams have the same lines, and end differently
  have hcut : cut = runLines p now ids none (some reason) {}
      (Source.lines ⟨untilLastLineEnd bytes, none⟩) := by
    rw [← Source.lines_of_failure bytes reason]
    exact run_eq_runLines p now ids ⟨bytes, some reason⟩ none
  have hwhole : whole = runLines p now ids none none {}
      (Source.lines ⟨untilLastLineEnd bytes, none⟩) := run_eq_runLines p now ids _ none
  rw [hcut, hwhole, runLines_of_failure]
  exact ⟨(runLines_eq p now ids {} _).1, rfl, rfl, rfl⟩

end RevisionRouting.Stream
