import RevisionRouting.Stream.Run

/-!
# The lines of a stream

`split` takes the bytes of a stream apart at their line ends, one byte after the
other. The result is the library's `List.splitOn` (`split_eq_splitOn`), where the
last part is what stands after the last line end. An empty last part is blank, so
it makes no difference whether it counts as a line: the lines of a stream that is
read to its end are the parts that are not blank (`Source.lines_eq_filledLines`).

A stream takes its turns over these lines and then over how reading ended
(`runLines`). `runLines_nil` and `runLines_cons` say what comes of no line and of one
line more; all that is said about streams goes back to them.
-/

namespace RevisionRouting.Stream

/-- The lines of some bytes that are not blank: what stands between line ends, less a carriage
return at the end. -/
def filledLines (bytes : List UInt8) : List (List UInt8) :=
  ((bytes.splitOn lineFeed).map dropReturn).filter fun line => !isBlankLine line

/-- Splitting recurses on the bytes and keeps what stands after the last line end apart. -/
theorem split_eq_splitOn (bytes : List UInt8) :
    (split bytes).1 ++ [(split bytes).2] = bytes.splitOn lineFeed := by
  induction bytes with
  | nil => rfl
  | cons b bs ih =>
    rw [List.splitOn_cons_eq_if_modifyHead, ← ih, split]
    obtain ⟨lines, rest⟩ := split bs
    -- a line end opens a line of its own; any other byte joins the first, which may be the last
    by_cases hb : b = lineFeed
    · simp [hb]
    · cases lines <;> simp [hb]

/-- The lines read are those between line ends, less a carriage return, that are not blank. -/
theorem filterMap_lineIn (parts : List (List UInt8)) :
    parts.filterMap lineIn = (parts.map dropReturn).filter fun line => !isBlankLine line := by
  -- part by part: dropping the return comes first, and blankness is asked after it
  induction parts with
  | nil => rfl
  | cons part parts ih =>
    rw [List.map_cons, List.filterMap_cons, List.filter_cons, ih, lineIn]
    cases isBlankLine (dropReturn part) <;> rfl

/-- The line after the last line end is blank if nothing stands there. -/
theorem isBlankLine_dropReturn_nil : isBlankLine (dropReturn []) = true := rfl

/-- **The lines of a stream that is read to its end** are the parts between line ends that are
not blank. -/
theorem Source.lines_eq_filledLines (bytes : List UInt8) :
    Source.lines ⟨bytes, none⟩ = filledLines bytes := by
  rw [filledLines, ← split_eq_splitOn, lines, filterMap_lineIn, rawLines]
  obtain ⟨lines, rest⟩ := split bytes
  -- an empty part after the last line end is no line on one side and a blank one on the other
  cases rest with
  | nil => simp [isBlankLine_dropReturn_nil]
  | cons b bs => simp

/-! ### A single line -/

/-- How a line may end; the last of a stream may have no end. -/
def lineEnds : List (List UInt8) := [[], [lineFeed], [carriageReturn, lineFeed]]

/-- A line that is not blank is the only line of a stream that holds nothing else. -/
theorem filledLines_append_lineEnd {line ending : List UInt8} (hline : lineFeed ∉ line)
    (hreturn : line.getLast? ≠ some carriageReturn) (hblank : isBlankLine line = false)
    (hending : ending ∈ lineEnds) : filledLines (line ++ ending) = [line] := by
  -- a return at the end is dropped with the line end, and there is no other
  have hdrop : dropReturn line = line := if_neg hreturn
  have hdrop' : dropReturn (line ++ [carriageReturn]) = line := by simp [dropReturn]
  have hline' : lineFeed ∉ line ++ [carriageReturn] := by
    rw [List.mem_append, List.mem_singleton]
    exact not_or.2 ⟨hline, by decide⟩
  rw [filledLines]
  -- no line end, a line feed, or a return with a line feed
  obtain rfl | rfl | rfl : ending = [] ∨ ending = [lineFeed] ∨
      ending = [carriageReturn, lineFeed] := by
    simpa [lineEnds] using hending
  · rw [List.append_nil, List.splitOn_eq_singleton hline]
    simp [hdrop, hblank]
  · rw [List.splitOn_append_cons_self_of_not_mem hline, List.splitOn_nil]
    simp [hdrop, hblank, isBlankLine_dropReturn_nil]
  · rw [List.append_cons, List.splitOn_append_cons_self_of_not_mem hline', List.splitOn_nil]
    simp [hdrop', hblank, isBlankLine_dropReturn_nil]

/-! ### The turns over the lines -/

variable (p : Policy) (now : Time.Instant) (ids : Nat → Invocation)

/-- What comes of some lines, the counts before them given; `failure` says why reading fails after
them, if it does. -/
def runLines (breakage : Option Breakage) (failure : Option String) (tally : Tally)
    (lines : List (List UInt8)) : Outcome :=
  runReads p now ids breakage tally (lines.map .line ++ [.ending failure])

/-- A stream is what comes of its lines. -/
theorem run_eq_runLines (source : Source) (breakage : Option Breakage) :
    run p now ids source breakage =
      runLines p now ids breakage source.failure {} source.lines := rfl

/-- A stream that is read to its end is what comes of the lines that are not blank. -/
theorem run_eq_runLines_filledLines (bytes : List UInt8) (breakage : Option Breakage) :
    run p now ids ⟨bytes, none⟩ breakage =
      runLines p now ids breakage none {} (filledLines bytes) := by
  rw [run_eq_runLines, Source.lines_eq_filledLines]

/-- What comes of some lines when neither reading nor writing fails. -/
def complete (lines : List (List UInt8)) : Outcome := runLines p now ids none none {} lines

theorem run_eq_complete (bytes : List UInt8) :
    run p now ids ⟨bytes, none⟩ none = complete p now ids (filledLines bytes) :=
  run_eq_runLines_filledLines p now ids bytes none

variable (breakage : Option Breakage) (tally : Tally)

theorem runLines_nil : runLines p now ids breakage none tally [] = ⟨.ok tally, "", []⟩ := rfl

theorem runLines_nil_of_failure (reason : String) :
    runLines p now ids breakage (some reason) tally [] = ⟨.error (.ofIo reason), "", []⟩ := rfl

/-- A line is answered and reported; then the stream goes on, unless the writer fails. -/
theorem runLines_cons (failure : Option String) (line : List UInt8) (lines : List (List UInt8)) :
    runLines p now ids breakage failure tally (line :: lines) =
      let a := answer p now (ids tally.routed) tally line
      match breakage.filter fun b => b.after ≤ tally.lines with
      | some b => ⟨.error b.failure, b.written a.response, a.reports⟩
      | none =>
        let rest := runLines p now ids breakage failure a.tally lines
        ⟨rest.result, a.response.line ++ rest.output, a.reports ++ rest.reports⟩ := rfl

end RevisionRouting.Stream
