import RevisionRouting.Proofs.Stream.Failures
import RevisionRouting.Stream.Watched

/-!
# How lines are framed

The same lines can be written to a stream in many ways: each may end in `\n` or in `\r\n`, the
last may have no end, and blank lines may stand anywhere between them (`Framing`). All of them
are read alike (`Framing.filledLines_bytes`), so everything that comes of a stream is the same
for them, down to the log (`run_of_framing`).

Two facts carry this. What stands before the first line end is read by itself, whatever follows
(`filledLines_append_lineFeed`). And a line is blank or not with a carriage return at its end as
without, since a carriage return is itself a blank (`isBlankLine_dropReturn`). So the return
that a terminator adds neither hides a line nor makes one.

Conversely no line is left out that holds any byte but the four that blank lines are made of
(`filledLines_eq_map_filter`). Other white space is content: a vertical tab, or what is
white only as a character of more than one byte.
-/

namespace RevisionRouting.Stream

/-! ### Lines that are left out -/

/-- What blank lines are made of: spaces, tabs, form feeds and carriage returns. -/
def blankBytes : List UInt8 := [0x20, 0x09, 0x0C, 0x0D]

/-- Whether a line holds any other byte. -/
def isFilled (line : List UInt8) : Bool := line.any fun b => b ∉ blankBytes

/-- Within a line, which has no line end in it, the blanks are the bytes of blank lines. -/
theorem isFilled_eq {line : List UInt8} (h : lineFeed ∉ line) :
    isFilled line = !isBlankLine line := by
  -- both sides ask of the bytes one by one whether there is one that is no blank
  rw [isFilled, isBlankLine, List.not_all_eq_any_not, Bool.eq_iff_iff, List.any_eq_true,
    List.any_eq_true]
  refine exists_congr fun b => and_congr_right fun hb => ?_
  have hfeed : b ≠ 0x0A := by
    rintro rfl
    exact h hb
  simp [isBlankByte, blankBytes, hfeed, and_assoc]

theorem isBlankLine_append (l m : List UInt8) :
    isBlankLine (l ++ m) = (isBlankLine l && isBlankLine m) := List.all_append

/-- A line with a carriage return at its end is that line and a blank. -/
theorem eq_dropReturn_append {line : List UInt8} (h : line.getLast? = some carriageReturn) :
    line = dropReturn line ++ [carriageReturn] := by
  rw [dropReturn, if_pos h]
  exact (List.dropLast_append_getLast? _ h).symm

/-- **A carriage return at the end does not make a line blank**, nor does it keep it from being
blank. -/
theorem isBlankLine_dropReturn (line : List UInt8) :
    isBlankLine (dropReturn line) = isBlankLine line := by
  by_cases h : line.getLast? = some carriageReturn
  · -- the carriage return that is dropped is a blank
    conv_rhs => rw [eq_dropReturn_append h, isBlankLine_append]
    exact (Bool.and_true _).symm
  · rw [dropReturn, if_neg h]

/-- There is no line end between line ends. -/
theorem lineFeed_not_mem_of_mem_splitOn {bytes part : List UInt8}
    (h : part ∈ bytes.splitOn lineFeed) : lineFeed ∉ part := by
  induction bytes generalizing part with
  | nil =>
    rw [List.splitOn_nil, List.mem_singleton] at h
    exact h ▸ List.not_mem_nil
  | cons b bs ih =>
    rw [List.splitOn_cons_eq_if_modifyHead] at h
    by_cases hb : b = lineFeed
    · -- a line end closes an empty first part
      rw [if_pos (beq_iff_eq.2 hb)] at h
      rcases List.mem_cons.1 h with rfl | hmore
      · exact List.not_mem_nil
      · exact ih hmore
    · -- the byte joins the first part, and the others are as they were
      obtain ⟨first, more, hparts⟩ :=
        List.exists_cons_of_ne_nil (List.splitOn_ne_nil lineFeed bs)
      rw [if_neg fun heq => hb (beq_iff_eq.1 heq), hparts, List.modifyHead_cons] at h
      rcases List.mem_cons.1 h with rfl | hmore
      · have hfirst : lineFeed ∉ first := ih (hparts ▸ List.mem_cons_self)
        exact List.not_mem_cons_of_ne_of_not_mem (Ne.symm hb) hfirst
      · exact ih (hparts ▸ List.mem_cons_of_mem _ hmore)

/-- **No line is left out that holds another byte**, and the others are. -/
theorem filledLines_eq_map_filter (bytes : List UInt8) :
    filledLines bytes = ((bytes.splitOn lineFeed).filter isFilled).map dropReturn := by
  -- on parts between line ends dropping a return and being filled do not interfere
  have hparts : ∀ part ∈ bytes.splitOn lineFeed,
      (!isBlankLine (dropReturn part)) = isFilled part := by
    intro part hpart
    rw [isBlankLine_dropReturn, isFilled_eq (lineFeed_not_mem_of_mem_splitOn hpart)]
  rw [filledLines, List.filter_map]
  exact congrArg _ (List.filter_congr hparts)

/-! ### The first line of a stream -/

/-- The part before a line end as a line, if it is not blank. -/
def lineOf (part : List UInt8) : List (List UInt8) :=
  if isBlankLine part then [] else [dropReturn part]

/-- A stream without a line end is one line at most. -/
theorem filledLines_of_not_mem {part : List UInt8} (h : lineFeed ∉ part) :
    filledLines part = lineOf part := by
  rw [filledLines, List.splitOn_eq_singleton h, lineOf, ← isBlankLine_dropReturn]
  cases hblank : isBlankLine (dropReturn part) <;> simp [hblank]

/-- **The first line is read by itself**, whatever follows its end. -/
theorem filledLines_append_lineFeed {part : List UInt8} (h : lineFeed ∉ part)
    (rest : List UInt8) :
    filledLines (part ++ lineFeed :: rest) = lineOf part ++ filledLines rest := by
  rw [filledLines, List.splitOn_append_cons_self_of_not_mem h, List.map_cons, lineOf,
    ← isBlankLine_dropReturn]
  cases hblank : isBlankLine (dropReturn part) with
  | true =>
    -- a blank part is left out
    rw [List.filter_cons_of_neg (by simp [hblank])]
    rfl
  | false =>
    -- any other part is the first line
    rw [List.filter_cons_of_pos (by simp [hblank])]
    rfl

/-! ### Framings -/

/-- A line as it is given: bytes without a line end, of which none at the end would be taken for a
part of the line's own end. -/
structure Line where
  bytes : List UInt8
  oneLine : lineFeed ∉ bytes
  no_return : bytes.getLast? ≠ some carriageReturn

/-- A line that is put in, with nothing in it but blanks. -/
structure BlankLine where
  bytes : List UInt8
  blank : ∀ b ∈ bytes, b ∈ blankBytes

/-- What ends a line. -/
inductive Terminator where
  | feed
  | returnFeed

/-- What stands between two line ends. -/
inductive Part where
  | given (l : Line)
  | blank (l : BlankLine)

/-- A way to write lines to a stream. -/
structure Framing where
  /-- The parts with what ends them. -/
  ended : List (Part × Terminator)
  /-- A last part without an end. -/
  last : Option Part := none

/-- The bytes that a terminator has before the line end. -/
def Terminator.beforeFeed : Terminator → List UInt8
  | feed => []
  | returnFeed => [carriageReturn]

namespace Part

/-- The bytes of a part. -/
def bytes : Part → List UInt8
  | given l => l.bytes
  | blank l => l.bytes

/-- The line that a part was given as. -/
def line? : Part → Option Line
  | given l => some l
  | blank _ => none

end Part

namespace Framing

/-- The bytes of a stream. -/
def bytes (f : Framing) : List UInt8 :=
  (f.ended.flatMap fun e => e.1.bytes ++ e.2.beforeFeed ++ [lineFeed]) ++
    (f.last.map Part.bytes).getD []

/-- The lines that were given, in order. -/
def lines (f : Framing) : List Line := (f.ended.map Prod.fst ++ f.last.toList).filterMap Part.line?

end Framing

/-! ### Framings are read alike -/

theorem isBlankByte_of_mem {b : UInt8} (h : b ∈ blankBytes) : isBlankByte b = true := by
  have hall : blankBytes.all isBlankByte = true := rfl
  exact List.all_eq_true.1 hall b h

theorem BlankLine.isBlankLine_bytes (l : BlankLine) : isBlankLine l.bytes = true :=
  List.all_eq_true.2 fun b hb => isBlankByte_of_mem (l.blank b hb)

/-- A terminator ends a line where its line end is, and not before. -/
theorem Terminator.lineFeed_not_mem (t : Terminator) : lineFeed ∉ t.beforeFeed := by
  cases t <;> decide

theorem Terminator.isBlankLine_beforeFeed (t : Terminator) : isBlankLine t.beforeFeed = true := by
  cases t <;> rfl

namespace Part

theorem lineFeed_not_mem_append (part : Part) (t : Terminator) :
    lineFeed ∉ part.bytes ++ t.beforeFeed := by
  -- neither given lines nor blank ones hold a line end
  have hpart : lineFeed ∉ part.bytes := by
    cases part with
    | given l => exact l.oneLine
    | blank l => exact fun h => absurd (l.blank _ h) (by decide)
  rw [List.mem_append]
  exact not_or.2 ⟨hpart, t.lineFeed_not_mem⟩

/-- A given line is read as it was given, whatever ends it. -/
theorem dropReturn_append (l : Line) (t : Terminator) :
    dropReturn (l.bytes ++ t.beforeFeed) = l.bytes := by
  cases t with
  | feed =>
    rw [Terminator.beforeFeed, List.append_nil]
    exact if_neg l.no_return
  | returnFeed =>
    -- the carriage return that is dropped is the terminator's
    have hlast : (l.bytes ++ [carriageReturn]).getLast? = some carriageReturn :=
      List.getLast?_concat
    exact (if_pos hlast).trans List.dropLast_concat

/-- **A part is read as the line that it was given as**, if it was and if there is more to it than
blanks, whatever ends it. -/
theorem lineOf_append (part : Part) (t : Terminator) :
    lineOf (part.bytes ++ t.beforeFeed) =
      (part.line?.toList.map Line.bytes).filter isFilled := by
  -- what ends the line does not make it blank or filled
  rw [lineOf, isBlankLine_append, t.isBlankLine_beforeFeed, Bool.and_true]
  cases part with
  | given l =>
    -- a given line is kept just if there is more to it than blanks
    change (if isBlankLine l.bytes then [] else [dropReturn (l.bytes ++ t.beforeFeed)]) =
      [l.bytes].filter isFilled
    rw [List.filter_singleton, isFilled_eq l.oneLine, dropReturn_append]
    cases isBlankLine l.bytes <;> rfl
  -- a blank line is left out, with whatever ends it
  | blank l => exact if_pos l.isBlankLine_bytes

end Part

namespace Framing

theorem bytes_cons (e : Part × Terminator) (ended : List (Part × Terminator))
    (last : Option Part) : bytes ⟨e :: ended, last⟩ =
      (e.1.bytes ++ e.2.beforeFeed) ++ lineFeed :: bytes ⟨ended, last⟩ := by
  simp [bytes]

theorem lines_cons (e : Part × Terminator) (ended : List (Part × Terminator))
    (last : Option Part) :
    lines ⟨e :: ended, last⟩ = e.1.line?.toList ++ lines ⟨ended, last⟩ := by
  rw [lines, List.map_cons, List.cons_append, List.filterMap_cons, lines]
  cases e.1.line? <;> rfl

/-- **Lines are read as they were given**, however they are framed. -/
theorem filledLines_bytes (f : Framing) :
    filledLines f.bytes = (f.lines.map Line.bytes).filter isFilled := by
  -- by induction on the parts that have an end; the last part comes at the bottom
  obtain ⟨ended, last⟩ := f
  induction ended with
  | nil =>
    cases last with
    | none => rfl
    | some part =>
      -- the last part has no end, as if it had one without a carriage return
      have hpart := part.lineFeed_not_mem_append .feed
      have hline := part.lineOf_append .feed
      rw [Terminator.beforeFeed, List.append_nil] at hpart hline
      change filledLines part.bytes = _
      rw [filledLines_of_not_mem hpart, hline]
      cases part <;> rfl
  | cons e ended ih =>
    -- the first part is read by itself, and the others by induction
    rw [bytes_cons, filledLines_append_lineFeed (e.1.lineFeed_not_mem_append e.2),
      e.1.lineOf_append e.2, ih, lines_cons, List.map_append, List.filter_append]

end Framing

/-- Lines that are joined by line ends are read as they were. -/
theorem filledLines_intercalate {lines : List (List UInt8)} (hfeed : ∀ l ∈ lines, lineFeed ∉ l)
    (hreturn : ∀ l ∈ lines, l.getLast? ≠ some carriageReturn)
    (hfilled : ∀ l ∈ lines, isFilled l = true) :
    filledLines ([lineFeed].intercalate lines) = lines := by
  -- joining no lines gives no bytes, which is no line
  by_cases hnone : lines = []
  · rw [hnone]
    rfl
  · -- the parts of the joined bytes are the lines again
    have hdrop : lines.map dropReturn = lines := by
      refine (List.map_congr_left fun l hl => ?_).trans (List.map_id lines)
      exact if_neg (hreturn l hl)
    rw [filledLines_eq_map_filter, List.splitOn_intercalate lineFeed hfeed hnone,
      List.filter_eq_self.2 hfilled, hdrop]

/-- A framing of lines is read as the lines that are not blank, joined by line ends. -/
theorem Framing.lines_source (f : Framing) : Source.lines ⟨f.bytes, none⟩ = Source.lines
    ⟨[lineFeed].intercalate ((f.lines.map Line.bytes).filter isFilled), none⟩ := by
  rw [Source.lines_eq_filledLines, Source.lines_eq_filledLines, f.filledLines_bytes]
  -- what is left of given lines is made of given lines
  have hgiven : ∀ bytes ∈ (f.lines.map Line.bytes).filter isFilled, ∃ l : Line, l.bytes = bytes := by
    intro bytes hbytes
    obtain ⟨l, -, hl⟩ := List.mem_map.1 (List.mem_filter.1 hbytes).1
    exact ⟨l, hl⟩
  refine (filledLines_intercalate ?_ ?_ ?_).symm
  · -- no line end, no return at the end, and not blank, each from the line that was given
    intro bytes hbytes
    obtain ⟨l, rfl⟩ := hgiven bytes hbytes
    exact l.oneLine
  · intro bytes hbytes
    obtain ⟨l, rfl⟩ := hgiven bytes hbytes
    exact l.no_return
  · exact fun bytes hbytes => (List.mem_filter.1 hbytes).2

/-- **Line framing does not matter.** Take lines and a way to write them: each with either
terminator or, at the end of the stream, with none, and with blank lines put in anywhere. What
comes of the stream, under any watch and with any writer, is what comes of those lines that
are not blank, joined by line ends. And of any stream no line is left out that holds a byte other
than a space, a tab, a form feed or a carriage return: just these are read, and each is
answered. -/
theorem run_of_framing (p : Policy) (now : Time.Instant) (ids : Nat → Invocation) :
    (∀ (f : Framing) (breakage : Option Breakage),
      let joined := [lineFeed].intercalate ((f.lines.map Line.bytes).filter isFilled)
      run p now ids ⟨f.bytes, none⟩ breakage = run p now ids ⟨joined, none⟩ breakage ∧
      ∀ {ω : Type} (tell : ω → Report → ω) (watchers : ω),
        watch tell p now ids ⟨f.bytes, none⟩ breakage watchers =
          watch tell p now ids ⟨joined, none⟩ breakage watchers) ∧
    ∀ bytes : List UInt8,
      let kept := ((bytes.splitOn lineFeed).filter isFilled).map dropReturn
      Source.lines ⟨bytes, none⟩ = kept ∧
      bytesOf (run p now ids ⟨bytes, none⟩ none).output =
        kept.flatMap fun line => bytesOf (responseTo p now line).line := by
  refine ⟨fun f breakage => ?_, fun bytes => ?_⟩
  · -- a framing and its lines joined: runs go by the lines read, which are the same
    intro joined
    have hlines : Source.lines ⟨f.bytes, none⟩ = Source.lines ⟨joined, none⟩ := f.lines_source
    refine ⟨?_, fun tell watchers => ?_⟩
    · rw [run, run, Source.reads, Source.reads, hlines]
    · rw [watch, watch, Source.reads, Source.reads, hlines]
  · -- any bytes at all: the lines read are the parts with another byte in them
    intro kept
    have hkept : filledLines bytes = kept := filledLines_eq_map_filter bytes
    refine ⟨(Source.lines_eq_filledLines bytes).trans hkept, ?_⟩
    simp only [run_eq_complete, bytesOf_output_complete, hkept, line_responseTo]

end RevisionRouting.Stream
