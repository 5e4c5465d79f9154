import RevisionRouting.Response
import RevisionRouting.Revision
import RevisionRouting.Session

/-!
# Routing a stream

Revisions come one a line and are answered one a line, in order. The answer to a
line depends on that line alone (`answer`). A line that is no revision is answered
with its error and the stream goes on; only a failure of reading or writing ends
it early. What a stream does about what it reads is a `turn`; `run` takes one turn
after the other, over all that a source holds, and the program takes the same turns
over what its input brings.

Lines end in `\n` or `\r\n`; the last may have no end (`Source.lines`), and lines of
nothing but blanks are left out (`lineIn`). When reading fails, the line that was
being read is lost. Reading a source to its end gives its lines one after the other
and then says how it ended (`Source.reads`).

Writing a response takes three steps: its text, its line end, and the flush that
hands both over. A writer may fail at any of them (`Breakage`). The revision has
been routed and reported by then, so reports are ahead of a broken output by the
one line that could not be answered.
-/

namespace RevisionRouting.Stream

/-! ### Lines of bytes -/

/-- The byte that ends a line. -/
def lineFeed : UInt8 := 0x0A

/-- The byte that may stand before the end of a line. -/
def carriageReturn : UInt8 := 0x0D

/-- Whether a byte is a blank: a space, a tab, a form feed or one of the two line ends. -/
def isBlankByte (b : UInt8) : Bool :=
  b = 0x20 || b = 0x09 || b = 0x0A || b = 0x0C || b = 0x0D

/-- The terminated lines of some bytes, less their ends, and the bytes after the last of them. -/
def split : List UInt8 → List (List UInt8) × List UInt8
  | [] => ([], [])
  | b :: bs =>
    match split bs with
    | (lines, rest) =>
      if b = lineFeed then ([] :: lines, rest)
      else match lines with
        | [] => ([], b :: rest)
        | line :: lines => ((b :: line) :: lines, rest)

/-- A line without the carriage return that it may end in. -/
def dropReturn (line : List UInt8) : List UInt8 :=
  if line.getLast? = some carriageReturn then line.dropLast else line

/-- Whether a line holds nothing but blanks. -/
def isBlankLine (line : List UInt8) : Bool := line.all isBlankByte

/-- The line in the bytes up to a line end, unless it is blank. -/
def lineIn (bytes : List UInt8) : Option (List UInt8) :=
  let line := dropReturn bytes
  if isBlankLine line then none else some line

/-- What reading comes to next. -/
inductive Read where
  | line (line : List UInt8)
  | finished
  | failed (reason : String)

/-- How reading ends, the reason given for which it fails, if it does. -/
def Read.ending : Option String → Read
  | none => finished
  | some reason => failed reason

/-- What there is to read: bytes, and then the end of the input or a failure. -/
structure Source where
  bytes : List UInt8
  /-- Why reading fails after the bytes, if it does. -/
  failure : Option String := none

namespace Source

/-- All lines, less their ends. -/
def rawLines (s : Source) : List (List UInt8) :=
  let (lines, rest) := split s.bytes
  if s.failure.isSome || rest.isEmpty then lines else lines ++ [rest]

/-- The lines that are not blank. -/
def lines (s : Source) : List (List UInt8) := s.rawLines.filterMap lineIn

/-- All that is read, one after the other. -/
def reads (s : Source) : List Read := s.lines.map .line ++ [.ending s.failure]

end Source

/-! ### Counts and writers -/

/-- How many lines came to what. -/
structure Tally where
  routed : Nat := 0
  /-- How many of the routed revisions were resurrections. -/
  resurrections : Nat := 0
  rejected : Nat := 0
  deriving DecidableEq, Repr

/-- The step of writing a response that fails. -/
inductive WriteStep where
  | text
  | lineEnd
  | flush
  deriving DecidableEq, Repr

/-- How a writer fails. -/
structure Breakage where
  step : WriteStep
  /-- How many responses are written before it fails. -/
  after : Nat
  reason : String

namespace Breakage

/-- What of a response is written when writing it fails. -/
def written (b : Breakage) (r : Response) : String :=
  match b.step with
  | .text => ""
  | .lineEnd => r.text
  | .flush => r.line

/-- The failure that a broken writer comes to. One in the text itself is taken for a failure of
JSON. -/
def failure (b : Breakage) : Failure :=
  match b.step with
  | .text => .json b.reason
  | .lineEnd => .ofIo b.reason
  | .flush => .ofIo b.reason

end Breakage

/-! ### One line -/

/-- The revision in a line. -/
def revisionOf (line : List UInt8) : Except Failure Revision := do
  let cs ← (Text.Utf8.decode line).mapError .ofUtf8
  (Revision.parse (String.ofList cs)).mapError .ofJson

/-- What comes of a line. -/
structure Answer where
  response : Response
  reports : List Report
  tally : Tally

/-- What comes of a line, the counts before it given. -/
def answer (p : Policy) (now : Time.Instant) (id : Invocation) (tally : Tally)
    (line : List UInt8) : Answer :=
  match revisionOf line with
  | .ok r =>
    let (d, reports) := p.revise now id r
    ⟨.ofDecision d, reports,
      { tally with
        routed := tally.routed + 1
        resurrections := tally.resurrections + if d.shortCircuited then 1 else 0 }⟩
  | .error f =>
    ⟨.ofFailure f, [.rejected f.message], { tally with rejected := tally.rejected + 1 }⟩

/-! ### The whole stream -/

/-- What a stream does about what is read. -/
inductive Turn (α : Type) where
  /-- It answers a line. -/
  | answer (a : α)
  /-- It ends. -/
  | stop (result : Except Failure Tally)

/-- The next turn of a stream, the counts before it given; `answer` says what comes of a line. -/
def turn {α : Type} (answer : List UInt8 → α) (tally : Tally) : Read → Turn α
  | .line line => .answer (answer line)
  | .finished => .stop (.ok tally)
  | .failed reason => .stop (.error (.ofIo reason))

/-- What comes of a stream. -/
structure Outcome where
  result : Except Failure Tally
  output : String
  reports : List Report

/-- The number of lines that have been counted. -/
def Tally.lines (t : Tally) : Nat := t.routed + t.rejected

/-- What comes of all that is read, turn by turn, the counts before it given. A revision takes its
mark from `ids` by the number of revisions routed before it. -/
def runReads (p : Policy) (now : Time.Instant) (ids : Nat → Invocation)
    (breakage : Option Breakage) : Tally → List Read → Outcome
  | tally, [] => ⟨.ok tally, "", []⟩
  | tally, read :: reads =>
    match turn (answer p now (ids tally.routed) tally) tally read with
    | .stop result => ⟨result, "", []⟩
    | .answer a =>
      match breakage.filter fun b => b.after ≤ tally.lines with
      | some b => ⟨.error b.failure, b.written a.response, a.reports⟩
      | none =>
        let rest := runReads p now ids breakage a.tally reads
        ⟨rest.result, a.response.line ++ rest.output, a.reports ++ rest.reports⟩

/-- What comes of a stream that is read from `source` and answered to a writer that fails as
`breakage` says, if it fails. -/
def run (p : Policy) (now : Time.Instant) (ids : Nat → Invocation) (source : Source)
    (breakage : Option Breakage) : Outcome :=
  runReads p now ids breakage {} source.reads

end RevisionRouting.Stream
