import RevisionRouting.Command.Arguments
import RevisionRouting.Command.Execution

/-!
# The program

The outermost layer: it reads files, lines and the clock, hands them to the
library, and writes what the library answers. A stream is answered line by line
as it comes.
-/

namespace RevisionRouting.Program

/-! ### Reading -/

/-- The number by which the system knows an error; some layers negate it. -/
def errorNumber (code : UInt32) : UInt32 := if code < 0x80000000 then code else -code

/-- A file that cannot be read, as the system reports it. -/
def readFault : IO.Error → ReadFault
  | .noFileOrDirectory _ _ _ => .missing
  | .inappropriateType _ code details =>
    if errorNumber code = 20 then .notDirectory
    else if errorNumber code = 21 then .isDirectory
    else .other details
  | .invalidArgument _ code details =>
    if errorNumber code = 36 then .nameTooLong else .other details
  | .permissionDenied _ _ _ => .other "Permission denied (os error 13)"
  | e => .other (toString e)

/-- The contents of a file. -/
def readFile (path : String) : IO (Except ReadFault (List UInt8)) := do
  try
    return .ok (← IO.FS.readBinFile path).toList
  catch e => return .error (readFault e)

/-- The files that a command looks at. -/
def pathsOf : Command → List String
  | .check settings => [settings]
  | .evaluate settings document prior metadata _ =>
    settings :: document :: (prior.toList ++ metadata.toList)
  | .run settings => [settings]

/-- The contents of the given files. -/
def readFiles (paths : List String) : IO Files := do
  let contents ← paths.mapM fun path => return (path, ← readFile path)
  return fun path => (contents.lookup path).getD (.error .missing)

/-- A clock that was set once and runs on. -/
structure Clock where
  /-- The nanoseconds since the beginning of 1970 at which the clock was set. -/
  set : Int
  /-- The steady count of nanoseconds at the same time. -/
  steady : Nat

/-- A clock set by the system, which writes its time on every new file. -/
def Clock.start : IO Clock := do
  let (_, path) ← IO.FS.createTempFile
  let written := (← path.metadata).modified
  IO.FS.removeFile path
  return ⟨written.sec * 1000000000 + written.nsec.toNat, ← IO.monoNanosNow⟩

/-- The time that a clock shows. -/
def Clock.now (c : Clock) : IO Time.Instant := do
  let nanos := c.set + ((← IO.monoNanosNow) - c.steady : Nat)
  return ⟨nanos / 1000000000, (nanos % 1000000000).toNat, by omega⟩

/-- A mark that no invocation had before. -/
def freshInvocation : IO Invocation :=
  return .ofRandom (← IO.getRandomBytes 16).toList

/-- The bytes up to the next line end, and whether there was one. -/
partial def readBytes (input : IO.FS.Stream) (bytes : ByteArray) : IO (ByteArray × Bool) := do
  let next ← input.read 1
  match next[0]? with
  | none => return (bytes, false)
  | some b => if b = Stream.lineFeed then return (bytes, true) else readBytes input (bytes.push b)

/-- The next line that is not blank, or the end of the input. -/
partial def readNext (input : IO.FS.Stream) : IO Stream.Read := do
  match ← (readBytes input .empty).toBaseIO with
  | .error e => return .failed (toString e)
  | .ok (bytes, terminated) =>
    if bytes.isEmpty && !terminated then return .finished
    match Stream.lineIn bytes.toList with
    | some line => return .line line
    | none => readNext input

/-! ### Writing -/

/-- Writes log records; a log that cannot be written disturbs nothing. -/
def writeLog (records : List LogRecord) : IO Unit := do
  try
    let err ← IO.getStderr
    err.putStr (String.join (records.map LogRecord.line))
    err.flush
  catch _ => return ()

/-- Takes one of the steps of writing a response. -/
def writeStep (step : Stream.WriteStep) (act : IO Unit) : ExceptT Failure IO Unit := do
  match ← act.toBaseIO with
  | .ok () => return ()
  | .error e => throw (Stream.Breakage.failure ⟨step, 0, toString e⟩)

/-- Writes a response and hands it over. -/
def writeResponse (r : Response) : ExceptT Failure IO Unit := do
  let out ← IO.getStdout
  writeStep .text (out.putStr r.text)
  writeStep .lineEnd (out.putStr "\n")
  writeStep .flush out.flush

/-! ### Commands -/

/-- Takes the turns of a stream over what the input brings. -/
partial def serve (clock : Clock) (input : IO.FS.Stream) (l : Command.Loaded)
    (tally : Stream.Tally) : ExceptT Failure IO Stream.Tally := do
  let read ← readNext input
  let answer := Stream.answer l.policy (← clock.now) (← freshInvocation) tally
  match Stream.turn answer tally read with
  | .stop result => return (← result)
  | .answer a =>
    writeLog (logOf l.least a.reports)
    writeResponse a.response
    serve clock input l a.tally

/-- Routes a stream from its settings to its account. -/
def runStream (files : Files) (settings : String) : ExceptT Failure IO Unit := do
  let l ← Command.load files settings
  writeLog l.log
  let tally ← serve (← Clock.start) (← IO.getStdin) l {}
  writeLog (keptFrom l.least [Command.tallyRecord tally])

/-- Runs a command that reads no input. -/
def runOnce (files : Files) (c : Command) : ExceptT Failure IO Unit := do
  let id ← freshInvocation
  let x := c.execute files (← (← Clock.start).now) (fun _ => id) ⟨[], none⟩
  writeLog x.log
  let out ← IO.getStdout
  writeStep .text (out.putStr x.output)
  writeStep .flush out.flush
  match x.failure with
  | some f => throw f
  | none => return ()

/-- Runs a command; the result is the exit code. -/
def runCommand (c : Command) : IO UInt32 := do
  let files ← readFiles (pathsOf c)
  let result ← match c with
    | .run settings => (runStream files settings).run
    | c => (runOnce files c).run
  match result with
  | .ok () => return 0
  | .error f =>
    (← IO.getStderr).putStrLn f.text
    return 1

end RevisionRouting.Program

open RevisionRouting in
/-- Does what the command line asks for. -/
def main (arguments : List String) : IO UInt32 := do
  match Command.ofArguments arguments with
  | .ok c => Program.runCommand c
  | .error f =>
    let out ← if f.exitCode = 0 then IO.getStdout else IO.getStderr
    out.putStr f.text
    return f.exitCode.toUInt32
