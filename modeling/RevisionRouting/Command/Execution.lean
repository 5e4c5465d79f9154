import RevisionRouting.Command.Arguments
import RevisionRouting.Command.Files
import RevisionRouting.Stream.Run

/-!
# What commands do

A command writes responses, logs records, and fails or does not (`Execution`). What
it does is a function of the files it reads, of its input and of the clock. Each
command first reads its settings; `evaluate` then looks at its inputs in a fixed
order and stops at the first that fails, before anything is routed or written.
-/

namespace RevisionRouting

/-- What a command did. -/
structure Execution where
  output : String
  /-- The records that were logged. -/
  log : List LogRecord
  failure : Option Failure

namespace Execution

/-- The exit code. -/
def exitCode (e : Execution) : Nat := if e.failure.isSome then 1 else 0

/-- What is written for people: the log, and the failure that ended the command. -/
def diagnostics (e : Execution) : String :=
  String.join (e.log.map LogRecord.line) ++
    (match e.failure with
    | none => ""
    | some f => f.text ++ "\n")

end Execution

namespace Command

/-! ### Settings -/

/-- Settings in use. -/
structure Loaded where
  settings : Settings
  policy : Policy
  /-- The least severity that is logged. -/
  least : Severity

/-- The settings in a file. -/
def loadSettings (files : Files) (path : String) : Except SettingsError Loaded := do
  let text ← (files.text path).mapError fun f => .unreadable path f.message
  let settings ← Settings.load text
  let policy ← settings.policy.mapError .invalid
  let least ← settings.severity.mapError .invalid
  return ⟨settings, policy, least⟩

/-- The settings in a file, for a command. -/
def load (files : Files) (path : String) : Except Failure Loaded :=
  (loadSettings files path).mapError .ofSettings

/-- A policy by the names and in the units of settings. -/
def policyMembers (p : Policy) : List (String × Json.Value) := [
  ("window_ms", .number (.ofUInt64 p.windowMillis.toNat.toUInt64)),
  ("soft_delete_channel", .string p.channel),
  ("soft_delete_ttl_secs", .number (.ofUInt64 p.ttlSeconds))]

/-- The record of the policy in use. -/
def policyRecord (p : Policy) : LogRecord := ⟨.info, .policyLoaded, policyMembers p⟩

/-- What is logged once settings are in use. -/
def Loaded.log (l : Loaded) : List LogRecord := keptFrom l.least [policyRecord l.policy]

/-! ### Looking at the settings -/

/-- The settings as they take effect. -/
def Loaded.members (l : Loaded) : Json.Members :=
  .ofList (policyMembers l.policy ++
    [("profile", .string l.settings.profile.name), ("log_level", .string l.settings.logLevel)])

/-- Writes the settings in a file as they take effect. -/
def runCheck (files : Files) (path : String) : Execution :=
  match load files path with
  | .error f => ⟨"", [], some f⟩
  | .ok l => ⟨(Response.ok (.object l.members)).line, [], none⟩

/-! ### One revision -/

/-- The JSON object in a file. -/
def readObject (files : Files) (path : String) : Except Failure Json.Members := do
  let text ← (files.text path).mapError fun f => .unreadable path f.message
  let v ← (Json.Value.parse text).mapError .ofJson
  (Json.Members.ofValue v).mapError .ofNotAnObject

/-- The time that a text gives. -/
def readNow (text : String) : Except Failure Time.Instant :=
  match Time.Stamp.parse text with
  | .ok stamp => .ok stamp.instant
  | .error f => .error (.ofStamp text f)

/-- The revision in some files. -/
def readRevision (files : Files) (document : String) (prior metadata : Option String) :
    Except Failure Revision := do
  let d ← readObject files document
  let p ← prior.mapM (readObject files)
  let m ← metadata.mapM (readObject files)
  return ⟨⟨d⟩, p.map .mk, (m.map .mk).getD .empty⟩

/-- The revision in some files with the time at which it is routed; `clock` is the time if none
is given. -/
def readInputs (files : Files) (clock : Time.Instant) (document : String)
    (prior metadata now : Option String) : Except Failure (Revision × Time.Instant) := do
  let r ← readRevision files document prior metadata
  let t ← now.mapM readNow
  return (r, t.getD clock)

/-- Routes the revision in some files. -/
def runEvaluate (files : Files) (clock : Time.Instant) (id : Invocation)
    (settings document : String) (prior metadata now : Option String) : Execution :=
  match load files settings with
  | .error f => ⟨"", [], some f⟩
  | .ok l =>
    match readInputs files clock document prior metadata now with
    | .error f => ⟨"", l.log, some f⟩
    | .ok (r, now) =>
      -- the policy's own record stands before what the routing reports
      let (d, reports) := l.policy.revise now id r
      ⟨(Response.ofDecision d).line, l.log ++ logOf l.least reports, none⟩

/-! ### A stream of revisions -/

/-- The record of a stream that was routed to its end. -/
def tallyRecord (t : Stream.Tally) : LogRecord :=
  ⟨.info, .streamComplete, [
    ("routed", .number (.ofNat t.routed)),
    ("resurrections", .number (.ofNat t.resurrections)),
    ("rejected", .number (.ofNat t.rejected))]⟩

/-- Routes the revisions of a stream. -/
def runStream (files : Files) (clock : Time.Instant) (ids : Nat → Invocation)
    (settings : String) (source : Stream.Source) : Execution :=
  match load files settings with
  | .error f => ⟨"", [], some f⟩
  | .ok l =>
    let o := Stream.run l.policy clock ids source none
    let log := l.log ++ logOf l.least o.reports
    match o.result with
    | .error f => ⟨o.output, log, some f⟩
    | .ok tally => ⟨o.output, log ++ keptFrom l.least [tallyRecord tally], none⟩

/-- Runs a command; the clock stands still while it does. -/
def execute (files : Files) (clock : Time.Instant) (ids : Nat → Invocation)
    (source : Stream.Source) : Command → Execution
  | .check settings => runCheck files settings
  | .evaluate settings document prior metadata now =>
    runEvaluate files clock (ids 0) settings document prior metadata now
  | .run settings => runStream files clock ids settings source

end Command

end RevisionRouting
