import RevisionRouting.Decision.Basic
import RevisionRouting.Revision
import RevisionRouting.Settings
import RevisionRouting.Text.Utf8

/-!
# Failures and responses

A command that cannot go on fails with a code, which a host can act on, and a
message for people. Each kind of error inside the library becomes a failure of
one code.

Each input is answered by a line of JSON: an object with a status and with the
answer, or with the code and message of what went wrong (`Response.line_ok`,
`Response.line_error`).
-/

namespace RevisionRouting

/-! ### Failures -/

/-- What a command failed at. -/
inductive FailureKind where
  | settings
  | io
  | input
  | timestamp
  deriving DecidableEq, Repr

/-- The code of a kind of failure. -/
def FailureKind.code : FailureKind → String
  | settings => "SYNCROUTE_CLI_CONFIG_ERROR"
  | io => "SYNCROUTE_CLI_IO_ERROR"
  | input => "SYNCROUTE_CLI_INVALID_INPUT"
  | timestamp => "SYNCROUTE_CLI_INVALID_TIMESTAMP"

/-- A failed command. -/
structure Failure where
  kind : FailureKind
  message : String
  deriving DecidableEq, Repr

namespace Failure

/-- The code of a failure. -/
def code (f : Failure) : String := f.kind.code

/-- The line that shows a failure to a user. -/
def text (f : Failure) : String := f.code ++ ": " ++ f.message

/-- The settings cannot be had. -/
def ofSettings (e : SettingsError) : Failure := ⟨.settings, e.message⟩

/-- Reading or writing failed. -/
def ofIo (reason : String) : Failure := ⟨.io, reason⟩

/-- A file cannot be read. -/
def unreadable (path reason : String) : Failure :=
  ofIo ("Failed to read '" ++ path ++ "': " ++ reason)

/-- JSON failed for the given reason. -/
def json (reason : String) : Failure := ⟨.input, "JSON error: " ++ reason⟩

/-- A text is not the JSON that is due. -/
def ofJson (e : Json.Error) : Failure := json e.message

/-- A value is no object. -/
def ofNotAnObject (f : NotAnObject) : Failure := ⟨.input, f.message⟩

/-- A line is not UTF-8. -/
def ofUtf8 (f : Text.Utf8.Fault) : Failure := ⟨.input, "line is not valid UTF-8: " ++ f.message⟩

/-- A text is no time stamp, for the given reason. -/
def badTimestamp (text reason : String) : Failure :=
  ⟨.timestamp, "'" ++ text ++ "' is not an RFC 3339 timestamp: " ++ reason⟩

/-- A text is no time stamp. -/
def ofStamp (text : String) (f : Time.StampFault) : Failure := badTimestamp text f.message

end Failure

/-! ### Responses -/

/-- The answer to an input. -/
inductive Response where
  | ok (data : Json.Value)
  | error (code message : String)

namespace Response

/-- The answer that an input is not accepted. -/
def ofFailure (f : Failure) : Response := .error f.code f.message

/-- The answer that a revision is routed. -/
def ofDecision (d : Decision) : Response := .ok d.toValue

/-- A response as a JSON object. -/
def members : Response → Json.Members
  | ok data => [("data", data), ("status", .string "ok")]
  | error code message =>
    [("code", .string code), ("message", .string message), ("status", .string "error")]

/-- The text of a response, less its line end. -/
def text (r : Response) : String := r.members.text

/-- The line of a response. -/
def line (r : Response) : String := r.text ++ "\n"

section Line

open Json

/-- The words that responses are made of need no escapes. -/
theorem quotedString_of_mem {word : String}
    (h : word ∈ ["code", "data", "error", "message", "ok", "status"]) :
    quotedString word = '"' :: word.toList ++ ['"'] := by
  revert word
  decide

/-- **The line that answers.** -/
theorem line_ok (data : Json.Value) :
    (ok data).line = "\x7b\"data\":" ++ data.text ++ ",\"status\":\"ok\"\x7d\n" := by
  refine String.toList_inj.1 ?_
  simp [line, text, members, Members.text, Json.Value.text, Json.Value.chars, memberTexts,
    memberChars, bracketed, quotedString_of_mem]

/-- **The line that reports an error.** -/
theorem line_error (code message : String) : (error code message).line =
    "\x7b\"code\":" ++ (Json.Value.string code).text ++ ",\"message\":" ++
      (Json.Value.string message).text ++ ",\"status\":\"error\"\x7d\n" := by
  refine String.toList_inj.1 ?_
  simp [line, text, members, Members.text, Json.Value.text, Json.Value.chars, memberTexts,
    memberChars, bracketed, quotedString_of_mem]

theorem line_ofDecision (d : Decision) : (ofDecision d).line =
    "\x7b\"data\":" ++ d.toValue.text ++ ",\"status\":\"ok\"\x7d\n" := line_ok d.toValue

theorem line_ofFailure (f : Failure) : (ofFailure f).line =
    "\x7b\"code\":" ++ (Json.Value.string f.code).text ++ ",\"message\":" ++
      (Json.Value.string f.message).text ++ ",\"status\":\"error\"\x7d\n" :=
  line_error f.code f.message

end Line

end Response

end RevisionRouting
