import RevisionRouting.Json.Reader.Record
import RevisionRouting.Report.Severity
import RevisionRouting.Resurrection.Policy

/-!
# Settings

Settings choose one of the built-in policies (`Profile`), may replace single
fields of it, and say from which severity on events are logged. `Settings.validate`
says whether they make sense; settings that do yield a policy and a severity.

Durations are limited to a hundred years. The limits are looked at before the
policy is made, so the product with the unit never leaves the range of words.

Settings are read from a JSON object whose members may all be missing, or from an
array of their values that may end early; what is missing is left at its
default. `Settings.parse` reads them, and `Settings.load` also asks whether they
make sense.
-/

namespace RevisionRouting

/-! ### What can be chosen -/

/-- A built-in policy by name. -/
inductive Profile where
  | production
  | test
  deriving DecidableEq, Repr

namespace Profile

/-- The name of a profile. -/
def name : Profile → String
  | production => "production"
  | test => "test"

/-- The policy that a profile stands for. -/
def policy : Profile → Policy
  | production => .production
  | test => .testing

end Profile

/-- What a user may choose. -/
structure Settings where
  profile : Profile := .production
  /-- The window in milliseconds, if it is not the profile's. -/
  windowMillis : Option UInt64 := none
  /-- The channel for resurrected documents, if it is not the profile's. -/
  channel : Option String := none
  /-- The time to live in seconds, if it is not the profile's. -/
  ttlSeconds : Option UInt64 := none
  /-- The name of the least severity that is logged. -/
  logLevel : String := "info"
  deriving DecidableEq

/-! ### What settings stand for -/

/-- Why settings make no sense. -/
inductive SettingsFault where
  | unknownSeverity (fault : UnknownSeverity)
  | tooLarge (field : String) (value : UInt64) (limit : Nat)
  | policy (fault : PolicyFault)
  deriving DecidableEq, Repr

namespace SettingsFault

/-- What is wrong with the settings. -/
def reason : SettingsFault → String
  | unknownSeverity f => f.message
  | tooLarge field value limit =>
    field ++ " is too large: " ++ toString value.toNat ++ " (max " ++ toString limit ++ ")"
  | policy f => f.message

/-- The sentence that reports a reason. -/
def sentence (reason : String) : String := "Invalid configuration: " ++ reason

/-- The sentence that reports a fault. -/
def message (f : SettingsFault) : String := sentence f.reason

end SettingsFault

namespace Settings

/-- The greatest duration in seconds: a hundred years of 365 days. -/
def maxSeconds : Nat := 100 * 365 * 24 * 3600

/-- The greatest duration in milliseconds. -/
def maxMillis : Nat := maxSeconds * 1000

/-- A duration in microseconds; it may be chosen in a unit of `unit` microseconds. -/
def micros (field : String) (limit unit : Nat) (default : Int64) :
    Option UInt64 → Except SettingsFault Int64
  | some value =>
    if value.toNat ≤ limit then .ok (Int64.ofNat (value.toNat * unit))
    else .error (.tooLarge field value limit)
  | none => .ok default

/-- The window in microseconds. -/
def window (s : Settings) : Except SettingsFault Int64 :=
  micros "window_ms" maxMillis 1000 s.profile.policy.window s.windowMillis

/-- The time to live in microseconds. -/
def ttl (s : Settings) : Except SettingsFault Int64 :=
  micros "soft_delete_ttl_secs" maxSeconds 1000000 s.profile.policy.ttl s.ttlSeconds

/-- The policy that the settings ask for. -/
def policy (s : Settings) : Except SettingsFault Policy := do
  let window ← s.window
  let ttl ← s.ttl
  (Policy.ofMicros window (s.channel.getD s.profile.policy.channel) ttl).mapError .policy

/-- The least severity that is logged. -/
def severity (s : Settings) : Except SettingsFault Severity :=
  (Severity.ofName s.logLevel).mapError .unknownSeverity

/-- Whether the settings make sense. -/
def validate (s : Settings) : Except SettingsFault Unit := do
  let _ ← s.severity
  let _ ← s.policy
  return ()

/-! ### Writing settings -/

/-- The value of a setting that may be left open. -/
def openValue {α : Type} (toValue : α → Json.Value) (a : Option α) : Json.Value :=
  (a.map toValue).getD .null

/-- The settings as a JSON object, in the order in which they are listed. -/
def toMembers (s : Settings) : Json.Members := [
  ("profile", .string s.profile.name),
  ("window_ms", openValue (fun n => .number (.ofUInt64 n)) s.windowMillis),
  ("soft_delete_channel", openValue .string s.channel),
  ("soft_delete_ttl_secs", openValue (fun n => .number (.ofUInt64 n)) s.ttlSeconds),
  ("log_level", .string s.logLevel)]

/-- The settings as JSON text. -/
def text (s : Settings) : String := s.toMembers.text

end Settings

/-! ### Reading settings -/

/-- Why there are no settings to be had from a file. -/
inductive SettingsError where
  /-- The file cannot be read. -/
  | unreadable (path reason : String)
  /-- The text is not that of settings. -/
  | malformed (error : Json.Error)
  /-- The settings make no sense. -/
  | invalid (fault : SettingsFault)

/-- The sentence that reports an error. -/
def SettingsError.message : SettingsError → String
  | unreadable path reason => "Failed to read config '" ++ path ++ "': " ++ reason
  | malformed e => "Invalid config JSON: " ++ e.message
  | invalid f => f.message

namespace Settings

open Json (Reader Record RecordField)

/-- The settings that have been read. -/
structure Entries where
  profile : Option Profile := none
  windowMillis : Option (Option UInt64) := none
  channel : Option (Option String) := none
  ttlSeconds : Option (Option UInt64) := none
  logLevel : Option String := none

/-- Reads the name of a profile. -/
def profileEntry : Reader Profile :=
  Reader.choice [(Profile.name .production, .production), (Profile.name .test, .test)]

/-- Reads a text. -/
def textEntry : Reader String := Reader.string "a string"

/-- The settings in the order in which they are listed. -/
def entries : List (RecordField Entries) := [
  .of "profile" Entries.profile (fun s p => { s with profile := some p }) profileEntry true,
  .of "window_ms" Entries.windowMillis (fun s n => { s with windowMillis := some n })
    (Reader.optional Reader.word64) true,
  .of "soft_delete_channel" Entries.channel (fun s c => { s with channel := some c })
    (Reader.optional textEntry) true,
  .of "soft_delete_ttl_secs" Entries.ttlSeconds (fun s n => { s with ttlSeconds := some n })
    (Reader.optional Reader.word64) true,
  .of "log_level" Entries.logLevel (fun s l => { s with logLevel := some l }) textEntry true]

/-- The settings with what has been read, and defaults for the rest. -/
def ofEntries (s : Entries) : Settings :=
  let default : Settings := {}
  { profile := s.profile.getD default.profile
    windowMillis := s.windowMillis.getD default.windowMillis
    channel := s.channel.getD default.channel
    ttlSeconds := s.ttlSeconds.getD default.ttlSeconds
    logLevel := s.logLevel.getD default.logLevel }

/-- How settings are read. -/
def record : Record Entries Settings where
  expected := "struct RouterConfig"
  fields := entries
  skipsUnknown := false
  start := {}
  finish s := .ok (ofEntries s)

/-- The settings that a JSON text stands for, whether they make sense or not. -/
def parse (text : String) : Except Json.Error Settings := record.parse text

/-- The settings that a JSON text stands for, if they make sense. -/
def load (text : String) : Except SettingsError Settings := do
  let s ← (parse text).mapError .malformed
  s.validate.mapError .invalid
  return s

end Settings

end RevisionRouting
