import RevisionRouting.Decision.Basic
import RevisionRouting.Json.Reader.Record

/-!
# Reading decisions

A decision is read from the object that `Decision.toValue` writes. Members that
it does not know are passed over; the expiry may be missing or `null`.
-/

namespace RevisionRouting.Decision

open Json (Reader Record RecordField)

/-- The fields of a decision that have been read. -/
structure Fields where
  channels : Option Channels := none
  expiry : Option (Option Expiry) := none
  shortCircuited : Option Bool := none

/-- Reads a set of channels. -/
def channelSet : Reader Channels := fun cs =>
  (Reader.list (Reader.string "a string") cs).map fun r => (.ofList r.1, r.2)

/-- Reads an expiry. -/
def expiryValue : Reader Expiry := fun cs =>
  (Reader.value .content (Json.nestingLimit - 1) cs).map fun r => (.ofValue r.1, r.2)

/-- The fields in the order of declaration. -/
def fields : List (RecordField Fields) := [
  .of "channels" Fields.channels (fun s c => { s with channels := some c }) channelSet false,
  .of "expiry" Fields.expiry (fun s e => { s with expiry := some e })
    (Reader.optional expiryValue) false,
  .of "shortCircuited" Fields.shortCircuited (fun s b => { s with shortCircuited := some b })
    Reader.boolean false]

/-- The decision with the fields that have been read, or the name of the first that is missing. -/
def ofFields (s : Fields) : Except String Decision := do
  let channels ← s.channels.elim (.error "channels") .ok
  let shortCircuited ← s.shortCircuited.elim (.error "shortCircuited") .ok
  return ⟨channels, s.expiry.getD none, shortCircuited⟩

/-- How a decision is read. -/
def record : Record Fields Decision where
  expected := "struct Decision"
  fields := fields
  skipsUnknown := true
  start := {}
  finish := ofFields

/-- The decision that a JSON text stands for. -/
def parse (text : String) : Except Json.Error Decision := record.parse text

end RevisionRouting.Decision
