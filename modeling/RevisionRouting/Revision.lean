import RevisionRouting.Decision.Basic
import RevisionRouting.Json.Reader.Record
import RevisionRouting.Time.Rfc3339

/-!
# Revisions

A revision is a document with the one that it replaces, if there is one, and with
metadata. A document is a JSON object. Routing looks at three of its fields and at no
other: `channels`, the names of the channels that it is meant for; `expiry`, when
it is to be removed; and `updatedAt`, when it was last written. Content never makes
routing fail: a field with an unexpected value counts as missing.

As JSON a revision is an object with the members `doc`, `oldDoc` and `meta`,
of which only the first must be there, or an array of the three in this order.
-/

namespace RevisionRouting

/-- A value that is no JSON object stands where an object is due. -/
structure NotAnObject where
  /-- The kind of the value. -/
  kind : String
  deriving DecidableEq, Repr

namespace NotAnObject

/-- The code that a host knows the fault by. -/
def code : String := "SYNCROUTE_NOT_AN_OBJECT"

/-- The sentence that reports the fault. -/
def message (f : NotAnObject) : String := "Revision body must be a JSON object, got " ++ f.kind

end NotAnObject

/-- The members of a value that is an object. -/
def Json.Members.ofValue : Json.Value → Except NotAnObject Json.Members
  | .object ms => .ok ms
  | v => .error ⟨v.kindName⟩

/-! ### Documents -/

/-- The body of a revision. -/
structure Document where
  body : Json.Members

namespace Document

/-- The document that a JSON value is. -/
def ofValue (v : Json.Value) : Except NotAnObject Document := (Json.Members.ofValue v).map .mk

/-- A document as a JSON value. -/
def toValue (d : Document) : Json.Value := .object d.body

/-- The value of a field. -/
def get? (d : Document) (field : String) : Option Json.Value := d.body.get? field

/-- The names of channels that the value of the field `channels` holds. -/
def channelNames : Json.Value → List String
  | .string s => [s]
  | .array items => items.filterMap Json.Value.asString?
  | _ => []

/-- The channels that a document asks for: a name, or the names in an array. The empty name is
none. -/
def channels (d : Document) : Channels :=
  .ofList ((((d.get? "channels").map channelNames).getD []).filter (· ≠ ""))

/-- Whether a value counts as missing: null, false, zero or the empty text. -/
def isFalsy : Json.Value → Bool
  | .null => true
  | .bool b => !b
  | .number n => n.isZero
  | .string s => s = ""
  | .array _ => false
  | .object _ => false

/-- The expiry that a document asks for. -/
def expiry (d : Document) : Option Expiry :=
  match d.get? "expiry" with
  | none => none
  | some v => if isFalsy v then none else some (.ofValue v)

/-- The time stamp of the last change, if the document has a readable one. Blanks around it do
not matter. -/
def updatedAt (d : Document) : Option Time.Stamp := do
  let text ← (← d.get? "updatedAt").asString?
  (Time.Stamp.ofChars? (Text.trim text.toList)).toOption

end Document

/-! ### Metadata and revisions -/

/-- What a host says about a revision besides its body; routing reads none of it. -/
structure Metadata where
  fields : Json.Members

namespace Metadata

/-- No metadata. -/
def empty : Metadata := ⟨[]⟩

/-- The metadata that a JSON value is. -/
def ofValue (v : Json.Value) : Except NotAnObject Metadata := (Json.Members.ofValue v).map .mk

/-- Metadata as a JSON value. -/
def toValue (m : Metadata) : Json.Value := .object m.fields

/-- The value of a field. -/
def get? (m : Metadata) (field : String) : Option Json.Value := m.fields.get? field

end Metadata

/-- A revision that is to be routed. -/
structure Revision where
  document : Document
  /-- The document that is replaced. -/
  prior : Option Document
  metadata : Metadata

/-! ### Reading revisions -/

open Json (Reader Record RecordField)

/-- Reads a document in which at most `depth` containers are open at a time. -/
def Document.reader (depth : Nat) : Reader Document := fun cs =>
  (Reader.object depth cs).map fun r => (⟨r.1⟩, r.2)

/-- The document that a JSON text stands for. -/
def Document.parse (text : String) : Except Json.Error Document :=
  (Document.reader Json.nestingLimit).run text

/-- Reads metadata in which at most `depth` containers are open at a time. -/
def Metadata.reader (depth : Nat) : Reader Metadata := fun cs =>
  (Reader.object depth cs).map fun r => (⟨r.1⟩, r.2)

/-- The metadata that a JSON text stands for. -/
def Metadata.parse (text : String) : Except Json.Error Metadata :=
  (Metadata.reader Json.nestingLimit).run text

namespace Revision

/-- The parts of a revision that have been read. -/
structure Parts where
  document : Option Document := none
  prior : Option (Option Document) := none
  metadata : Option Metadata := none

/-- How many containers may be open at a time inside a part of a revision. -/
def partDepth : Nat := Json.nestingLimit - 1

/-- The parts in the order of declaration. -/
def parts : List (RecordField Parts) := [
  .of "doc" Parts.document (fun s d => { s with document := some d })
    (Document.reader partDepth) false,
  .of "oldDoc" Parts.prior (fun s d => { s with prior := some d })
    (Reader.optional (Document.reader partDepth)) true,
  .of "meta" Parts.metadata (fun s m => { s with metadata := some m })
    (Metadata.reader partDepth) true]

/-- The revision with the parts that have been read. -/
def ofParts (s : Parts) : Except String Revision :=
  match s.document with
  | none => .error "doc"
  | some d => .ok ⟨d, s.prior.getD none, s.metadata.getD .empty⟩

/-- How a revision is read. -/
def record : Record Parts Revision where
  expected := "struct RevisionInput"
  fields := parts
  skipsUnknown := false
  start := {}
  finish := ofParts

/-- The revision that a JSON text stands for. -/
def parse (text : String) : Except Json.Error Revision := record.parse text

end Revision

end RevisionRouting
