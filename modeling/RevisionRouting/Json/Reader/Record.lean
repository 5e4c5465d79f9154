import RevisionRouting.Json.Reader.Typed

/-!
# Reading records

A record (`Record`) is written as an object of its fields, in any order, or as an
array of them in the order of declaration. Whether a name is given twice, is not
known or is missing is reported at the place where the record could be left: a
closing bracket that comes next counts as consumed (`leave`).
-/

namespace RevisionRouting.Json

open Reader

variable {α β σ : Type}

/-- A field of a record; `σ` holds what has been read of it. -/
structure RecordField (σ : Type) where
  name : String
  /-- Whether the field has been read. -/
  isRead : σ → Bool
  /-- Reads the value of the field. -/
  read : σ → Reader σ
  /-- Whether an array may end before the field. -/
  mayEndBefore : Bool

/-- The field whose value `read` reads; `get` and `set` say where it is kept. -/
def RecordField.of (name : String) (get : σ → Option β) (set : σ → β → σ) (read : Reader β)
    (mayEndBefore : Bool) : RecordField σ where
  name := name
  isRead s := (get s).isSome
  read s cs := (read cs).map fun r => (set s r.1, r.2)
  mayEndBefore := mayEndBefore

/-- How a record is read. -/
structure Record (σ α : Type) where
  /-- The record as mismatches call it. -/
  expected : String
  /-- Its fields in the order of declaration. -/
  fields : List (RecordField σ)
  /-- Whether unknown members are passed over. -/
  skipsUnknown : Bool
  /-- What is known before anything is read. -/
  start : σ
  /-- The record, or the name of the first field that is missing. -/
  finish : σ → Except String α

/-- The text after the blanks and the closing bracket, if that is what comes next. -/
def Reader.leave (closing : Char) (cs : List Char) : List Char :=
  match skipSpace cs with
  | [] => []
  | c :: cs => if c = closing then cs else c :: cs

namespace Record

/-- Reads the value of the member called `name`. -/
def member (r : Record σ α) (name : String) (s : σ) : Reader σ := fun cs =>
  match r.fields.find? fun f => f.name = name with
  | some f =>
    if f.isRead s then .error (.here (.duplicateField name) (leave '\x7d' cs))
    else do
      let ((), cs) ← colon cs
      f.read s cs
  | none =>
    if r.skipsUnknown then do
      let ((), cs) ← colon cs
      let ((), cs) ← skipValue cs
      return (s, cs)
    else .error (.here (.unknownField name (r.fields.map RecordField.name)) (leave '\x7d' cs))

/-- Reads a record written as an object, after its opening bracket. -/
def readObject (r : Record σ α) : Reader α := fun cs => do
  let (s, cs) ← members .content r.member r.start cs
  match r.finish s with
  | .ok a => return (a, cs.drop 1)
  | .error name => .error (.here (.missingField name) (leave '\x7d' cs))

/-- Reads the given fields from an array; `position` counts the fields before them. -/
def readFields (r : Record σ α) : List (RecordField σ) → Nat → σ → Reader σ
  | [], _, s, cs => .ok (s, cs)
  | f :: fs, position, s, cs => do
    let (more, cs) ← nextItem .content (position = 0) cs
    if more then
      let (s, cs) ← f.read s cs
      r.readFields fs (position + 1) s cs
    else if f.mayEndBefore then r.readFields fs (position + 1) s cs
    else
      let expected := r.expected ++ " with " ++ toString r.fields.length ++ " elements"
      .error (.here (.wrongLength position expected) (leave ']' cs))

/-- Reads the closing bracket of an array that can hold no further item. -/
def closeArray : Reader Unit := fun cs =>
  match skipSpace cs with
  | [] => .error (.atEnd (.endInContainer .square))
  | ']' :: cs => .ok ((), cs)
  | ',' :: cs =>
    match skipSpace cs with
    | ']' :: cs => .error (.next .trailingComma (']' :: cs))
    | cs => .error (.next .trailingText cs)
  | cs => .error (.next .trailingText cs)

/-- Reads a record written as an array, after its opening bracket. -/
def readArray (r : Record σ α) : Reader α := fun cs => do
  let (s, cs) ← r.readFields r.fields 0 r.start cs
  match r.finish s with
  | .ok a =>
    let ((), cs) ← closeArray cs
    return (a, cs)
  | .error name => .error (.here (.missingField name) (leave ']' cs))

/-- Reads a record. -/
def read (r : Record σ α) : Reader α := fun cs =>
  match skipSpace cs with
  | '\x7b' :: cs => r.readObject cs
  | '[' :: cs => r.readArray cs
  | cs => .error (mismatch r.expected cs)

/-- The record that a text stands for. -/
def parse (r : Record σ α) (text : String) : Except Error α := r.read.run text

end Record

end RevisionRouting.Json
