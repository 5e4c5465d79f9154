import RevisionRouting.Text.Character
import RevisionRouting.Text.Utf8
import RevisionRouting.Time.Stamp

/-!
# Time stamps as text

The format of RFC 3339: date, `T`, time of day with an optional fraction, and the
offset from universal time. `Stamp.parse` reads it, from left to right, and
`Stamp.text` writes it. Reading is lenient where the format is: `t` or a space
for `T`, `z` for `Z`, the typographic minus sign for `-`, and digits beyond the
ninth of a fraction are dropped.
-/

namespace RevisionRouting.Time

/-- Why a text is no time stamp. -/
inductive StampFault where
  /-- A date or time of day that does not exist, or an offset of a day or more. -/
  | outOfRange
  /-- A character that is not one that the format has in its place. -/
  | malformed
  /-- The text ends too early. -/
  | tooShort
  /-- There is text after the time stamp. -/
  | tooLong
  deriving DecidableEq, Repr

/-- The wording of a fault. -/
def StampFault.message : StampFault → String
  | outOfRange => "input is out of range"
  | malformed => "input contains invalid characters"
  | tooShort => "premature end of input"
  | tooLong => "trailing input"

namespace Stamp

/-! ### Reading -/

/-- Reads a part of a time stamp. -/
abbrev Part (α : Type) := List Char → Except StampFault (α × List Char)

/-- Reads exactly `n` digits. -/
def digits : Nat → Nat → Part Nat
  | 0, acc, cs => .ok (acc, cs)
  | n + 1, acc, c :: cs =>
    if c.isDigit then digits n (acc * 10 + Text.digitValue c) cs else .error .malformed
  | _ + 1, _, [] => .error .malformed

/-- Reads one of the given characters. -/
def mark (marks : List Char) : Part Unit
  | c :: cs => if marks.contains c then .ok ((), cs) else .error .malformed
  | [] => .error .malformed

/-- Reads a date that exists. -/
def datePart : Part Date := fun cs => do
  let (year, cs) ← digits 4 0 cs
  let ((), cs) ← mark ['-'] cs
  let (month, cs) ← digits 2 0 cs
  let ((), cs) ← mark ['-'] cs
  let (day, cs) ← digits 2 0 cs
  if Date.Exists ⟨year, month, day⟩ then return (⟨year, month, day⟩, cs) else .error .outOfRange

/-- Reads the fraction of a second in nanoseconds, if there is one. -/
def fractionPart : Part Nat
  | '.' :: cs =>
    match cs with
    | [] => .error .tooShort
    | c :: rest =>
      if c.isDigit then
        -- all digits are consumed, the first nine of them count
        let ds := ((c :: rest).takeWhile Char.isDigit).take 9
        let value := ds.foldl (fun acc d => acc * 10 + Text.digitValue d) 0
        .ok (value * Text.tenTo (9 - ds.length), (c :: rest).dropWhile Char.isDigit)
      else .error .malformed
  | cs => .ok (0, cs)

/-- Reads a time of day. Whether it exists is asked after the fraction has been read. -/
def timePart : Part TimeOfDay := fun cs => do
  let (hour, cs) ← digits 2 0 cs
  let ((), cs) ← mark [':'] cs
  let (minute, cs) ← digits 2 0 cs
  let ((), cs) ← mark [':'] cs
  let (second, cs) ← digits 2 0 cs
  let (nanos, cs) ← fractionPart cs
  match TimeOfDay.ofFields? hour minute second nanos with
  | some t => return (t, cs)
  | none => .error .outOfRange

/-- Two bytes are due that are digits. -/
def twoDigits : Part Nat := fun cs =>
  if Text.byteLength cs < 2 then .error .tooShort else digits 2 0 cs

/-- Reads the colon of an offset. -/
def offsetColon : Part Unit
  | [] => .error .tooShort
  | cs => mark [':'] cs

/-- The minutes of an offset, which are less than an hour. -/
def offsetMinutes : Part Nat := fun cs => do
  let (minutes, rest) ← twoDigits cs
  if minutes < 60 then return (minutes, rest) else .error .outOfRange

/-- Reads an offset after its sign, in minutes. -/
def unsignedOffset : Part Nat := fun cs => do
  let (hours, cs) ← twoDigits cs
  let ((), cs) ← offsetColon cs
  let (minutes, cs) ← offsetMinutes cs
  return (hours * 60 + minutes, cs)

/-- Reads an offset in minutes. -/
def offsetPart : Part Int
  | [] => .error .tooShort
  | c :: cs =>
    if c = 'Z' ∨ c = 'z' then .ok (0, cs)
    else if c = '+' then (unsignedOffset cs).map fun r => (Int.ofNat r.1, r.2)
    else if c = '-' ∨ c = '\u2212' then (unsignedOffset cs).map fun r => (-Int.ofNat r.1, r.2)
    else .error .malformed

/-- The least number of bytes of a time stamp less its offset. -/
def leastLength : Nat := 19

/-- The time stamp that a text stands for. -/
def ofChars? (cs : List Char) : Except StampFault Stamp := do
  if Text.byteLength cs < leastLength then .error .tooShort else
  let (date, cs) ← datePart cs
  let ((), cs) ← mark ['T', 't', ' '] cs
  let (time, cs) ← timePart cs
  let (offset, cs) ← offsetPart cs
  -- the range of the offset comes last: a text that goes on is too long whatever its offset
  if !cs.isEmpty then .error .tooLong
  else if offset.natAbs < 24 * 60 then return ⟨date, time, offset⟩
  else .error .outOfRange

/-- The time stamp that a text stands for. -/
def parse (text : String) : Except StampFault Stamp := ofChars? text.toList

/-! ### Writing -/

/-- A fraction of a second with the fewest digits that hold it, in groups of three. -/
def fractionChars (nanos : Nat) : List Char :=
  if nanos = 0 then []
  else if nanos % 1000000 = 0 then '.' :: Text.padded 3 (nanos / 1000000)
  else if nanos % 1000 = 0 then '.' :: Text.padded 6 (nanos / 1000)
  else '.' :: Text.padded 9 nanos

/-- An offset as a sign, hours and minutes. -/
def offsetChars (offset : Int) : List Char :=
  (if offset < 0 then '-' else '+') ::
    (Text.padded 2 (offset.natAbs / 60) ++ ':' :: Text.padded 2 (offset.natAbs % 60))

/-- A date in digits. -/
def dateChars (d : Date) : List Char :=
  Text.padded 4 d.year ++ '-' :: Text.padded 2 d.month ++ '-' :: Text.padded 2 d.day

/-- A time of day in digits; a leap second is second 60. -/
def timeChars (t : TimeOfDay) : List Char :=
  let second := if 1000000000 ≤ t.nanos then t.second + 1 else t.second
  Text.padded 2 t.hour ++ ':' :: Text.padded 2 t.minute ++ ':' :: Text.padded 2 second ++
    fractionChars (t.nanos % 1000000000)

/-- The text of a time stamp. -/
def text (s : Stamp) : String :=
  String.ofList (dateChars s.date ++ 'T' :: timeChars s.time ++ offsetChars s.offset)

end Stamp

end RevisionRouting.Time
