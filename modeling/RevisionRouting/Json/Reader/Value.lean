import RevisionRouting.Json.Reader.Number
import RevisionRouting.Json.Reader.Text

/-!
# Reading values

Arrays and objects are read by one loop each (`items`, `members`), which leave
it to their argument how an element is read. `value` ties the knot: its first
argument says how many containers may still be opened one inside another, and a
container at the limit is refused before its bracket. A text may nest
`nestingLimit` containers.

`Value.parse` reads a whole text. An object that names a member twice keeps the
later value.
-/

namespace RevisionRouting.Json

namespace Reader

variable {α σ : Type}

/-! ### Containers -/

/-- Whether an array goes on: the text after the comma, if one is due, or the text with the
closing bracket at its head. A comma before the bracket is refused here where the content is
wanted, and otherwise left to the reader of the next item. -/
def nextItem (purpose : Purpose) (first : Bool) : Reader Bool := fun cs =>
  match skipSpace cs with
  | [] => .error (.atEnd (.endInContainer .square))
  | c :: cs =>
    if c = ']' then .ok (false, c :: cs)
    else if first then .ok (true, c :: cs)
    else if c = ',' then
      match purpose, skipSpace cs with
      | .content, ']' :: rest => .error (.next .trailingComma (']' :: rest))
      | _, rest => .ok (true, rest)
    else .error (.next (.expectedComma .square) (c :: cs))

/-- Reads at most `fuel` items and the closing bracket. -/
def itemsUpTo (purpose : Purpose) (item : Reader α) : Nat → Bool → Reader (List α)
  | 0, _, _ => .error (.atEnd (.endInContainer .square))
  | fuel + 1, first, cs =>
    match nextItem purpose first cs with
    | .error f => .error f
    -- the bracket is still at the head of the text
    | .ok (false, rest) => .ok ([], rest.drop 1)
    | .ok (true, rest) =>
      match item rest with
      | .error f => .error f
      | .ok (a, rest) => (itemsUpTo purpose item fuel false rest).map fun r => (a :: r.1, r.2)

/-- Reads the items of an array after its opening bracket. Each takes a character at least, so the
length of the text bounds their number. -/
def items (purpose : Purpose) (item : Reader α) : Reader (List α) := fun cs =>
  itemsUpTo purpose item (cs.length + 1) true cs

/-- What a text lacks that ends after the comma of an object. -/
def endAfterComma : Purpose → Cause
  | .content => .endInValue
  | .extent => .endInContainer .curly

/-- A quote is due that opens a name. -/
def noName (purpose : Purpose) (first : Bool) : List Char → Fault
  | [] => .atEnd (if first then .endInContainer .curly else endAfterComma purpose)
  | c :: cs =>
    if c = '\x7d' ∧ !first ∧ purpose = .content then .next .trailingComma (c :: cs)
    else .next .nameNotString (c :: cs)

/-- Reads a name that is due. -/
def name (purpose : Purpose) (first : Bool) : Reader String
  | '"' :: cs => stringTail purpose cs
  | cs => .error (noName purpose first cs)

/-- The name of the next member, with the text after its closing quote; if there is none, the text
with the closing bracket at its head. -/
def nextName (purpose : Purpose) (first : Bool) : Reader (Option String) := fun cs =>
  match skipSpace cs with
  | [] => .error (.atEnd (.endInContainer .curly))
  | c :: cs =>
    if c = '\x7d' then .ok (none, c :: cs)
    else if first then (name purpose first (c :: cs)).map fun r => (some r.1, r.2)
    else if c = ',' then (name purpose first (skipSpace cs)).map fun r => (some r.1, r.2)
    else .error (.next (.expectedComma .curly) (c :: cs))

/-- Reads the colon after a name. -/
def colon : Reader Unit := fun cs =>
  match skipSpace cs with
  | [] => .error (.atEnd (.endInContainer .curly))
  | c :: cs => if c = ':' then .ok ((), cs) else .error (.next .expectedColon (c :: cs))

/-- Reads at most `fuel` members, up to the closing bracket. `member` takes a name and the text
after it, colon included, and adds the member to what has been read. -/
def membersUpTo (purpose : Purpose) (member : String → σ → Reader σ) : Nat → Bool → σ → Reader σ
  | 0, _, _, _ => .error (.atEnd (.endInContainer .curly))
  | fuel + 1, first, s, cs =>
    match nextName purpose first cs with
    | .error f => .error f
    | .ok (none, rest) => .ok (s, rest)
    | .ok (some name, rest) =>
      match member name s rest with
      | .error f => .error f
      | .ok (s, rest) => membersUpTo purpose member fuel false s rest

/-- Reads the members of an object after its opening bracket and leaves the closing one. Each
takes a character at least, so the length of the text bounds their number. -/
def members (purpose : Purpose) (member : String → σ → Reader σ) (s : σ) : Reader σ := fun cs =>
  membersUpTo purpose member (cs.length + 1) true s cs

/-! ### Values -/

/-- Reads the colon and the value of a member, and puts it after the members before it. -/
def memberValue (value : Reader α) (name : String) (ms : List (String × α)) :
    Reader (List (String × α)) := fun cs => do
  let ((), cs) ← colon cs
  let (v, cs) ← value cs
  return (ms ++ [(name, v)], cs)

/-- Reads an object after its opening bracket. -/
def objectTail (purpose : Purpose) (value : Reader Value) : Reader Members := fun cs => do
  let (ms, cs) ← members purpose (memberValue value) [] cs
  return (.ofList ms, cs.drop 1)

/-- Reads a value whose items and members are read by `nested`, if containers may be opened at
all. -/
def valueWith (purpose : Purpose) (nested : Option (Reader Value)) : Reader Value := fun cs =>
  match skipSpace cs with
  | [] => .error (.atEnd .endInValue)
  | c :: cs =>
    if c = 'n' then nullWord .null (c :: cs)
    else if c = 't' then trueWord (.bool true) (c :: cs)
    else if c = 'f' then falseWord (.bool false) (c :: cs)
    else if c = '-' ∨ c.isDigit then
      (number purpose (c :: cs)).map fun r => (.number r.1, r.2)
    else if c = '"' then (stringTail purpose cs).map fun r => (.string r.1, r.2)
    else if c = '[' then
      match nested with
      | none => .error (.next .tooDeep (c :: cs))
      | some value => (items purpose value cs).map fun r => (.array r.1, r.2)
    else if c = '\x7b' then
      match nested with
      | none => .error (.next .tooDeep (c :: cs))
      | some value => (objectTail purpose value cs).map fun r => (.object r.1, r.2)
    else .error (.next .expectedValue (c :: cs))

/-- Reads a value in which at most `depth` containers are open at a time. -/
def value (purpose : Purpose) : Nat → Reader Value
  | 0 => valueWith purpose none
  | depth + 1 => valueWith purpose (some (value purpose depth))

/-- Passes over a value. Each container takes a character, so the length of the text is no limit
to their depth. -/
def skipValue : Reader Unit := fun cs =>
  (value .extent cs.length cs).map fun r => ((), r.2)

end Reader

/-- How many containers may be open at a time. -/
def nestingLimit : Nat := 127

/-- The value that a text stands for. -/
def Value.parse (text : String) : Except Error Value :=
  (Reader.value .content nestingLimit).run text

end RevisionRouting.Json
