import RevisionRouting.Json.Reader.Basic

/-!
# Reading strings

A string is read piece by piece: each piece is a character, written as itself or
as an escape, or the closing quote (`piece`). A character beyond the basic plane
may be written as two escapes, the halves of a surrogate pair.
-/

namespace RevisionRouting.Json.Reader

/-- The character that a backslash before `c` stands for. -/
def escaped? (c : Char) : Option Char :=
  if c = '"' ∨ c = '\\' ∨ c = '/' then some c
  else if c = 'b' then some '\x08'
  else if c = 'f' then some '\x0c'
  else if c = 'n' then some '\n'
  else if c = 'r' then some '\r'
  else if c = 't' then some '\t'
  else none

/-- The value of a hexadecimal digit. -/
def hexDigit? (c : Char) : Option Nat :=
  if c.isDigit then some (c.toNat - '0'.toNat)
  else if 'a' ≤ c ∧ c ≤ 'f' then some (c.toNat - 'a'.toNat + 10)
  else if 'A' ≤ c ∧ c ≤ 'F' then some (c.toNat - 'A'.toNat + 10)
  else none

/-- The value of four hexadecimal digits. -/
def hexValue? (a b c d : Char) : Option Nat := do
  return (((← hexDigit? a) * 16 + (← hexDigit? b)) * 16 + (← hexDigit? c)) * 16 + (← hexDigit? d)

/-- Four bytes are due that are hexadecimal digits. Four bytes that are not count as consumed. -/
def noHex (cs : List Char) : Fault :=
  if Text.byteLength cs < 4 then .atEnd .endInString else ⟨.malformedEscape, cs, 4⟩

/-- Reads the four hexadecimal digits of an escape. -/
def codeUnit : Reader Nat
  | a :: b :: c :: d :: rest =>
    match hexValue? a b c d with
    | some n => .ok (n, rest)
    | none => .error (noHex (a :: b :: c :: d :: rest))
  | cs => .error (noHex cs)

/-- Whether a code unit is the first half of a surrogate pair. -/
def isLeading (n : Nat) : Bool := 0xD800 ≤ n && n ≤ 0xDBFF

/-- Whether a code unit is the second half of a surrogate pair. -/
def isTrailing (n : Nat) : Bool := 0xDC00 ≤ n && n ≤ 0xDFFF

/-- The second half of a surrogate pair is due, and no escape that could be it. -/
def noSecondHalf : List Char → Fault
  | [] => .atEnd .endInString
  | c :: cs => .next .endInSurrogatePair (c :: cs)

/-- Reads the escape that completes the pair begun by the code unit `n`. -/
def secondHalf (n : Nat) : Reader Char
  | '\\' :: cs =>
    match cs with
    | 'u' :: cs => do
      let (m, rest) ← codeUnit cs
      if isTrailing m then
        return (Char.ofNat (0x10000 + (n - 0xD800) * 0x400 + (m - 0xDC00)), rest)
      else .error (.here .loneSurrogate rest)
    | cs => .error (noSecondHalf cs)
  | cs => .error (noSecondHalf cs)

/-- Reads the digits of an escape by code unit, and the second escape if they are the first half
of a pair. -/
def unicodeEscape (purpose : Purpose) : Reader Char := fun cs => do
  let (n, rest) ← codeUnit cs
  match purpose with
  -- halves are paired only where the characters are wanted
  | .extent => return (Char.ofNat n, rest)
  | .content =>
    if isTrailing n then .error (.here .loneSurrogate rest)
    else if isLeading n then secondHalf n rest
    else return (Char.ofNat n, rest)

/-- Reads an escape after its backslash. -/
def escapeTail (purpose : Purpose) : Reader Char
  | [] => .error (.atEnd .endInString)
  | c :: cs =>
    if c = 'u' then unicodeEscape purpose cs
    else match escaped? c with
      | some e => .ok (e, cs)
      | none => .error (.next .malformedEscape (c :: cs))

/-- A raw control character counts as consumed where the content is wanted. -/
def rawControl : Purpose → List Char → Fault
  | .content, cs => .next .controlCharacter cs
  | .extent, cs => .here .controlCharacter cs

/-- Reads one character of a string, or its closing quote. -/
def piece (purpose : Purpose) : Reader (Option Char)
  | [] => .error (.atEnd .endInString)
  | c :: cs =>
    if c = '"' then .ok (none, cs)
    else if c = '\\' then (escapeTail purpose cs).map fun r => (some r.1, r.2)
    else if c.toNat < 0x20 then .error (rawControl purpose (c :: cs))
    else .ok (some c, cs)

/-- Reads at most `fuel` pieces, the last of them the closing quote. -/
def pieces (purpose : Purpose) : Nat → Reader (List Char)
  | 0, _ => .error (.atEnd .endInString)
  | fuel + 1, cs =>
    match piece purpose cs with
    | .error f => .error f
    | .ok (none, rest) => .ok ([], rest)
    | .ok (some c, rest) => (pieces purpose fuel rest).map fun r => (c :: r.1, r.2)

/-- Reads a string after its opening quote. Each piece takes a character at least, so the length
of the text bounds their number. -/
def stringTail (purpose : Purpose) : Reader String := fun cs =>
  (pieces purpose cs.length cs).map fun r => (String.ofList r.1, r.2)

end RevisionRouting.Json.Reader
