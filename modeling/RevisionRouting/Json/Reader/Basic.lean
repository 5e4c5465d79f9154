import RevisionRouting.Json.Printer
import RevisionRouting.Text.Quoted
import RevisionRouting.Text.Utf8

/-!
# Readers and their faults

A reader takes a text from its head: it returns what it read with the text that
is left, or a fault. Readers go from left to right and stop at the first fault,
so a text with two faults is refused for the first.

A reader that fails says why (`Cause`) and how far it had come: the text it had
not consumed, and how many bytes beyond that the report points (`Fault`). Seen
from the whole text that is a place, counted in lines and in bytes of the last
line (`Fault.within`), and the place with the cause is what a caller is told
(`Error`).

A report points at the byte that follows the consumed ones (`Fault.next`), at
the end of the consumed ones (`Fault.here`), or further on when the offending
bytes themselves count as consumed (`Fault.ahead`). It never points beyond the
end of the text.

A value is read either for its content or only for its extent (`Purpose`).
Passing over a value checks less: not how deep it nests, not the range of its
numbers, not whether its surrogates pair up.
-/

namespace RevisionRouting.Json

/-! ### Why a text is refused -/

/-- What was found where something of another kind was expected. -/
inductive Found where
  | null
  | bool (b : Bool)
  | number (n : Number)
  | string (s : String)
  | sequence
  | map

/-- The wording of what was found. -/
def Found.message : Found → String
  | null => "null"
  | bool b => "boolean `" ++ (if b then "true" else "false") ++ "`"
  | number (.integer n _) => "integer `" ++ String.ofList (intChars n) ++ "`"
  | number (.float x) => "floating point `" ++ String.ofList (floatChars x) ++ "`"
  | string s => "string " ++ Text.shown s
  | sequence => "sequence"
  | map => "map"

/-- The kind of bracket that a container is written with. -/
inductive Bracket where
  | square
  | curly
  deriving DecidableEq, Repr

/-- Why a text is not the JSON that a reader wants. -/
inductive Cause where
  /-- The text ends where a value is due. -/
  | endInValue
  /-- The text ends inside a string. -/
  | endInString
  /-- The text ends inside an array or an object. -/
  | endInContainer (b : Bracket)
  /-- A character that begins no value. -/
  | expectedValue
  /-- A word that begins like `null`, `true` or `false` and goes on otherwise. -/
  | expectedWord
  /-- No colon after a name. -/
  | expectedColon
  /-- Neither a comma nor the closing bracket after an element. -/
  | expectedComma (b : Bracket)
  /-- A name that is not written as a string. -/
  | nameNotString
  /-- A comma before the closing bracket. -/
  | trailingComma
  /-- Text after the value. -/
  | trailingText
  /-- A number with a digit missing, or with one too many after a leading zero. -/
  | malformedNumber
  /-- A number beyond the range of floats. -/
  | numberOutOfRange
  /-- A raw control character inside a string. -/
  | controlCharacter
  /-- A backslash before a character that it does not escape. -/
  | malformedEscape
  /-- Half a surrogate pair without the other half. -/
  | loneSurrogate
  /-- No second escape after the first half of a surrogate pair. -/
  | endInSurrogatePair
  /-- Containers nested too deeply. -/
  | tooDeep
  /-- A value of another kind than the expected one. -/
  | wrongType (found : Found) (expected : String)
  /-- A value of the right kind and outside of its range. -/
  | wrongValue (found : Found) (expected : String)
  /-- A record written as an array that is too short. -/
  | wrongLength (length : Nat) (expected : String)
  /-- A name that the record does not have. -/
  | unknownField (name : String) (known : List String)
  /-- A name given twice. -/
  | duplicateField (name : String)
  /-- A name that the record must have. -/
  | missingField (name : String)
  /-- A word that is none of the choices. -/
  | unknownChoice (name : String) (known : List String)

/-- An enumeration of names in a sentence. -/
def oneOf : List String → String
  | [a] => "`" ++ a ++ "`"
  | [a, b] => "`" ++ a ++ "` or `" ++ b ++ "`"
  | names => "one of " ++ String.intercalate ", " (names.map fun n => "`" ++ n ++ "`")

/-- The wording of a cause. -/
def Cause.message : Cause → String
  | endInValue => "EOF while parsing a value"
  | endInString => "EOF while parsing a string"
  | endInContainer .square => "EOF while parsing a list"
  | endInContainer .curly => "EOF while parsing an object"
  | expectedValue => "expected value"
  | expectedWord => "expected ident"
  | expectedColon => "expected `:`"
  | expectedComma .square => "expected `,` or `]`"
  | expectedComma .curly => "expected `,` or `\x7d`"
  | nameNotString => "key must be a string"
  | trailingComma => "trailing comma"
  | trailingText => "trailing characters"
  | malformedNumber => "invalid number"
  | numberOutOfRange => "number out of range"
  | controlCharacter => "control character (\\u0000-\\u001F) found while parsing a string"
  | malformedEscape => "invalid escape"
  | loneSurrogate => "lone leading surrogate in hex escape"
  | endInSurrogatePair => "unexpected end of hex escape"
  | tooDeep => "recursion limit exceeded"
  | wrongType found expected => "invalid type: " ++ found.message ++ ", expected " ++ expected
  | wrongValue found expected => "invalid value: " ++ found.message ++ ", expected " ++ expected
  | wrongLength n expected => "invalid length " ++ toString n ++ ", expected " ++ expected
  | unknownField name known => "unknown field `" ++ name ++ "`, expected " ++ oneOf known
  | duplicateField name => "duplicate field `" ++ name ++ "`"
  | missingField name => "missing field `" ++ name ++ "`"
  | unknownChoice name known => "unknown variant `" ++ name ++ "`, expected " ++ oneOf known

/-! ### Where a text is refused -/

/-- A refusal, as a reader reports it. -/
structure Fault where
  cause : Cause
  /-- The text that was not consumed. -/
  rest : List Char
  /-- How many bytes of `rest` the report passes over. -/
  ahead : Nat

namespace Fault

/-- A refusal at the end of what was consumed. -/
def here (cause : Cause) (rest : List Char) : Fault := ⟨cause, rest, 0⟩

/-- A refusal at the byte after what was consumed. -/
def next (cause : Cause) (rest : List Char) : Fault := ⟨cause, rest, 1⟩

/-- A refusal at the end of the whole text. -/
def atEnd (cause : Cause) : Fault := ⟨cause, [], 0⟩

end Fault

/-- A place in a text: a line, counted from 1, and a number of bytes of that line. -/
structure Position where
  line : Nat
  column : Nat
  deriving DecidableEq, Repr

/-- The place after `n` bytes of a text that begins at `p`. -/
def Position.advance (p : Position) : Nat → List Char → Position
  | _, [] => p
  | n, c :: cs =>
    if n < c.utf8Size then ⟨p.line, p.column + n⟩
    else if c = '\n' then advance ⟨p.line + 1, 0⟩ (n - 1) cs
    else advance ⟨p.line, p.column + c.utf8Size⟩ (n - c.utf8Size) cs

/-- A refusal with its place in the whole text. -/
structure Error where
  cause : Cause
  position : Position

/-- The sentence that reports a refusal. -/
def Error.message (e : Error) : String :=
  e.cause.message ++ " at line " ++ toString e.position.line ++ " column " ++
    toString e.position.column

/-- A fault seen from the whole text: the place that it points to. -/
def Fault.within (text : List Char) (f : Fault) : Error :=
  ⟨f.cause, Position.advance ⟨1, 0⟩ (Text.byteLength text - Text.byteLength f.rest + f.ahead) text⟩

/-! ### Readers -/

/-- Takes a value from the head of a text. -/
abbrev Reader (α : Type) := List Char → Except Fault (α × List Char)

/-- What a value is read for. -/
inductive Purpose where
  /-- The value is wanted. -/
  | content
  /-- The value is passed over. -/
  | extent
  deriving DecidableEq, Repr

namespace Reader

/-- Blanks may stand around every part of a text: spaces, tabs and the two line ends. -/
def isSpace (c : Char) : Bool := c = ' ' || c = '\n' || c = '\t' || c = '\r'

/-- The text after the blanks that it begins with. -/
def skipSpace (cs : List Char) : List Char := cs.dropWhile isSpace

/-- Takes the letters of `word` one by one; the result is `a`. -/
def word {α : Type} (a : α) : List Char → Reader α
  | [], cs => .ok (a, cs)
  | _ :: _, [] => .error (.atEnd .endInValue)
  | w :: ws, c :: cs => if c = w then word a ws cs else .error (.next .expectedWord (c :: cs))

/-- Reads `null`, of which the first letter has been seen. -/
def nullWord {α : Type} (a : α) : Reader α := word a ['n', 'u', 'l', 'l']

/-- Reads `true`, of which the first letter has been seen. -/
def trueWord {α : Type} (a : α) : Reader α := word a ['t', 'r', 'u', 'e']

/-- Reads `false`, of which the first letter has been seen. -/
def falseWord {α : Type} (a : α) : Reader α := word a ['f', 'a', 'l', 's', 'e']

/-- Reads the whole of a text, with blanks after the value. -/
def run {α : Type} (read : Reader α) (text : String) : Except Error α :=
  let cs := text.toList
  match read cs with
  | .error f => .error (f.within cs)
  | .ok (a, rest) =>
    match skipSpace rest with
    | [] => .ok a
    | c :: rest => .error ((Fault.next .trailingText (c :: rest)).within cs)

end Reader

end RevisionRouting.Json
