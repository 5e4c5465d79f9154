import RevisionRouting.Json.Reader.Value

/-!
# Reading values of a known type

A reader of one kind of value reports a value of another kind as a mismatch: a
scalar after it has been read, a container before its bracket (`mismatch`).
-/

namespace RevisionRouting.Json

/-- A value as a mismatch reports it. -/
def Found.ofValue : Value → Found
  | .null => .null
  | .bool b => .bool b
  | .number n => .number n
  | .string s => .string s
  | .array _ => .sequence
  | .object _ => .map

namespace Reader

variable {α : Type}

/-- The fault of a text that begins with a value of another kind than the expected one. -/
def mismatch (expected : String) : List Char → Fault
  | '[' :: cs => .here (.wrongType .sequence expected) ('[' :: cs)
  | '\x7b' :: cs => .here (.wrongType .map expected) ('\x7b' :: cs)
  | cs =>
    match value .content 0 cs with
    | .error f => f
    | .ok (v, rest) => .here (.wrongType (.ofValue v) expected) rest

/-! ### Scalars and collections -/

/-- Reads a boolean. -/
def boolean : Reader Bool := fun cs =>
  match skipSpace cs with
  | 't' :: cs => trueWord true ('t' :: cs)
  | 'f' :: cs => falseWord false ('f' :: cs)
  | cs => .error (mismatch "a boolean" cs)

/-- Reads a string. -/
def string (expected : String) : Reader String := fun cs =>
  match skipSpace cs with
  | '"' :: cs => stringTail .content cs
  | cs => .error (mismatch expected cs)

/-- Reads an unsigned word. A negative integer is of the right kind and out of range. -/
def word64 : Reader UInt64 := fun cs => do
  let cs := skipSpace cs
  match cs with
  | c :: _ =>
    if c = '-' ∨ c.isDigit then
      let (n, rest) ← number .content cs
      match n, n.toUInt64? with
      | _, some w => return (w, rest)
      | .integer i h, none => .error (.here (.wrongValue (.number (.integer i h)) "u64") rest)
      | .float x, none => .error (.here (.wrongType (.number (.float x)) "u64") rest)
    else .error (mismatch "u64" cs)
  | [] => .error (mismatch "u64" [])

/-- Reads `null` as nothing and every other value by `read`. -/
def optional (read : Reader α) : Reader (Option α) := fun cs =>
  match skipSpace cs with
  | 'n' :: cs => nullWord none ('n' :: cs)
  | cs => (read cs).map fun r => (some r.1, r.2)

/-- Reads an array whose items are read by `item`. -/
def list (item : Reader α) : Reader (List α) := fun cs =>
  match skipSpace cs with
  | '[' :: cs => items .content item cs
  | cs => .error (mismatch "a sequence" cs)

/-- Reads an object in which at most `depth` containers are open at a time, itself included. -/
def object (depth : Nat) : Reader Members := fun cs =>
  match skipSpace cs with
  | '\x7b' :: cs =>
    match depth with
    | 0 => .error (.next .tooDeep ('\x7b' :: cs))
    | depth + 1 => objectTail .content (value .content depth) cs
  | cs => .error (mismatch "a map" cs)

/-- The choice with a given name. -/
def chosen (choices : List (String × α)) (name : String) (rest : List Char) :
    Except Fault (α × List Char) :=
  match choices.lookup name with
  | some a => .ok (a, rest)
  | none => .error (.here (.unknownChoice name (choices.map Prod.fst)) rest)

/-- Reads the `null` that stands for the content of a choice. -/
def unit : Reader Unit := fun cs =>
  match skipSpace cs with
  | 'n' :: cs => nullWord () ('n' :: cs)
  | cs => .error (mismatch "unit" cs)

/-- Reads one of some choices, written as its name or as an object with that name and `null`. -/
def choice (choices : List (String × α)) : Reader α := fun cs => do
  match skipSpace cs with
  | [] => .error (.atEnd .endInValue)
  | '"' :: cs =>
    let (name, rest) ← stringTail .content cs
    chosen choices name rest
  | '\x7b' :: cs =>
    match ← nextName .content true cs with
    | (none, rest) => .error (.next .expectedValue rest)
    | (some name, rest) =>
      let (a, rest) ← chosen choices name rest
      let ((), rest) ← colon rest
      let ((), rest) ← unit rest
      match skipSpace rest with
      | [] => .error (.atEnd (.endInContainer .curly))
      | '\x7d' :: rest => return (a, rest)
      | rest => .error (.here .expectedValue rest)
  | cs => .error (.next .expectedValue cs)

end Reader

end RevisionRouting.Json
