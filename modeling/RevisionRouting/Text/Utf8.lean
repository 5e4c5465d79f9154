/-!
# Reading UTF-8

`decode` turns bytes into characters. It refuses at the first place where no
well-formed sequence begins, and says how far the bytes were good and how many
bytes the offending sequence spans: the longest start of a well-formed sequence
found there, at least one byte, or no count at all when the bytes end inside a
sequence that is well formed so far.

`encode` is the other direction: the bytes that stand for characters.
-/

namespace RevisionRouting.Text

/-- The number of bytes of a text. -/
def byteLength : List Char → Nat
  | [] => 0
  | c :: cs => c.utf8Size + byteLength cs

namespace Utf8

/-- Where and how bytes fail to be UTF-8. -/
structure Fault where
  /-- The number of bytes before the offending sequence. -/
  validLength : Nat
  /-- The length of the offending sequence, or `none` if the bytes end inside it. -/
  span : Option Nat
  deriving DecidableEq, Repr

/-- The sentence that reports a fault. -/
def Fault.message (f : Fault) : String :=
  match f.span with
  | some n => "invalid utf-8 sequence of " ++ toString n ++ " bytes from index " ++
      toString f.validLength
  | none => "incomplete utf-8 byte sequence from index " ++ toString f.validLength

/-- Whether `b` can continue a sequence. -/
def isContinuation (b : UInt8) : Bool := 0x80 ≤ b && b ≤ 0xBF

/-- Whether `b` can be the second byte after the lead byte `a` of a sequence of three: the
range is cut where the sequence would be overlong or would name a surrogate. -/
def isSecondOfThree (a b : UInt8) : Bool :=
  if a = 0xE0 then 0xA0 ≤ b && b ≤ 0xBF
  else if a = 0xED then 0x80 ≤ b && b ≤ 0x9F
  else isContinuation b

/-- Whether `b` can be the second byte after the lead byte `a` of a sequence of four: the
range is cut where the sequence would be overlong or would pass the last code point. -/
def isSecondOfFour (a b : UInt8) : Bool :=
  if a = 0xF0 then 0x90 ≤ b && b ≤ 0xBF
  else if a = 0xF4 then 0x80 ≤ b && b ≤ 0x8F
  else isContinuation b

/-- The six bits that a continuation byte carries. -/
def payload (b : UInt8) : Nat := b.toNat % 0x40

/-- The outcome of reading one character at the head of some bytes. -/
inductive Step where
  /-- A character, and the bytes after it. -/
  | char (c : Char) (rest : List UInt8)
  /-- An offending sequence with its span. -/
  | fault (span : Option Nat)

/-- Reads a sequence of two with lead byte `a`. -/
def two (a : UInt8) : List UInt8 → Step
  | [] => .fault none
  | b :: rest =>
    if isContinuation b then .char (Char.ofNat (a.toNat % 0x20 * 0x40 + payload b)) rest
    else .fault (some 1)

/-- Reads a sequence of three with lead byte `a`. -/
def three (a : UInt8) : List UInt8 → Step
  | [] => .fault none
  | b :: rest =>
    if !isSecondOfThree a b then .fault (some 1) else
    match rest with
    | [] => .fault none
    | c :: rest =>
      if isContinuation c then
        .char (Char.ofNat (a.toNat % 0x10 * 0x1000 + payload b * 0x40 + payload c)) rest
      else .fault (some 2)

/-- Reads a sequence of four with lead byte `a`. -/
def four (a : UInt8) : List UInt8 → Step
  | [] => .fault none
  | b :: rest =>
    if !isSecondOfFour a b then .fault (some 1) else
    match rest with
    | [] => .fault none
    | c :: rest =>
      if !isContinuation c then .fault (some 2) else
      match rest with
      | [] => .fault none
      | d :: rest =>
        if isContinuation d then
          .char (Char.ofNat (a.toNat % 0x08 * 0x40000 + payload b * 0x1000 + payload c * 0x40 +
            payload d)) rest
        else .fault (some 3)

/-- Reads the character whose lead byte is `a`. -/
def step (a : UInt8) (rest : List UInt8) : Step :=
  if a ≤ 0x7F then .char (Char.ofNat a.toNat) rest
  else if 0xC2 ≤ a && a ≤ 0xDF then two a rest
  else if 0xE0 ≤ a && a ≤ 0xEF then three a rest
  else if 0xF0 ≤ a && a ≤ 0xF4 then four a rest
  else .fault (some 1)

/-- `decode` on the bytes that follow `done` good ones; the first argument bounds the number of
characters. -/
def decodeFrom : Nat → Nat → List UInt8 → Except Fault (List Char)
  | _, _, [] => .ok []
  | 0, done, _ :: _ => .error ⟨done, some 1⟩
  | fuel + 1, done, a :: rest =>
    match step a rest with
    | .fault span => .error ⟨done, span⟩
    | .char c rest => (decodeFrom fuel (done + c.utf8Size) rest).map (c :: ·)

/-- The characters that the bytes stand for. -/
def decode (bytes : List UInt8) : Except Fault (List Char) :=
  decodeFrom bytes.length 0 bytes

/-- The bytes of one character. -/
def encodeChar (c : Char) : List UInt8 := String.utf8EncodeChar c

/-- The bytes that stand for the characters. -/
def encode (cs : List Char) : List UInt8 := cs.flatMap encodeChar

end Utf8

end RevisionRouting.Text
