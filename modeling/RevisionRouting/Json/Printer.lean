import RevisionRouting.Decimal.Shortest
import RevisionRouting.Json.Value
import RevisionRouting.Text.Character

/-!
# The compact text of a JSON value

`Value.chars` writes a value without blanks, the members of an object in the
order in which they are held. A text is escaped only where it must be
(`escape`), so no line break is ever written raw. An integer is written plainly;
a float with the fewest digits that read back, in plain notation for scientific
exponents from -5 to 15 (`floatLayout`).
-/

namespace RevisionRouting.Json

/-! ### Numbers -/

/-- How the digits of a float are set out. -/
structure FloatLayout where
  /-- The least scientific exponent written in plain notation. -/
  leastPlain : Int
  /-- The greatest scientific exponent written in plain notation. -/
  greatestPlain : Int

/-- Plain notation runs from `0.00001` to `1000000000000000.0`. -/
def floatLayout : FloatLayout := ⟨-5, 15⟩

/-- An integer in decimal, with a minus sign if it is negative. -/
def intChars : Int → List Char
  | .ofNat n => Text.decimal n
  | .negSucc n => '-' :: Text.decimal (n + 1)

/-- Digits in plain notation, always with a digit on each side of the point; `e` is the
exponent of the first digit. -/
def plainChars (ds : List Char) (e : Int) : List Char :=
  if e < 0 then '0' :: '.' :: List.replicate (-e - 1).toNat '0' ++ ds
  else
    let width := e.toNat + 1
    let whole := ds.take width ++ List.replicate (width - ds.length) '0'
    let fraction := ds.drop width
    whole ++ '.' :: (if fraction.isEmpty then ['0'] else fraction)

/-- Digits in scientific notation, with a point only if there is more than one digit and with a
sign on every exponent. -/
def scientificChars (ds : List Char) (e : Int) : List Char :=
  let mantissa := match ds with
    | d :: d' :: rest => d :: '.' :: d' :: rest
    | _ => ds
  mantissa ++ 'e' :: (if e < 0 then '-' else '+') :: Text.decimal e.natAbs

/-- A float that is finite, less its sign. -/
def magnitudeChars (x : Float) : List Char :=
  if x == 0.0 then ['0', '.', '0'] else
  let decimal := (Decimal.Binary.ofFloat x).shortest
  let all := Text.decimal decimal.digits
  let ds := all.reverse.dropWhile (· == '0') |>.reverse
  let e := decimal.exponent + all.length - 1
  if floatLayout.leastPlain ≤ e ∧ e ≤ floatLayout.greatestPlain then plainChars ds e
  else scientificChars ds e

/-- The text of a float. Only a finite one has a number's text. -/
def floatChars (x : Float) : List Char :=
  if x.isFinite then
    if x.toBits.toNat / 0x8000000000000000 = 1 then '-' :: magnitudeChars x else magnitudeChars x
  else ['n', 'u', 'l', 'l']

/-- The text of a number. -/
def Number.chars : Number → List Char
  | .integer n _ => intChars n
  | .float x => floatChars x

/-! ### Texts -/

/-- The lower-case hexadecimal digits of a number below 256. -/
def hexByte (n : Nat) : List Char := [Nat.digitChar (n / 16), Nat.digitChar (n % 16)]

/-- A character as it stands inside quotes: quotes, backslashes and control characters are
escaped. -/
def escape (c : Char) : List Char :=
  if c = '"' then ['\\', '"']
  else if c = '\\' then ['\\', '\\']
  else if c = '\x08' then ['\\', 'b']
  else if c = '\x0c' then ['\\', 'f']
  else if c = '\n' then ['\\', 'n']
  else if c = '\r' then ['\\', 'r']
  else if c = '\t' then ['\\', 't']
  else if c.toNat < 0x20 then '\\' :: 'u' :: '0' :: '0' :: hexByte c.toNat
  else [c]

/-- A text between quotes. -/
def quoted (cs : List Char) : List Char := '"' :: cs.flatMap escape ++ ['"']

/-- A `String` between quotes. -/
def quotedString (s : String) : List Char := quoted s.toList

/-! ### Values -/

/-- The items between brackets, with commas. -/
def bracketed (opening closing : Char) (items : List (List Char)) : List Char :=
  opening :: (List.intercalate [','] items ++ [closing])

/-- A member: its name, a colon, and the text of its value. -/
def memberChars (name : String) (value : List Char) : List Char :=
  quotedString name ++ ':' :: value

mutual

/-- The compact text of a value. -/
def Value.chars : Value → List Char
  | .null => ['n', 'u', 'l', 'l']
  | .bool true => ['t', 'r', 'u', 'e']
  | .bool false => ['f', 'a', 'l', 's', 'e']
  | .number n => n.chars
  | .string s => quotedString s
  | .array items => bracketed '[' ']' (itemTexts items)
  | .object members => bracketed '\x7b' '\x7d' (memberTexts members)

/-- The texts of the items of an array. -/
def itemTexts : List Value → List (List Char)
  | [] => []
  | v :: vs => v.chars :: itemTexts vs

/-- The texts of the members of an object. -/
def memberTexts : List (String × Value) → List (List Char)
  | [] => []
  | (name, v) :: ms => memberChars name v.chars :: memberTexts ms

end

/-- The compact text of a value, as a `String`. -/
def Value.text (v : Value) : String := String.ofList v.chars

/-- The text of an object whose members are written in the order given. -/
def Members.text (ms : Members) : String := (Value.object ms).text

end RevisionRouting.Json
