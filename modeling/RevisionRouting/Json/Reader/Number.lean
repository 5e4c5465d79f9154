import RevisionRouting.Json.Reader.Basic

/-!
# Reading numbers

A number is first taken apart into its digits (`Literal.read`) and then given a
value (`Literal.number`). A literal without point and exponent is an integer if
it fits 64 bits. Every other literal is a float: as many of its digits as 64
bits hold make the significand, and one multiplication or division by a power of
ten scales it (`scale`). Minus zero is a float, as an integer has no signed zero.
-/

namespace RevisionRouting.Json

/-- A number taken apart. -/
structure Literal where
  negative : Bool
  /-- The digits before the point. -/
  whole : List Char
  /-- The digits after the point; there are none if there is no point. -/
  fraction : List Char
  /-- The sign of the exponent, whether it is negative, and its digits. -/
  exponent : Option (Bool × List Char)

namespace Literal

/-! ### Taking a number apart -/

/-- What a number lacks at the end of the text: its value, or, when it is only passed over,
a digit. -/
def endCause : Purpose → Cause
  | .content => .endInValue
  | .extent => .malformedNumber

/-- A digit is due at the head of the text and there is none. -/
def noDigit (purpose : Purpose) : List Char → Fault
  | [] => .atEnd (endCause purpose)
  | c :: cs => .next .malformedNumber (c :: cs)

/-- At least one digit, and the text after the last of them. -/
def digits (purpose : Purpose) : Reader (List Char) := fun cs =>
  match cs.takeWhile Char.isDigit with
  | [] => .error (noDigit purpose cs)
  | d :: ds => .ok (d :: ds, cs.dropWhile Char.isDigit)

/-- The digits before the point. A leading zero stands alone. -/
def wholePart (purpose : Purpose) : Reader (List Char)
  | '0' :: cs =>
    match cs with
    | c :: cs =>
      if c.isDigit then .error (.next .malformedNumber (c :: cs)) else .ok (['0'], c :: cs)
    | [] => .ok (['0'], [])
  | cs => digits purpose cs

/-- The digits after a point, if there is one. -/
def fractionPart (purpose : Purpose) : Reader (List Char)
  | '.' :: cs => digits purpose cs
  | cs => .ok ([], cs)

/-- The digits of an exponent after its sign. -/
def signedDigits (purpose : Purpose) : Reader (Bool × List Char)
  | '-' :: cs => (digits purpose cs).map fun r => ((true, r.1), r.2)
  | '+' :: cs => (digits purpose cs).map fun r => ((false, r.1), r.2)
  | cs => (digits purpose cs).map fun r => ((false, r.1), r.2)

/-- The exponent, if there is one. -/
def exponentPart (purpose : Purpose) : Reader (Option (Bool × List Char))
  | c :: cs =>
    if c = 'e' ∨ c = 'E' then (signedDigits purpose cs).map fun r => (some r.1, r.2)
    else .ok (none, c :: cs)
  | [] => .ok (none, [])

/-- Takes a number apart that has lost its minus sign. -/
def readUnsigned (purpose : Purpose) (negative : Bool) : Reader Literal := fun cs => do
  let (whole, cs) ← wholePart purpose cs
  let (fraction, cs) ← fractionPart purpose cs
  let (exponent, cs) ← exponentPart purpose cs
  return (⟨negative, whole, fraction, exponent⟩, cs)

/-- Takes a number apart. -/
def read (purpose : Purpose) : Reader Literal
  | '-' :: cs => readUnsigned purpose true cs
  | cs => readUnsigned purpose false cs

/-! ### The value of a number -/

/-- Words of 64 bits stay below this number. -/
abbrev wordBound : Nat := 0x10000000000000000

/-- Takes digits into a significand while it fits 64 bits; the digits that did not fit are left
over. -/
def absorb : Nat → List Char → Nat × List Char
  | significand, [] => (significand, [])
  | significand, d :: ds =>
    if significand * 10 + Text.digitValue d < wordBound then
      absorb (significand * 10 + Text.digitValue d) ds
    else (significand, d :: ds)

/-- The power of ten as the nearest float. -/
def powerOfTen (n : Nat) : Float := Float.ofScientific 1 false n

/-- The greatest power of ten that is a float. -/
def maxPower : Nat := 308

/-- `x * 10 ^ e`, or nothing if it is out of range. A power too small to be a float is divided
out in rounds; two of them bring every significand to zero. -/
def scaleIn : Nat → Float → Int → Option Float
  | rounds, x, e =>
    if e.natAbs ≤ maxPower then
      if 0 ≤ e then
        let y := x * powerOfTen e.natAbs
        if y.isInf then none else some y
      else some (x / powerOfTen e.natAbs)
    else if x == 0.0 then some x
    else if 0 ≤ e then none
    else match rounds with
      | 0 => some 0.0
      | rounds + 1 => scaleIn rounds (x / powerOfTen maxPower) (e + maxPower)

/-- `x * 10 ^ e`, or nothing if it is out of range. -/
def scale (x : Float) (e : Int) : Option Float := scaleIn 3 x e

/-- The greatest exponent that is read; digits that take it further are not. -/
def maxExponent : Nat := 0x7FFFFFFF

/-- The value of the digits of an exponent, or, where it passes `maxExponent`, the digits after
the one that takes it there. -/
def exponentValue : Nat → List Char → Except (List Char) Nat
  | n, [] => .ok n
  | n, d :: ds =>
    if n * 10 + Text.digitValue d ≤ maxExponent then exponentValue (n * 10 + Text.digitValue d) ds
    else .error ds

/-- The float of the given sign and magnitude. -/
def signed (negative : Bool) (x : Float) : Float := if negative then -x else x

/-- The float `significand * 10 ^ e`; `rest` is the text after the number. -/
def float (negative : Bool) (significand : Nat) (e : Int) (rest : List Char) :
    Except Fault Number :=
  match scale (Float.ofNat significand) e with
  | some x => .ok (.float (signed negative x))
  | none => .error (.here .numberOutOfRange rest)

/-- An integer below 2 ^ 64 in magnitude: a float if it is minus zero or below the signed
range. -/
def integer (negative : Bool) (n : Nat) (h : n < wordBound) : Number :=
  if negative then
    if hn : 0 < n ∧ n ≤ 0x8000000000000000 then .integer (-n) (by omega)
    else .float (-(Float.ofNat n))
  else .integer n ⟨by omega, by simp only [wordBound] at h; omega⟩

/-- The value of a literal; `rest` is the text after it. -/
def number (l : Literal) (rest : List Char) : Except Fault Number :=
  let (significand, left) := absorb 0 l.whole
  if h : left = [] ∧ l.fraction = [] ∧ l.exponent = none ∧ significand < wordBound then
    .ok (integer l.negative significand h.2.2.2)
  else
    let (significand, unused) := absorb significand l.fraction
    -- digits of the whole part that did not fit raise the exponent, those taken from the
    -- fraction lower it, and the rest of the fraction is lost
    let start : Int := left.length - (l.fraction.length - unused.length : Nat)
    match l.exponent with
    | none => float l.negative significand start rest
    | some (negative, ds) =>
      match exponentValue 0 ds with
      | .ok n => float l.negative significand (if negative then start - n else start + n) rest
      | .error ds =>
        -- a zero stays zero, and whatever is divided by so much is zero
        if significand ≠ 0 ∧ !negative then .error (.here .numberOutOfRange (ds ++ rest))
        else .ok (.float (signed l.negative 0.0))

end Literal

/-- Reads a number; its first character, a minus sign or a digit, has been seen. A number that is
passed over counts as zero. -/
def Reader.number (purpose : Purpose) : Reader Number := fun cs => do
  let (literal, cs) ← Literal.read purpose cs
  match purpose with
  | .content => return (← literal.number cs, cs)
  | .extent => return (.ofNat 0, cs)

end RevisionRouting.Json
