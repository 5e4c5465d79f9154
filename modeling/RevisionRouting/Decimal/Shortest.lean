import RevisionRouting.Text.Character

/-!
# The shortest decimal that reads back

A positive floating-point number stands for every real that rounds to it: an
interval that reaches half way to its two neighbours. `Binary.shortest` is the
decimal with the fewest digits in that interval, and of several with that number
of digits the one nearest to the number itself, an exact tie going to the even
digit.

The search takes grids `10 ^ k` from coarse to fine. A grid with a point in the
interval has one that is next to the number, so two candidates a grid are
enough, and all comparisons are made on natural numbers.
-/

namespace RevisionRouting.Decimal

/-- The positive number `significand * 2 ^ exponent` of a binary format. -/
structure Binary where
  significand : Nat
  exponent : Int
  /-- Whether the neighbour below is only half as far away as the one above. -/
  narrowBelow : Bool
  deriving Repr

/-- The decimal `digits * 10 ^ exponent`. -/
structure Numeral where
  digits : Nat
  exponent : Int
  deriving DecidableEq, Repr

/-- The number of decimal digits of `n`. -/
def digitCount (n : Nat) : Nat := (Text.decimal n).length

namespace Binary

/-- The leading bit of a significand, which is not stored. -/
def hiddenBit : Nat := 0x10000000000000

/-- The magnitude of a finite float that is not zero. -/
def ofFloat (x : Float) : Binary :=
  let bits := x.toBits.toNat
  let fraction := bits % hiddenBit
  let biased := bits / hiddenBit % 0x800
  if biased = 0 then ⟨fraction, -1074, false⟩
  else ⟨hiddenBit + fraction, Int.ofNat biased - 1075, fraction = 0 && biased ≠ 1⟩

/-- The exponent of the leading decimal digit: the greatest `e` with `10 ^ e` at most the
number. -/
def leadingExponent (b : Binary) : Int :=
  let num := b.significand <<< b.exponent.toNat
  let den := 1 <<< (-b.exponent).toNat
  if den ≤ num then (digitCount (num / den) : Int) - 1
  else -(digitCount ((den - 1) / num) : Int)

/-- The nearest multiple of `10 ^ k` that reads back as the number, counted in `10 ^ k`. The ends
of the interval belong to it when the significand is even. -/
def onGrid? (b : Binary) (k : Int) : Option Nat :=
  let unit := Text.tenTo k.toNat <<< (2 - b.exponent).toNat
  let scale := Text.tenTo (-k).toNat <<< (b.exponent - 2).toNat
  let value := 4 * b.significand * scale
  let low := (4 * b.significand - if b.narrowBelow then 1 else 2) * scale
  let high := (4 * b.significand + 2) * scale
  let readsBack (d : Nat) : Bool :=
    if b.significand % 2 = 0 then low ≤ d * unit && d * unit ≤ high
    else low < d * unit && d * unit < high
  let below := value / unit
  match readsBack below, readsBack (below + 1) with
  | false, false => none
  | true, false => some below
  | false, true => some (below + 1)
  | true, true =>
    let excess := 2 * (value - below * unit)
    if excess < unit ∨ (excess = unit ∧ below % 2 = 0) then some below else some (below + 1)

/-- The decimal with the fewest digits that reads back as the number. Seventeen digits always
suffice. -/
def shortest (b : Binary) : Numeral :=
  let lead := b.leadingExponent
  ((List.range 17).findSome? fun (n : Nat) =>
    (b.onGrid? (lead - n)).map fun d => (⟨d, lead - n⟩ : Numeral)).getD ⟨0, 0⟩

end Binary

example : (Binary.ofFloat 0.1).shortest = ⟨1, -1⟩ := by decide +kernel
example : (Binary.ofFloat 5e-324).shortest = ⟨5, -324⟩ := by decide +kernel
example : (Binary.ofFloat 1.7976931348623157e308).shortest = ⟨17976931348623157, 292⟩ := by
  decide +kernel
example : (Binary.ofFloat 9007199254740993.0).shortest = ⟨9007199254740992, 0⟩ := by
  decide +kernel

end RevisionRouting.Decimal
