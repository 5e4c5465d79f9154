/-!
# Blanks and decimal digits

The white space of the Unicode property `White_Space`, and texts without the
blanks at their two ends. Timestamps are read after `trim`, and a channel name
that is nothing but blanks is no name (`isBlankText`).

The digits of a number and the value of a digit, for the formats that read and
write numbers in decimal.
-/

namespace RevisionRouting.Text

/-! ### Blanks -/

/-- The closed ranges of code points with the property `White_Space`, in order. -/
def blankRanges : List (Nat × Nat) :=
  [(0x09, 0x0D), (0x20, 0x20), (0x85, 0x85), (0xA0, 0xA0), (0x1680, 0x1680),
   (0x2000, 0x200A), (0x2028, 0x2029), (0x202F, 0x202F), (0x205F, 0x205F), (0x3000, 0x3000)]

/-- Whether `c` is a blank: its code point lies in one of `blankRanges`. -/
def isBlank (c : Char) : Bool :=
  blankRanges.any fun r => r.1 ≤ c.toNat && c.toNat ≤ r.2

/-- The text without the blanks that it ends in. -/
def trimEnd : List Char → List Char
  | [] => []
  | c :: cs =>
    match trimEnd cs with
    | [] => if isBlank c then [] else [c]
    | rest => c :: rest

/-- The text without the blanks at its two ends. -/
def trim (cs : List Char) : List Char :=
  trimEnd (cs.dropWhile isBlank)

/-- Whether a name holds no character but blanks; the empty name is one of these. -/
def isBlankText (s : String) : Bool :=
  s.toList.all isBlank

theorem isBlankText_eq_false_iff {s : String} :
    isBlankText s = false ↔ ∃ c ∈ s.toList, isBlank c = false := by
  simp only [isBlankText, List.all_eq_false, Bool.not_eq_true]

/-- The property has 25 members. -/
example : blankRanges.foldl (fun n r => n + (r.2 + 1 - r.1)) 0 = 25 := by decide

/-! ### Digits -/

/-- The value of a decimal digit. -/
def digitValue (c : Char) : Nat := c.toNat - '0'.toNat

/-- A natural number in decimal. -/
def decimal (n : Nat) : List Char := Nat.toDigits 10 n

/-- A natural number in decimal, with zeros before it up to the width. -/
def padded (width n : Nat) : List Char :=
  List.replicate (width - (decimal n).length) '0' ++ decimal n

/-- The powers of ten. -/
def tenTo (n : Nat) : Nat := Nat.pow 10 n

end RevisionRouting.Text
