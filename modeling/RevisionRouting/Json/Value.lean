/-!
# JSON values

A number is either an integer that fits 64 bits, signed or not, or a binary
floating-point number; the two are never mixed, so `1` and `1.0` are different
values. An object is a map. It is held as the list of its members, names
strictly increasing; `Members.insert` keeps the list so, and a name that is given
again takes the new value.
-/

namespace RevisionRouting.Json

/-- A number: an integer that fits 64 bits, with or without a sign, or a float. -/
inductive Number where
  /-- An integer in the range of the signed or of the unsigned words of 64 bits. -/
  | integer (n : Int) (fits : -0x8000000000000000 ≤ n ∧ n < 0x10000000000000000)
  /-- Any other number. -/
  | float (x : Float)

namespace Number

/-- An unsigned word as a number. -/
def ofUInt64 (n : UInt64) : Number :=
  .integer n.toNat ⟨by omega, by have := n.toNat_lt; omega⟩

/-- A count as a number; one beyond 64 bits is taken modulo 2 ^ 64. -/
def ofNat (n : Nat) : Number := ofUInt64 n.toUInt64

/-- The number as an unsigned word, if it is an integer that is not negative. -/
def toUInt64? : Number → Option UInt64
  | integer n _ => if 0 ≤ n then some n.toNat.toUInt64 else none
  | float _ => none

/-- Whether the value is zero; both floating-point zeros are. -/
def isZero : Number → Bool
  | integer n _ => n == 0
  | float x => x == 0.0

end Number

/-- A JSON value. -/
inductive Value where
  | null
  | bool (b : Bool)
  | number (n : Number)
  | string (s : String)
  | array (items : List Value)
  | object (members : List (String × Value))

instance : Inhabited Value := ⟨.null⟩

namespace Value

/-- The name of a value's kind, as error messages call it. -/
def kindName : Value → String
  | null => "null"
  | bool _ => "bool"
  | number _ => "number"
  | string _ => "string"
  | array _ => "array"
  | object _ => "object"

/-- The value as a text, if it is one. -/
def asString? : Value → Option String
  | string s => some s
  | _ => none

end Value

/-- The members of an object: names with values. -/
abbrev Members := List (String × Value)

namespace Members

/-- The value under `name`. -/
def get? (ms : Members) (name : String) : Option Value := ms.lookup name

/-- Puts `v` under `name`: in its place among increasing names, or in the place of the value
that the name had. -/
def insert (name : String) (v : Value) : Members → Members
  | [] => [(name, v)]
  | m :: ms =>
    if name < m.1 then (name, v) :: m :: ms
    else if name = m.1 then (name, v) :: ms
    else m :: insert name v ms

/-- The object with the given members; of two with one name the later counts. -/
def ofList (ms : List (String × Value)) : Members :=
  ms.foldl (fun acc m => insert m.1 m.2 acc) []

end Members

end RevisionRouting.Json
