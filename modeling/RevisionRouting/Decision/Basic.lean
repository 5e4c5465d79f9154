import RevisionRouting.Json.Reader.Value
import RevisionRouting.Resurrection.Policy

/-!
# Routing decisions

A decision says into which channels a revision goes, when it expires, and
whether it was made without looking at the document's own wishes
(`shortCircuited`), as happens to a resurrected document.

The channels are a set of names, held as the list of its members in increasing order.
The order is that of the code points, which is also that of the encoded bytes.

An expiry is written as a time stamp, as a number of seconds from now, or as
whatever else the document holds, which is passed on unread. The three cases are
not marked in JSON: a text is a time stamp and an unsigned integer a number of
seconds (`Expiry.ofValue`, `Expiry.toValue`).
-/

namespace RevisionRouting

/-! ### Sets of channels -/

/-- A finite set of channel names. -/
structure Channels where
  /-- The members in increasing order. -/
  names : List String
  increasing : names.Pairwise (· < ·)

namespace Channels

instance : DecidableEq Channels := fun a b =>
  decidable_of_iff (a.names = b.names) (by cases a; cases b; simp)

/-- The set without members. -/
def empty : Channels := ⟨[], .nil⟩

/-- Puts a name in its place among increasing names, unless it is one of them. -/
def insertName (name : String) : List String → List String
  | [] => [name]
  | n :: ns =>
    if name < n then name :: n :: ns
    else if name = n then n :: ns
    else n :: insertName name ns

theorem mem_insertName {name x : String} {ns : List String} :
    x ∈ insertName name ns ↔ x = name ∨ x ∈ ns := by
  induction ns with
  | nil => simp [insertName]
  | cons n ns ih =>
    simp only [insertName]
    split
    · simp
    · split
      · next h => simp [h]
      · simp [ih, or_left_comm]

theorem pairwise_insertName {name : String} {ns : List String} (h : ns.Pairwise (· < ·)) :
    (insertName name ns).Pairwise (· < ·) := by
  induction ns with
  | nil => simp [insertName]
  | cons n ns ih =>
    obtain ⟨hn, hns⟩ := List.pairwise_cons.1 h
    simp only [insertName]
    split
    · next hlt =>
      refine List.pairwise_cons.2 ⟨fun x hx => ?_, h⟩
      rcases List.mem_cons.1 hx with rfl | hx
      · exact hlt
      · exact String.lt_trans hlt (hn x hx)
    · next hge =>
      split
      · exact h
      · next hne =>
        refine List.pairwise_cons.2 ⟨fun x hx => ?_, ih hns⟩
        rcases mem_insertName.1 hx with rfl | hx
        · exact Std.lt_of_le_of_ne hge fun e => hne e.symm
        · exact hn x hx

/-- The set with one more member. -/
def insert (name : String) (c : Channels) : Channels :=
  ⟨insertName name c.names, pairwise_insertName c.increasing⟩

/-- The set with just one member. -/
def singleton (name : String) : Channels := empty.insert name

/-- The set of the names of a list. -/
def ofList (names : List String) : Channels := names.foldl (fun c n => c.insert n) empty

instance : Membership String Channels := ⟨fun c name => name ∈ c.names⟩

theorem mem_insert {name x : String} {c : Channels} : x ∈ c.insert name ↔ x = name ∨ x ∈ c :=
  mem_insertName

theorem not_mem_empty {x : String} : ¬ x ∈ empty := List.not_mem_nil

theorem mem_foldl_insert {x : String} {names : List String} {c : Channels} :
    x ∈ names.foldl (fun c n => c.insert n) c ↔ x ∈ c ∨ x ∈ names := by
  induction names generalizing c with
  | nil => simp
  | cons n ns ih => simp [ih, mem_insert, or_assoc, or_left_comm]

/-- The members of a set of listed names are the listed names. -/
theorem mem_ofList {x : String} {names : List String} : x ∈ ofList names ↔ x ∈ names := by
  simp [ofList, mem_foldl_insert, not_mem_empty]

/-- The members with commas between them. -/
def text (c : Channels) : String := String.intercalate "," c.names

end Channels

/-! ### Expiry -/

/-- When a revision expires. -/
inductive Expiry where
  /-- At a time that is given as a text. -/
  | absolute (stamp : String)
  /-- After a number of seconds. -/
  | relative (seconds : UInt64)
  /-- At a time given in any other form. -/
  | raw (value : Json.Value)

namespace Expiry

/-- The expiry that a JSON value stands for. -/
def ofValue : Json.Value → Expiry
  | .string s => .absolute s
  | .number n =>
    match n.toUInt64? with
    | some seconds => .relative seconds
    | none => .raw (.number n)
  | v => .raw v

/-- The JSON value that stands for an expiry. -/
def toValue : Expiry → Json.Value
  | absolute s => .string s
  | relative seconds => .number (.ofUInt64 seconds)
  | raw v => v

/-- The text by which a log shows an expiry. -/
def text : Expiry → String
  | absolute s => s
  | relative seconds => String.ofList (Text.decimal seconds.toNat ++ ['s'])
  | raw v => v.text

/-- The expiry that a JSON text stands for. -/
def parse (text : String) : Except Json.Error Expiry := (Json.Value.parse text).map ofValue

end Expiry

/-! ### Decisions -/

/-- Where a revision goes and how long it stays. -/
structure Decision where
  channels : Channels
  expiry : Option Expiry
  /-- Whether the host is to skip its own routing. -/
  shortCircuited : Bool

/-- The way by which a decision was made. -/
inductive RoutingPath where
  | softDelete
  | normal
  deriving DecidableEq, Repr

/-- The name of a path in logs. -/
def RoutingPath.name : RoutingPath → String
  | softDelete => "SOFT_DELETE_RESURRECTION"
  | normal => "NORMAL_ROUTING"

namespace Decision

/-- The decision without channels and without expiry. -/
def empty : Decision := ⟨.empty, none, false⟩

/-- Whether a decision is the empty one. -/
def isEmpty (d : Decision) : Bool :=
  d.channels = .empty && d.expiry.isNone && !d.shortCircuited

/-- The decision that follows a document's own wishes. -/
def normal (channels : Channels) (expiry : Option Expiry) : Decision := ⟨channels, expiry, false⟩

/-- The decision on a resurrected document. -/
def softDelete (p : Policy) : Decision :=
  ⟨.singleton p.channel, some (.relative p.ttlSeconds), true⟩

/-- The way by which a decision was made. -/
def path (d : Decision) : RoutingPath := if d.shortCircuited then .softDelete else .normal

/-- A decision as a JSON value. -/
def toValue (d : Decision) : Json.Value :=
  .object [
    ("channels", .array (d.channels.names.map .string)),
    ("expiry", (d.expiry.map Expiry.toValue).getD .null),
    ("shortCircuited", .bool d.shortCircuited)]

end Decision

end RevisionRouting
