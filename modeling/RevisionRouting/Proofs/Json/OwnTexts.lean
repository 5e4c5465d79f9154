import Mathlib.Data.List.Forall2
import RevisionRouting.Proofs.Json.Members
import RevisionRouting.Proofs.Json.Nesting
import RevisionRouting.Proofs.Json.Records

/-!
# The texts of members

Each member of an object is written as a text of its own (`Value.memberText?`), the part of the
object's text that the reader of its value takes. That text stands for the value which the
member has in the object (`Value.parse_memberText`). It is read without what follows it, and
not inside of the object, so it may nest one container more than the object let it.

The texts are collected by the loop that reads the members, with another reader for their
values. The two loops read the same members in step (`writtenMembers_inStep`).
-/

namespace RevisionRouting.Json

open Reader

variable {α β : Type} {purpose : Purpose}

/-! ### Members in step -/

/-- Where `f` reads something, `g` reads something related from the same characters. -/
def Reader.InStep (S : α → β → Prop) (f : Reader α) (g : Reader β) : Prop :=
  ∀ ⦃cs a rest⦄, f cs = .ok (a, rest) → ∃ b, g cs = .ok (b, rest) ∧ S a b

/-- Two members with the same name and related contents. -/
def SameMember (S : α → β → Prop) (m : String × α) (m' : String × β) : Prop :=
  m.1 = m'.1 ∧ S m.2 m'.2

/-- Members one by one the same are found under the same names. -/
theorem lookup_sameMember {S : α → β → Prop} {ms : List (String × α)} {ms' : List (String × β)}
    (h : List.Forall₂ (SameMember S) ms ms') (name : String) :
    Option.Rel S (ms.lookup name) (ms'.lookup name) := by
  -- the names agree pair by pair, so the search stops at the same pair
  induction h with
  | nil => exact .none
  | @cons m m' ms ms' hm _ ih =>
    obtain ⟨hname, hcontent⟩ := hm
    rw [List.lookup_cons, List.lookup_cons, hname]
    cases name == m'.1 with
    | true => exact .some hcontent
    | false => exact ih

theorem Reader.writtenMembers_inStep {S : α → β → Prop} {f : Reader α} {g : Reader β}
    (h : InStep S f g) :
    InStep (List.Forall₂ (SameMember S)) (writtenMembers f) (writtenMembers g) := by
  intro cs ms rest hread
  obtain ⟨left, hms, rfl⟩ := writtenMembers_eq_ok_iff.1 hread
  obtain ⟨ms', hms', hrel⟩ : ∃ ms', members .content (memberValue g) [] cs = .ok (ms', left) ∧
      List.Forall₂ (SameMember S) ms ms' := by
    refine membersUpTo_inStep (R := List.Forall₂ (SameMember S)) ?_ .nil hms
    -- one more member is put behind those before it on either side
    intro name before before' cs after rest hbefore hmember
    obtain ⟨a, cs', hcolon, ha, rfl⟩ := memberValue_eq_ok hmember
    obtain ⟨b, hb, hab⟩ := h ha
    refine ⟨before' ++ [(name, b)], memberValue_of_eq_ok hcolon hb, ?_⟩
    exact List.rel_append hbefore (.cons ⟨rfl, hab⟩ .nil)
  exact ⟨ms', writtenMembers_eq_ok_iff.2 ⟨left, hms', rfl⟩, hrel⟩

/-! ### Texts -/

/-- Reads a value as the text that it is written with. The blanks before it are no part of it. -/
def Reader.ownText (value : Reader α) : Reader String := fun cs =>
  let cs := skipSpace cs
  (value cs).map fun r => (.ofList (cs.take (cs.length - r.2.length)), r.2)

/-- The text that a value is written with stands for it. -/
theorem Reader.inStep_ownText {depth : Nat} (hdepth : depth ≤ nestingLimit) :
    InStep (fun v own => Value.parse own = .ok v) (value .content depth)
      (ownText (value .content depth)) := by
  intro cs v rest h
  -- the blanks are left out first, so the text of the value begins where the reader does
  have hread := (value_skipSpace depth).2 h
  obtain ⟨taken, hcs, halone⟩ := value_alone hdepth hread
  refine ⟨.ofList taken, ?_, ?_⟩
  · -- what is kept are the characters taken from the text
    have hlength : (taken ++ rest).length - rest.length = taken.length := by
      rw [List.length_append, Nat.add_sub_cancel_right]
    rw [hcs] at hread
    rw [ownText, hcs, map_eq_ok_iff]
    refine ⟨(v, rest), hread, ?_⟩
    rw [hlength, List.take_left]
  · -- these characters alone are read to the same value
    refine run_eq_ok_iff.2 ⟨[], ?_, rfl⟩
    rw [String.toList_ofList]
    exact halone

namespace Value

/-- The text with which the value of a member is written in the object that a text stands for. Of
two members with one name the later counts. -/
def memberText? (text name : String) : Option String :=
  match (writtenObject (ownText (value .content (nestingLimit - 1)))).run text with
  | .ok texts => texts.reverse.lookup name
  | .error _ => none

/-- **Each member of an object has a text of its own,** which stands for its value. There is none
for a name that no member has. -/
theorem parse_memberText {text : String} {ms : Members} (h : Value.parse text = .ok (.object ms))
    (name : String) :
    Option.Rel (fun v own => Value.parse own = .ok v) (ms.get? name) (memberText? text name) := by
  obtain ⟨written, hwritten, rfl⟩ := parse_object_iff.1 h
  obtain ⟨rest, hobject, hrest⟩ := run_eq_ok_iff.1 hwritten
  obtain ⟨cs, hcs, hmembers⟩ := writtenObject_eq_ok_iff.1 hobject
  -- the texts are read in step with the values, over the same members
  obtain ⟨texts, htexts, hrel⟩ :=
    writtenMembers_inStep (inStep_ownText (Nat.sub_le nestingLimit 1)) hmembers
  have hrun : (writtenObject (ownText (value .content (nestingLimit - 1)))).run text =
      .ok texts := run_eq_ok_iff.2 ⟨rest, writtenObject_eq_ok_iff.2 ⟨cs, hcs, htexts⟩, hrest⟩
  rw [memberText?, hrun, Members.get?_ofList]
  exact lookup_sameMember (List.forall₂_reverse_iff.2 hrel) name

theorem exists_memberText {text : String} {ms : Members} (h : Value.parse text = .ok (.object ms))
    {name : String} {v : Value} (hv : ms.get? name = some v) :
    ∃ own, memberText? text name = some own ∧ Value.parse own = .ok v := by
  have hrel := parse_memberText h name
  rw [hv] at hrel
  -- where the lookup gives a value, the related one gives a text
  generalize memberText? text name = found at hrel ⊢
  cases hrel with
  | some hown => exact ⟨_, rfl, hown⟩

example : memberText? "\x7b\"expiry\":1, \"expiry\" : [ 2e0 ] \x7d" "expiry" = some "[ 2e0 ]" := by
  decide +kernel

end Value

end RevisionRouting.Json
