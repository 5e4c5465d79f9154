import RevisionRouting.Proofs.Json.RoundTrip
import RevisionRouting.Proofs.Revision.Format

/-!
# Revisions are read back

A revision that was read is read back from the text of its three parts
(`Revision.parse_text`), unless there is a float in it. What it was written like is not kept:
the prior document is `null` where there is none, and metadata are an empty object, be it
that they were written so, left out, or not reached in an array.

The parts of a revision nest one container less than a text may (`Revision.WellFormed`),
so there is room for the container that is put around them.
-/

namespace RevisionRouting

open Json

namespace Revision

/-- The prior document as a JSON value. -/
def priorValue (r : Revision) : Value := (r.prior.map Document.toValue).getD .null

/-- The parts of a revision, each under its name. -/
def members (r : Revision) : Members := [
  ("doc", r.document.toValue),
  ("oldDoc", r.priorValue),
  ("meta", r.metadata.toValue)]

/-- The text of the parts of a revision. -/
theorem text_members (r : Revision) : r.members.text =
    "\x7b\"doc\":" ++ r.document.toValue.text ++ ",\"oldDoc\":" ++ r.priorValue.text ++
      ",\"meta\":" ++ r.metadata.toValue.text ++ "\x7d" := by
  have hdocument : quotedString "doc" = "\"doc\"".toList := by decide
  have hprior : quotedString "oldDoc" = "\"oldDoc\"".toList := by decide
  have hmetadata : quotedString "meta" = "\"meta\"".toList := by decide
  -- the two sides are compared character by character, the names already in quotes
  refine String.toList_inj.1 ?_
  rw [members, Members.toList_text, memberTexts, memberTexts, memberTexts, memberTexts,
    intercalate_cons]
  simp [moreTexts, memberChars, hdocument, hprior, hmetadata, Value.text]

/-- The parts of a revision fit in one more container. -/
structure WellFormed (r : Revision) : Prop where
  document : r.document.toValue.WellFormed partDepth
  prior : r.priorValue.WellFormed partDepth
  metadata : r.metadata.toValue.WellFormed partDepth

/-- There is no float in a revision. -/
structure FloatFree (r : Revision) : Prop where
  document : r.document.toValue.FloatFree
  prior : r.priorValue.FloatFree
  metadata : r.metadata.toValue.FloatFree

/-! ### Revisions that were read -/

theorem wellFormed_of_partOf {depth : Nat} {v part : Value}
    (hv : v.WellFormed (depth + 1)) {name : String} {position : Nat}
    (h : partOf v name position = some part) : part.WellFormed depth := by
  -- an object has its parts under names, a list at positions
  cases v with
  | object ms => exact hv.of_get? h
  | array vs =>
    cases hv with
    | array items => exact items part (List.mem_of_getElem? h)
  | _ => cases h

theorem wellFormed_of_parse {text : String} {r : Revision} (h : parse text = .ok r) :
    r.WellFormed := by
  obtain ⟨v, hv, -, hr⟩ := parse_eq_ok_iff.1 h
  have hpart {name : String} {position : Nat} {part : Value}
      (hpart : partOf v name position = some part) : part.WellFormed partDepth :=
    wellFormed_of_partOf (Value.wellFormed_of_parse hv) hpart
  refine ⟨hpart hr.document, ?_, ?_⟩
  · rw [priorValue]
    -- a prior document that is not there is written as `null`, which fits anywhere
    obtain ⟨hnone, -⟩ | ⟨d, hd, hprior⟩ := hr.prior
    · rw [hnone]
      exact .null
    · rw [hd]
      exact hpart hprior
  · -- and metadata that are not there as an object without members
    obtain ⟨hempty, -⟩ | hmetadata := hr.metadata
    · rw [hempty]
      exact .object .nil fun m hm => absurd hm List.not_mem_nil
    · exact hpart hmetadata

/-! ### Reading back -/

theorem orNull_priorValue (r : Revision) :
    Reader.orNull (ofObject Document.mk) r.priorValue = some r.prior := by
  rw [priorValue]
  cases r.prior <;> rfl

/-- Each part takes the member that is written for it. -/
theorem foldlM_takeMember_members (r : Revision) :
    r.members.foldlM (takeMember typedParts) {} =
      some ⟨some r.document, some r.prior, some r.metadata⟩ := by
  -- the parts before each member have been read, and those after it have not
  have hdocument : takeMember typedParts {} ("doc", r.document.toValue) =
      some ⟨some r.document, none, none⟩ :=
    takeMember_iff.2 (.inl ⟨rfl, rfl, r.document, rfl, rfl⟩)
  have hprior : takeMember typedParts ⟨some r.document, none, none⟩ ("oldDoc", r.priorValue) =
      some ⟨some r.document, some r.prior, none⟩ :=
    takeMember_iff.2 (.inr (.inl ⟨rfl, rfl, r.prior, orNull_priorValue r, rfl⟩))
  have hmetadata : takeMember typedParts ⟨some r.document, some r.prior, none⟩
      ("meta", r.metadata.toValue) = some ⟨some r.document, some r.prior, some r.metadata⟩ :=
    takeMember_iff.2 (.inr (.inr ⟨rfl, rfl, r.metadata, rfl, rfl⟩))
  simp only [members, List.foldlM_cons, List.foldlM_nil, Option.bind_eq_bind, Option.bind_some,
    hdocument, hprior, hmetadata]
  rfl

/-- **A revision is read back** from the text of its parts. -/
theorem parse_text {r : Revision} (h : r.WellFormed) (hfloat : r.FloatFree) :
    parse r.members.text = .ok r := by
  -- what holds of the three parts holds of all members
  have hmembers {holds : Value → Prop} (hdocument : holds r.document.toValue)
      (hprior : holds r.priorValue) (hmetadata : holds r.metadata.toValue) :
      ∀ m ∈ r.members, holds m.2 := by
    simp only [members, List.forall_mem_cons]
    exact ⟨hdocument, hprior, hmetadata, fun m hm => absurd hm List.not_mem_nil⟩
  have hwritten : Value.writtenMembers r.members.text = .ok r.members :=
    Value.writtenMembers_text (hmembers h.document h.prior h.metadata)
      (hmembers hfloat.document hfloat.prior hfloat.metadata)
  -- the names are written once each, so the members are read in turn
  exact (Record.parse_iff rfl fields_eq_typedParts).2
    (.inl ⟨_, _, hwritten, foldlM_takeMember_members r, rfl⟩)

end Revision

end RevisionRouting
