import RevisionRouting.Proofs.Json.Assembly
import RevisionRouting.Proofs.Json.Brackets
import RevisionRouting.Proofs.Revision.Format

/-!
# Revisions put together from texts

The text of a revision can be put together from the texts of its parts
(`Revision.charsOf`). It then stands for the revision that has as its parts what
these texts stand for (`parse_charsOf`), provided that each is an object and leaves
room for one more container around it (`ObjectText`).
-/

namespace RevisionRouting

open Json

/-- A text that stands for an object and in which at most `Revision.partDepth` containers are open
at a time, itself included: one less than a text may nest, so that it can stand inside another. -/
structure ObjectText where
  chars : List Char
  members : Members
  parses : Value.parse (String.ofList chars) = .ok (.object members)
  nesting_le : nesting chars ≤ Revision.partDepth

example : Revision.partDepth = 126 := rfl

namespace ObjectText

/-- With one container open already, the text is read up to blanks at its end. -/
theorem exists_blanks (t : ObjectText) : ∃ blanks, Reader.skipSpace blanks = [] ∧
    Reader.value .content Revision.partDepth t.chars = .ok (.object t.members, blanks) := by
  have hle : Revision.partDepth ≤ nestingLimit := Nat.sub_le _ _
  have hnesting : nesting (String.ofList t.chars).toList ≤ Revision.partDepth := by
    rw [String.toList_ofList]
    exact t.nesting_le
  -- its own nesting is what the container around it leaves room for
  obtain ⟨blanks, hread, hblanks⟩ :=
    Reader.run_eq_ok_iff.1 ((Reader.run_value_iff hle).2 ⟨t.parses, hnesting⟩)
  rw [String.toList_ofList] at hread
  exact ⟨blanks, hblanks, hread⟩

/-- The text as that of a member's value. -/
def named (t : ObjectText) (name : String) (hname : name.toList.all isPlain) :
    MemberText (Reader.value .content Revision.partDepth) where
  name := name
  text := t.chars
  content := .object t.members
  name_plain := hname
  reads := by
    obtain ⟨blanks, hblanks, hread⟩ := t.exists_blanks
    exact ⟨blanks, hblanks, Reader.object_append (Nat.le_refl _) hread⟩

end ObjectText

namespace Revision

/-- The text of the parts after the document that there are, each under its name. -/
def optionalParts (prior metadata : Option ObjectText) :
    List (MemberText (Reader.value .content partDepth)) :=
  (prior.map fun t => t.named "oldDoc" (by decide)).toList ++
    (metadata.map fun t => t.named "meta" (by decide)).toList

/-- The text of a revision with the given texts for its parts. -/
def charsOf (document : ObjectText) (prior metadata : Option ObjectText) : List Char :=
  objectChars (document.named "doc" (by decide)) (optionalParts prior metadata)

/-- The text of a revision is that of its parts with their names, commas and brackets between
them. -/
theorem charsOf_eq (document : ObjectText) (prior metadata : Option ObjectText) :
    charsOf document prior metadata = "\x7b\"doc\":".toList ++ document.chars ++
      (prior.map fun t => ",\"oldDoc\":".toList ++ t.chars).getD [] ++
      (metadata.map fun t => ",\"meta\":".toList ++ t.chars).getD [] ++ "\x7d".toList := by
  -- a part that is there brings its comma with it
  have hmore (part : Option ObjectText) (name : String) (h : name.toList.all isPlain) :
      moreChars (part.map fun t => t.named name h).toList =
        (part.map fun t => ',' :: (t.named name h).chars).getD [] := by
    cases part with
    | none => rfl
    | some t => exact List.append_nil _
  -- the parts that may be missing are told apart once
  have happend : moreChars (optionalParts prior metadata) = _ := List.flatMap_append
  rw [charsOf, objectChars, happend, ← List.append_assoc]
  change _ ++ moreChars _ ++ moreChars _ ++ _ = _
  rw [hmore, hmore]
  -- what is left is that a named text is its name in quotes and the text
  have hopen (t : ObjectText) (h) : '\x7b' :: (t.named "doc" h).chars =
      "\x7b\"doc\":".toList ++ t.chars := by
    simp [MemberText.chars, ObjectText.named]
  have hprior (t : ObjectText) (h) : ',' :: (t.named "oldDoc" h).chars =
      ",\"oldDoc\":".toList ++ t.chars := by
    simp [MemberText.chars, ObjectText.named]
  have hmetadata (t : ObjectText) (h) : ',' :: (t.named "meta" h).chars =
      ",\"meta\":".toList ++ t.chars := by
    simp [MemberText.chars, ObjectText.named]
  simp only [hopen, hprior, hmetadata]
  rfl

/-- The revision whose parts are what the given texts stand for. -/
def ofTexts (document : ObjectText) (prior metadata : Option ObjectText) : Revision :=
  ⟨⟨document.members⟩, prior.map fun t => ⟨t.members⟩,
    (metadata.map fun t => ⟨t.members⟩).getD .empty⟩

/-- What has been read of a revision after the members of its text. -/
theorem foldlM_takeMember_charsOf (document : ObjectText) (prior metadata : Option ObjectText) :
    (((document.named "doc" (by decide)) :: optionalParts prior metadata).map
        MemberText.member).foldlM (takeMember typedParts) {} =
      some ⟨some ⟨document.members⟩, prior.map fun t => some ⟨t.members⟩,
        metadata.map fun t => ⟨t.members⟩⟩ := by
  cases prior <;> cases metadata <;> rfl

/-- **The text of a revision that is put together from texts** stands for the revision of its
parts. -/
theorem parse_charsOf (document : ObjectText) (prior metadata : Option ObjectText) :
    parse (String.ofList (charsOf document prior metadata)) =
      .ok (ofTexts document prior metadata) := by
  refine (Record.parse_iff rfl fields_eq_typedParts).2 (.inl ⟨_, _,
    writtenMembers_objectChars _ _, foldlM_takeMember_charsOf document prior metadata, ?_⟩)
  cases prior <;> cases metadata <;> rfl

end Revision

end RevisionRouting
