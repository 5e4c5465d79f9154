import RevisionRouting.Proofs.Json.RoundTrip

/-!
# Objects put together from texts

An object can be put together from the texts of its members' values, inserted as
they are (`objectChars`). It is then read as the members with these values
(`writtenMembers_objectChars`): each value ends where its text ends but for blanks,
and blanks before the next comma or bracket are passed over. A member carries what
this takes of its name and of its text (`MemberText`).
-/

namespace RevisionRouting.Json

open Reader

/-! ### Names -/

/-- Whether a character is written as itself inside quotes. -/
def isPlain (c : Char) : Bool := !(c = '"' || c = '\\' || c.toNat < 0x20)

/-- A plain character is its own escape. -/
theorem escape_of_isPlain {c : Char} (h : isPlain c) : escape c = [c] := by
  obtain ⟨⟨hquote, hbackslash⟩, hcontrol⟩ : (c ≠ '"' ∧ c ≠ '\\') ∧ ¬ c.toNat < 0x20 := by
    simpa [isPlain] using h
  -- all other escapes are those of control characters
  have hne {d : Char} (hd : d.toNat < 0x20) : c ≠ d := by
    rintro rfl
    exact hcontrol hd
  rw [escape, if_neg hquote, if_neg hbackslash, if_neg (hne (by decide)), if_neg (hne (by decide)),
    if_neg (hne (by decide)), if_neg (hne (by decide)), if_neg (hne (by decide)), if_neg hcontrol]

theorem flatMap_escape_of_isPlain {cs : List Char} (h : cs.all isPlain) :
    cs.flatMap escape = cs := by
  induction cs with
  | nil => rfl
  | cons c cs ih =>
    obtain ⟨hc, hcs⟩ := Bool.and_eq_true_iff.1 (List.all_cons ▸ h)
    rw [List.flatMap_cons, escape_of_isPlain hc, ih hcs, List.singleton_append]

namespace Reader

variable {purpose : Purpose}

/-- Blanks before a text are passed over. -/
theorem skipSpace_append_of_blank {blanks : List Char} (h : skipSpace blanks = [])
    (cs : List Char) : skipSpace (blanks ++ cs) = skipSpace cs := by
  have hall : ∀ c ∈ blanks, isSpace c := List.dropWhile_eq_nil_iff.1 h
  exact List.dropWhile_append_of_pos hall

theorem nextName_of_blank {blanks : List Char} (h : skipSpace blanks = []) (first : Bool)
    (cs : List Char) : nextName purpose first (blanks ++ cs) = nextName purpose first cs := by
  rw [nextName, nextName, skipSpace_append_of_blank h]

end Reader

/-! ### Members -/

/-- A member given by its name and by the text of its value, which only blanks may follow. -/
structure MemberText (value : Reader Value) where
  name : String
  text : List Char
  content : Value
  name_plain : name.toList.all isPlain
  reads : ∃ blanks, skipSpace blanks = [] ∧
    ∀ more, value (text ++ more) = .ok (content, blanks ++ more)

namespace MemberText

variable {value : Reader Value}

/-- The member as a name and a value. -/
def member (m : MemberText value) : String × Value := (m.name, m.content)

/-- The text of a member. -/
def chars (m : MemberText value) : List Char := '"' :: m.name.toList ++ '"' :: ':' :: m.text

/-- The name is its own escape, so the member is written as any other. -/
theorem chars_eq (m : MemberText value) : m.chars = memberChars m.name m.text := by
  rw [chars, memberChars, quotedString, quoted, flatMap_escape_of_isPlain m.name_plain]
  simp

theorem nextName_first (m : MemberText value) (more : List Char) :
    nextName .content true (m.chars ++ more) = .ok (some m.name, ':' :: m.text ++ more) := by
  rw [chars_eq]
  exact (nextName_memberChars m.name m.text more).1

theorem nextName_next (m : MemberText value) {blanks : List Char} (hblanks : skipSpace blanks = [])
    (more : List Char) : nextName .content false (blanks ++ ',' :: (m.chars ++ more)) =
      .ok (some m.name, ':' :: m.text ++ more) := by
  rw [nextName_of_blank hblanks, chars_eq]
  exact (nextName_memberChars m.name m.text more).2

theorem memberValue_chars (m : MemberText value) (before : List (String × Value)) :
    ∃ blanks, skipSpace blanks = [] ∧ ∀ more,
      memberValue value m.name before (':' :: m.text ++ more) =
        .ok (before ++ [m.member], blanks ++ more) := by
  obtain ⟨blanks, hblanks, hvalue⟩ := m.reads
  exact ⟨blanks, hblanks, fun more => memberValue_of_eq_ok rfl (hvalue more)⟩

end MemberText

/-! ### Objects -/

variable {value : Reader Value}

/-- The text of the members of an object after the first of them. -/
def moreChars (ms : List (MemberText value)) : List Char := ms.flatMap fun m => ',' :: m.chars

/-- The text of an object with the given members. -/
def objectChars (m : MemberText value) (ms : List (MemberText value)) : List Char :=
  '\x7b' :: m.chars ++ moreChars ms ++ ['\x7d']

theorem moreChars_cons (m : MemberText value) (ms : List (MemberText value)) (rest : List Char) :
    moreChars (m :: ms) ++ rest = ',' :: (m.chars ++ (moreChars ms ++ rest)) := by
  simp [moreChars]

theorem readsMembers_moreChars (ms : List (MemberText value)) {blanks : List Char}
    (hblanks : skipSpace blanks = []) (before : List (String × Value)) (rest : List Char) :
    ReadsMembers .content (memberValue value) false before
      (blanks ++ (moreChars ms ++ '\x7d' :: rest)) (before ++ ms.map MemberText.member)
      ('\x7d' :: rest) := by
  -- what was read before is arbitrary, as is the text of blanks left by the member before
  induction ms generalizing blanks before with
  | nil =>
    rw [List.map_nil, List.append_nil]
    refine .done ?_
    rw [nextName_of_blank hblanks]
    rfl
  | cons m ms ih =>
    -- the member leaves the blanks after its text to whatever follows it
    obtain ⟨blanks', hblanks', hmember⟩ := m.memberValue_chars before
    have hnext := m.nextName_next hblanks (moreChars ms ++ '\x7d' :: rest)
    have hrest := ih hblanks' (before ++ [m.member])
    rw [List.append_assoc, List.singleton_append] at hrest
    rw [moreChars_cons]
    exact .more hnext (hmember _) hrest

theorem writtenMembers_chars (hvalue : Advances value) (m : MemberText value)
    (ms : List (MemberText value)) (rest : List Char) :
    writtenMembers value (m.chars ++ (moreChars ms ++ '\x7d' :: rest)) =
      .ok ((m :: ms).map MemberText.member, rest) := by
  -- the first member follows the bracket, all others a comma
  obtain ⟨blanks, hblanks, hmember⟩ := m.memberValue_chars []
  have hnext := m.nextName_first (moreChars ms ++ '\x7d' :: rest)
  have hrest := readsMembers_moreChars ms hblanks [m.member] rest
  have hmembers := (members_eq_ok_iff (noLonger_memberValue hvalue)).2
    (.more hnext (hmember _) hrest)
  exact writtenMembers_eq_ok_iff.2 ⟨'\x7d' :: rest, hmembers, rfl⟩

/-- **An object that is put together from texts** is written with just their values. -/
theorem writtenMembers_objectChars
    (m : MemberText (Reader.value .content (nestingLimit - 1)))
    (ms : List (MemberText (Reader.value .content (nestingLimit - 1)))) :
    Value.writtenMembers (String.ofList (objectChars m ms)) =
      .ok ((m :: ms).map MemberText.member) := by
  have hwritten := writtenMembers_chars (advances_value (nestingLimit - 1)) m ms []
  refine run_eq_ok_iff.2 ⟨[], writtenObject_eq_ok_iff.2 ⟨_, ?_, hwritten⟩, rfl⟩
  rw [String.toList_ofList, objectChars, List.append_assoc]
  rfl

end RevisionRouting.Json
