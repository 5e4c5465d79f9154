import RevisionRouting.Json.Reader.Record
import RevisionRouting.Proofs.Json.Rules

/-!
# Records are read from values

A record is read member by member, each by the reader of its field, and never as a
whole value. It comes to the same. Where the reader of every field picks out of
the values of one reader (`TypedField`), a record that refuses unknown names is
read from exactly those objects and arrays that the reader of values takes and
whose members or items the fields can take one after the other (`Record.parse_iff`).

An object is compared as it is written (`writtenMembers`), before the later of
two members with one name takes the place of the earlier.
-/

namespace RevisionRouting.Json

open Reader

variable {α β σ : Type} {value : Reader Value}

/-! ### Objects as they are written -/

/-- Reads an object after its opening bracket as the members that it is written with, in order,
those with the same name all included. -/
def Reader.writtenMembers (value : Reader α) : Reader (List (String × α)) := fun cs => do
  let (ms, cs) ← members .content (memberValue value) [] cs
  return (ms, cs.drop 1)

theorem Reader.writtenMembers_eq_ok_iff {value : Reader α} {cs rest : List Char}
    {ms : List (String × α)} : writtenMembers value cs = .ok (ms, rest) ↔
      ∃ left, members .content (memberValue value) [] cs = .ok (ms, left) ∧
        rest = left.drop 1 := by
  rw [writtenMembers, bind_eq_ok_iff]
  -- the closing bracket is dropped behind the members
  constructor
  · rintro ⟨⟨ms', left⟩, hms, h⟩
    cases h
    exact ⟨left, hms, rfl⟩
  · rintro ⟨left, hms, rfl⟩
    exact ⟨(ms, left), hms, rfl⟩

/-- An object holds of the members that it is written with the last of each name. -/
theorem Reader.objectTail_eq_ok_iff {cs rest : List Char} {ms : Members} :
    objectTail .content value cs = .ok (ms, rest) ↔
      ∃ written, writtenMembers value cs = .ok (written, rest) ∧ ms = .ofList written := by
  simp only [writtenMembers_eq_ok_iff]
  rw [objectTail, bind_eq_ok_iff]
  -- both readers run the same loop, and one inserts what the other lists
  constructor
  · rintro ⟨⟨written, left⟩, hms, h⟩
    cases h
    exact ⟨written, ⟨left, hms, rfl⟩, rfl⟩
  · rintro ⟨written, ⟨left, hms, rfl⟩, rfl⟩
    exact ⟨(written, left), hms, rfl⟩

/-- The members that the object is written with at the head of a text. -/
def Reader.writtenObject (value : Reader α) : Reader (List (String × α)) := fun cs =>
  match skipSpace cs with
  | '\x7b' :: cs => writtenMembers value cs
  | cs => .error (mismatch "a map" cs)

theorem Reader.writtenObject_eq_ok_iff {value : Reader α} {cs rest : List Char}
    {ms : List (String × α)} : writtenObject value cs = .ok (ms, rest) ↔
      ∃ cs', skipSpace cs = '\x7b' :: cs' ∧ writtenMembers value cs' = .ok (ms, rest) := by
  rw [writtenObject]
  generalize skipSpace cs = text
  constructor
  · intro h
    -- an object begins with its bracket, whatever is to be kept of it
    split at h
    · next cs' => exact ⟨cs', rfl, h⟩
    · cases h
  · rintro ⟨cs', rfl, h⟩
    exact h

/-- The members of the object that a text stands for, in the order in which they are written and
those with the same name all included. -/
def Value.writtenMembers (text : String) : Except Error (List (String × Value)) :=
  (Reader.writtenObject (Reader.value .content (nestingLimit - 1))).run text

/-- **What an object is made of**: of each name that is written the last member. -/
theorem Value.parse_object_iff {text : String} {ms : Members} :
    Value.parse text = .ok (.object ms) ↔
      ∃ written, Value.writtenMembers text = .ok written ∧ ms = .ofList written := by
  simp only [Value.parse, Value.writtenMembers, run_eq_ok_iff, writtenObject_eq_ok_iff]
  -- the object is one of the containers that may be open, which leaves one less for its members
  have hdepth : Reader.value .content nestingLimit =
      Reader.value .content (nestingLimit - 1 + 1) := rfl
  rw [hdepth]
  simp only [value_object_iff, objectTail_eq_ok_iff]
  constructor
  · rintro ⟨rest, ⟨cs, hcs, written, hwritten, rfl⟩, hrest⟩
    exact ⟨written, ⟨rest, ⟨cs, hcs, hwritten⟩, hrest⟩, rfl⟩
  · rintro ⟨written, ⟨rest, ⟨cs, hcs, hwritten⟩, hrest⟩, rfl⟩
    exact ⟨rest, ⟨cs, hcs, written, hwritten, rfl⟩, hrest⟩

/-! ### Fields -/

/-- A field whose reader picks out of the values that `value` reads. -/
structure TypedField (value : Reader Value) (σ : Type) where
  field : RecordField σ
  /-- What has been read of the record once the field holds a value, if it can. -/
  take : σ → Value → Option σ
  takes : ∀ ⦃s cs s' rest⦄, field.read s cs = .ok (s', rest) ↔
    ∃ v, value cs = .ok (v, rest) ∧ take s v = some s'

/-- The field that is read by a reader that picks. -/
def TypedField.of {read : Reader β} {pick : Value → Option β} (name : String)
    (get : σ → Option β) (set : σ → β → σ) (mayEndBefore : Bool)
    (h : Picks value read pick) : TypedField value σ where
  field := .of name get set read mayEndBefore
  take s v := (pick v).map (set s)
  takes s := h.map (set s)

/-- A field that has not been read yet takes what its reader picks. -/
theorem TypedField.of_eq_some_iff {read : Reader β} {pick : Value → Option β} {name : String}
    {get : σ → Option β} {set : σ → β → σ} {mayEndBefore : Bool} {h : Picks value read pick}
    {s s' : σ} {v : Value} :
    (if (TypedField.of name get set mayEndBefore h).field.isRead s then none
      else (TypedField.of name get set mayEndBefore h).take s v) = some s' ↔
      get s = none ∧ ∃ b, pick v = some b ∧ s' = set s b := by
  change (if (get s).isSome then none else (pick v).map (set s)) = some s' ↔ _
  -- a field that has been read takes nothing more
  cases hget : get s with
  | none =>
    rw [Option.isSome_none, if_neg Bool.false_ne_true, Option.map_eq_some_iff]
    simp only [true_and, eq_comm]
  | some b => simp

/-- What has been read of a record after one more member, if it has a field for it that has not
been read. -/
def takeMember (fs : List (TypedField value σ)) (s : σ) (m : String × Value) : Option σ :=
  match fs.find? fun f => f.field.name = m.1 with
  | some f => if f.field.isRead s then none else f.take s m.2
  | none => none

/-- What has been read of a record after items for its fields in order, if there are not too many
and only fields are left over that may be. -/
def takeItems : List (TypedField value σ) → σ → List Value → Option σ
  | [], s, [] => some s
  | [], _, _ :: _ => none
  | f :: fs, s, [] => if f.field.mayEndBefore then takeItems fs s [] else none
  | f :: fs, s, v :: vs => (f.take s v).bind fun s => takeItems fs s vs

theorem takeMember_of_find {fs : List (TypedField value σ)} {name : String}
    {found : Option (TypedField value σ)} (h : (fs.find? fun f => f.field.name = name) = found)
    (s : σ) (v : Value) : takeMember fs s (name, v) = found.bind fun f =>
      if f.field.isRead s then none else f.take s v := by
  subst h
  rw [takeMember]
  cases fs.find? fun f => f.field.name = name <;> rfl

/-- The first field with the name of the member takes it. -/
theorem takeMember_cons_of_eq {f : TypedField value σ} {name : String} (h : f.field.name = name)
    (fs : List (TypedField value σ)) (s : σ) (v : Value) :
    takeMember (f :: fs) s (name, v) = if f.field.isRead s then none else f.take s v := by
  rw [takeMember, List.find?_cons_of_pos (by simp [h])]

theorem takeMember_cons_of_ne {f : TypedField value σ} {name : String} (h : f.field.name ≠ name)
    (fs : List (TypedField value σ)) (s : σ) (v : Value) :
    takeMember (f :: fs) s (name, v) = takeMember fs s (name, v) := by
  rw [takeMember, List.find?_cons_of_neg (by simp [h]), takeMember]

namespace Record

variable {r : Record σ α} {fs : List (TypedField value σ)}

/-! ### Objects -/

theorem member_iff (hskips : r.skipsUnknown = false) (hfields : r.fields = fs.map (·.field))
    {name : String} {s s' : σ} {cs rest : List Char} :
    r.member name s cs = .ok (s', rest) ↔ ∃ v cs', colon cs = .ok ((), cs') ∧
      value cs' = .ok (v, rest) ∧ takeMember fs s (name, v) = some s' := by
  have hfind : r.fields.find? (fun f => f.name = name) =
      (fs.find? fun f => f.field.name = name).map (·.field) := by
    rw [hfields, List.find?_map]
    rfl
  -- the record looks for the field by its name, as does `takeMember`
  unfold member
  rw [hfind, hskips]
  cases hf : fs.find? fun f => f.field.name = name with
  | none =>
    -- an unknown name is refused on both sides
    simp [takeMember_of_find hf]
  | some f =>
    -- a known one is refused if its field has been read, and else left to the field
    simp only [takeMember_of_find hf, Option.map_some, Option.bind_some]
    split_ifs with hread
    · simp
    · rw [bind_eq_ok_iff]
      constructor
      · rintro ⟨⟨u, cs'⟩, hcolon, h⟩
        obtain ⟨v, hv, htake⟩ := f.takes.1 h
        exact ⟨v, cs', hcolon, hv, htake⟩
      · rintro ⟨v, cs', hcolon, hv, htake⟩
        exact ⟨((), cs'), hcolon, f.takes.2 ⟨v, hv, htake⟩⟩

/-- The members that are read come behind those before them. -/
theorem before_append_of_readsMembers {first : Bool} {cs rest : List Char}
    {before after : List (String × Value)}
    (h : ReadsMembers .content (memberValue value) first before cs after rest) :
    ∃ more, after = before ++ more := by
  induction h with
  | done => exact ⟨[], (List.append_nil _).symm⟩
  | more _ hmember _ ih =>
    obtain ⟨v, cs', -, -, rfl⟩ := memberValue_eq_ok hmember
    obtain ⟨more, rfl⟩ := ih
    exact ⟨_, List.append_assoc _ _ _⟩

/-- The loop that reads a record and the loop that reads members go in step: the record has taken
the members that were written so far. -/
theorem membersUpTo_iff (hskips : r.skipsUnknown = false) (hfields : r.fields = fs.map (·.field))
    {fuel : Nat} {first : Bool} {s s' : σ} {cs rest : List Char} (before : List (String × Value)) :
    membersUpTo .content r.member fuel first s cs = .ok (s', rest) ↔
      ∃ ms, membersUpTo .content (memberValue value) fuel first before cs =
        .ok (before ++ ms, rest) ∧ ms.foldlM (takeMember fs) s = some s' := by
  -- the bound is the same for both loops, and so is the text that is left
  induction fuel generalizing first s cs before with
  | zero => simp [membersUpTo]
  | succ fuel ih =>
    rw [membersUpTo, membersUpTo]
    -- both loops ask for the next name in the same way
    cases hnext : nextName .content first cs with
    | error f => simp
    | ok x =>
      obtain ⟨name, cs₁⟩ := x
      cases name with
      | none =>
        -- the object ends, and no member is left to be taken
        dsimp only
        constructor
        · intro h
          cases h
          exact ⟨[], by rw [List.append_nil], rfl⟩
        · rintro ⟨ms, hms, hfold⟩
          obtain ⟨hbefore, rfl⟩ := Prod.mk.inj (Except.ok.inj hms)
          obtain rfl := List.self_eq_append_right.1 hbefore
          cases hfold
          rfl
      | some name =>
        -- one more member: what the record takes is what the other loop writes down
        dsimp only
        constructor
        · intro h
          split at h
          · cases h
          · next s₁ cs₂ hs =>
            obtain ⟨v, cs', hcolon, hv, htake⟩ := (member_iff hskips hfields).1 hs
            obtain ⟨ms, hms, hfold⟩ := (ih (before ++ [(name, v)])).1 h
            refine ⟨(name, v) :: ms, ?_, ?_⟩
            · rw [memberValue_of_eq_ok hcolon hv]
              rw [List.append_assoc] at hms
              exact hms
            · rw [List.foldlM_cons, htake]
              exact hfold
        · rintro ⟨ms, hms, hfold⟩
          split at hms
          · cases hms
          · next before' cs₂ hmember =>
            obtain ⟨v, cs', hcolon, hv, rfl⟩ := memberValue_eq_ok hmember
            -- the loop only adds to what was read before it, so `ms` begins with this member
            obtain ⟨more, hmore⟩ :=
              before_append_of_readsMembers (readsMembers_of_membersUpTo hms)
            rw [List.append_assoc] at hmore
            obtain rfl := List.append_cancel_left hmore
            rw [List.singleton_append, List.foldlM_cons] at hfold
            obtain ⟨s₁, htake, hfold⟩ := Option.bind_eq_some_iff.1 hfold
            rw [(member_iff hskips hfields).2 ⟨v, cs', hcolon, hv, htake⟩]
            refine (ih (before ++ [(name, v)])).2 ⟨more, ?_, hfold⟩
            rw [hms, List.append_assoc]

/-- A record is read from an object if its fields can take the members that are written. -/
theorem readObject_iff (hskips : r.skipsUnknown = false) (hfields : r.fields = fs.map (·.field))
    {cs rest : List Char} {a : α} :
    r.readObject cs = .ok (a, rest) ↔ ∃ ms s, writtenMembers value cs = .ok (ms, rest) ∧
      ms.foldlM (takeMember fs) r.start = some s ∧ r.finish s = .ok a := by
  simp only [writtenMembers_eq_ok_iff]
  rw [readObject, bind_eq_ok_iff]
  -- the loops are in step from the first member on, with none before it
  constructor
  · rintro ⟨⟨s, left⟩, hs, h⟩
    obtain ⟨ms, hms, hfold⟩ := (membersUpTo_iff hskips hfields []).1 hs
    dsimp only at h
    -- the record is finished after its object has ended
    split at h
    · next a' hfinish =>
      cases h
      exact ⟨ms, s, ⟨left, hms, rfl⟩, hfold, hfinish⟩
    · cases h
  · rintro ⟨ms, s, ⟨left, hms, rfl⟩, hfold, hfinish⟩
    refine ⟨(s, left), (membersUpTo_iff hskips hfields []).2 ⟨ms, hms, hfold⟩, ?_⟩
    simp only [hfinish]
    rfl

/-! ### Arrays -/

theorem closeArray_iff {cs rest : List Char} :
    closeArray cs = .ok ((), rest) ↔ skipSpace cs = ']' :: rest := by
  rw [closeArray]
  generalize skipSpace cs = text
  -- the bracket is the one character that is not an error
  constructor
  · intro h
    split at h
    · cases h
    · cases h
      rfl
    · split at h <;> cases h
    · cases h
  · rintro rfl
    rfl

/-- The fields of an array are its items, as far as they go. -/
theorem readFields_iff (hvalue : Advances value) (gs : List (TypedField value σ))
    {position : Nat} {s s' : σ} {cs rest : List Char} :
    (∃ left, r.readFields (gs.map (·.field)) position s cs = .ok (s', left) ∧
        closeArray left = .ok ((), rest)) ↔
      ∃ vs, itemsFrom .content value (position = 0) cs = .ok (vs, rest) ∧
        takeItems gs s vs = some s' := by
  -- on the fields, and with them on the items that are left
  induction gs generalizing position s cs with
  | nil =>
    -- no field is left, so no item may be
    constructor
    · rintro ⟨left, h, hclose⟩
      cases h
      exact ⟨[], itemsFrom_nil_iff.2 (closeArray_iff.1 hclose), rfl⟩
    · rintro ⟨vs, hvs, htake⟩
      -- an item would be one too many
      cases vs with
      | nil =>
        cases htake
        exact ⟨cs, rfl, closeArray_iff.2 (itemsFrom_nil_iff.1 hvs)⟩
      | cons v vs => cases htake
  | cons g gs ih =>
    rw [List.map_cons]
    constructor
    · rintro ⟨left, h, hclose⟩
      rw [readFields, bind_eq_ok_iff] at h
      obtain ⟨⟨more, cs₁⟩, hnext, h⟩ := h
      cases more with
      | true =>
        -- the item is the field's
        obtain ⟨⟨s₁, cs₂⟩, hread, h⟩ := bind_eq_ok_iff.1 h
        obtain ⟨v, hv, htake⟩ := g.takes.1 hread
        obtain ⟨vs, hvs, hrest⟩ := ih.1 ⟨left, h, hclose⟩
        refine ⟨v :: vs, (itemsFrom_cons_iff hvalue).2 ⟨cs₁, cs₂, hnext, hv, hvs⟩, ?_⟩
        rw [takeItems, htake]
        exact hrest
      | false =>
        -- the array has ended; this field and those after it must allow that
        obtain ⟨l, hcs, rfl⟩ := nextItem_false_iff.1 hnext
        dsimp only at h
        rw [if_neg Bool.false_ne_true] at h
        split_ifs at h with hmay
        obtain ⟨vs, hvs, hrest⟩ := ih.1 ⟨left, h, hclose⟩
        -- once the closing bracket has been seen no item can follow
        have hnone : itemsFrom .content value (decide (position + 1 = 0)) (']' :: l) =
            .ok ([], l) := itemsFrom_nil_iff.2 rfl
        rw [hnone] at hvs
        cases hvs
        refine ⟨[], itemsFrom_nil_iff.2 hcs, ?_⟩
        rw [takeItems, if_pos hmay]
        exact hrest
    · -- the items decide which fields are read, and how many are left over
      rintro ⟨vs, hvs, htake⟩
      rw [readFields]
      cases vs with
      | nil =>
        -- no item is left, so the field may be missing
        have hcs := itemsFrom_nil_iff.1 hvs
        rw [takeItems] at htake
        split_ifs at htake with hmay
        obtain ⟨left, h, hclose⟩ :=
          ih.2 ⟨[], itemsFrom_nil_iff.2 (rfl : skipSpace (']' :: rest) = _), htake⟩
        refine ⟨left, bind_eq_ok_iff.2 ⟨_, nextItem_false_iff.2 ⟨rest, hcs, rfl⟩, ?_⟩, hclose⟩
        dsimp only
        rw [if_neg Bool.false_ne_true, if_pos hmay]
        exact h
      | cons v vs =>
        obtain ⟨cs₁, cs₂, hnext, hv, hvs⟩ := (itemsFrom_cons_iff hvalue).1 hvs
        rw [takeItems, Option.bind_eq_some_iff] at htake
        obtain ⟨s₁, htake, hrest⟩ := htake
        -- an item after the first is due after a comma, wherever the field stands
        have hvs' : itemsFrom .content value (decide (position + 1 = 0)) cs₂ = .ok (vs, rest) := hvs
        obtain ⟨left, h, hclose⟩ := ih.2 ⟨vs, hvs', hrest⟩
        refine ⟨left, bind_eq_ok_iff.2 ⟨_, hnext, bind_eq_ok_iff.2 ⟨(s₁, cs₂), ?_, h⟩⟩, hclose⟩
        exact g.takes.2 ⟨v, hv, htake⟩

/-- A record is read from an array if its fields can take the items in order. -/
theorem readArray_iff (hvalue : Advances value) (hfields : r.fields = fs.map (·.field))
    {cs rest : List Char} {a : α} :
    r.readArray cs = .ok (a, rest) ↔ ∃ vs s, items .content value cs = .ok (vs, rest) ∧
      takeItems fs r.start vs = some s ∧ r.finish s = .ok a := by
  rw [readArray, bind_eq_ok_iff, hfields]
  -- reading fields and closing the array are one lemma, with the rest between them hidden
  constructor
  · rintro ⟨⟨s, left⟩, hs, h⟩
    dsimp only at h
    split at h
    · next a' hfinish =>
      obtain ⟨⟨u, rest'⟩, hclose, h⟩ := bind_eq_ok_iff.1 h
      cases h
      obtain ⟨vs, hvs, htake⟩ := (readFields_iff hvalue fs).1 ⟨left, hs, hclose⟩
      exact ⟨vs, s, hvs, htake, hfinish⟩
    · cases h
  · rintro ⟨vs, s, hvs, htake, hfinish⟩
    -- the first field is at position zero, so its item comes without a comma
    have hvs' : itemsFrom .content value (decide ((0 : Nat) = 0)) cs = .ok (vs, rest) := hvs
    obtain ⟨left, hs, hclose⟩ := (readFields_iff hvalue fs).2 ⟨vs, hvs', htake⟩
    refine ⟨(s, left), hs, ?_⟩
    simp only [hfinish]
    exact bind_eq_ok_iff.2 ⟨((), rest), hclose, rfl⟩

/-! ### Texts -/

theorem read_eq_ok_iff {cs rest : List Char} {a : α} :
    r.read cs = .ok (a, rest) ↔
      (∃ cs', skipSpace cs = '\x7b' :: cs' ∧ r.readObject cs' = .ok (a, rest)) ∨
      ∃ cs', skipSpace cs = '[' :: cs' ∧ r.readArray cs' = .ok (a, rest) := by
  rw [read]
  generalize skipSpace cs = text
  -- a record begins with one of two brackets
  constructor
  · intro h
    split at h
    · next cs' => exact .inl ⟨cs', rfl, h⟩
    · next cs' => exact .inr ⟨cs', rfl, h⟩
    · cases h
  · rintro (⟨cs', rfl, h⟩ | ⟨cs', rfl, h⟩)
    · exact h
    · exact h

/-- **A record is read from values.** Its text is that of an object whose members its fields can
take as they are written, or that of an array whose items they can take in order. -/
theorem parse_iff {fs : List (TypedField (Reader.value .content (nestingLimit - 1)) σ)}
    (hskips : r.skipsUnknown = false) (hfields : r.fields = fs.map (·.field)) {text : String}
    {a : α} : r.parse text = .ok a ↔
      (∃ ms s, Value.writtenMembers text = .ok ms ∧
        ms.foldlM (takeMember fs) r.start = some s ∧ r.finish s = .ok a) ∨
      ∃ vs s, Value.parse text = .ok (.array vs) ∧
        takeItems fs r.start vs = some s ∧ r.finish s = .ok a := by
  simp only [parse, Value.parse, Value.writtenMembers, run_eq_ok_iff, read_eq_ok_iff,
    writtenObject_eq_ok_iff, readObject_iff hskips hfields,
    readArray_iff (advances_value _) hfields]
  have hdepth : Reader.value .content nestingLimit =
      Reader.value .content (nestingLimit - 1 + 1) := rfl
  rw [hdepth]
  simp only [value_array_iff]
  constructor
  · -- an object or an array, with nothing but blanks behind it
    rintro ⟨rest, ⟨cs, hcs, ms, s, hms, htake, hfinish⟩ | ⟨cs, hcs, vs, s, hvs, htake, hfinish⟩,
      hrest⟩
    · exact .inl ⟨ms, s, ⟨rest, ⟨cs, hcs, hms⟩, hrest⟩, htake, hfinish⟩
    · exact .inr ⟨vs, s, ⟨rest, ⟨cs, hcs, hvs⟩, hrest⟩, htake, hfinish⟩
  · rintro (⟨ms, s, ⟨rest, ⟨cs, hcs, hms⟩, hrest⟩, htake, hfinish⟩ |
      ⟨vs, s, ⟨rest, ⟨cs, hcs, hvs⟩, hrest⟩, htake, hfinish⟩)
    · exact ⟨rest, .inl ⟨cs, hcs, ms, s, hms, htake, hfinish⟩, hrest⟩
    · exact ⟨rest, .inr ⟨cs, hcs, vs, s, hvs, htake, hfinish⟩, hrest⟩

end Record

end RevisionRouting.Json
