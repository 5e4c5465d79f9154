import RevisionRouting.Proofs.Json.RoundTrip

/-!
# Records are read from texts that were written

A record that takes the members of an object one after the other is read from the
compact text of that object (`Record.parse_text`). How it takes a member is told of
its text alone (`Record.Takes`), whatever may follow, so a field may be read by
any reader, also by one that takes more than the text of one value.

Unlike `Record.parse_iff` this says nothing about other texts, and it asks nothing of
fields that no member is for.
-/

namespace RevisionRouting.Json

open Reader

variable {α β σ : Type}

/-! ### Members -/

namespace Record

/-- The record takes the text of a value under a name, whatever may follow it. -/
def Takes (r : Record σ α) (s : σ) (m : String × Value) (s' : σ) : Prop :=
  ∀ ⦃rest⦄, EndsNumber rest → r.member m.1 s (':' :: (m.2.chars ++ rest)) = .ok (s', rest)

/-- The record takes the texts of some members in order. -/
inductive TakesAll (r : Record σ α) : σ → Members → σ → Prop
  | nil {s : σ} : TakesAll r s [] s
  | cons {s₁ s₂ s₃ : σ} {m : String × Value} {ms : Members} (head : r.Takes s₁ m s₂)
      (tail : TakesAll r s₂ ms s₃) : TakesAll r s₁ (m :: ms) s₃

variable {r : Record σ α} {s s' : σ}

/-- A field that has not been read takes the text of a value if its reader does. -/
theorem takes_of (get : σ → Option β) (set : σ → β → σ) {name : String} {read : Reader β}
    {mayEndBefore : Bool} {b : β} {v : Value}
    (hfield : r.fields.find? (fun f => f.name = name) = some (.of name get set read mayEndBefore))
    (hunread : get s = none)
    (hread : ∀ ⦃rest⦄, EndsNumber rest → read (v.chars ++ rest) = .ok (b, rest)) :
    r.Takes s (name, v) (set s b) := by
  intro rest hrest
  rw [member, hfield]
  dsimp only
  -- the field has not been read, so it is not refused
  have hisRead : (RecordField.of name get set read mayEndBefore).isRead s = false := by
    change (get s).isSome = false
    rw [hunread, Option.isSome_none]
  rw [hisRead, if_neg Bool.false_ne_true]
  -- the colon, and then what the field reads
  refine bind_eq_ok_iff.2 ⟨((), v.chars ++ rest), rfl, ?_⟩
  exact map_fst_eq_ok_iff.2 ⟨b, hread hrest, rfl⟩

/-- A reader that picks out of values takes the text of a value that is read back. -/
theorem reads_of_picks {depth : Nat} {read : Reader β} {pick : Value → Option β} {b : β}
    {v : Value} (h : Picks (value .content depth) read pick) (hv : v.ReadsBack depth)
    (hpick : pick v = some b) ⦃rest : List Char⦄ (hrest : EndsNumber rest) :
    read (v.chars ++ rest) = .ok (b, rest) :=
  h.2 ⟨v, hv hrest, hpick⟩

/-! ### Objects -/

theorem membersUpTo_moreTexts {ms : Members} (h : r.TakesAll s ms s') {n : Nat}
    (hn : ms.length < n) (rest : List Char) :
    membersUpTo .content r.member n false s (moreTexts (memberTexts ms) ++ '\x7d' :: rest) =
      .ok (s', '\x7d' :: rest) := by
  -- each member takes one pass of the loop, and the closing bracket the last one
  induction h generalizing n with
  | nil =>
    obtain ⟨n, rfl⟩ : ∃ k, n = k + 1 := ⟨n - 1, by omega⟩
    rfl
  | @cons s₁ s₂ s₃ m ms head tail ih =>
    obtain ⟨n, rfl⟩ : ∃ k, n = k + 1 := ⟨n - 1, by omega⟩
    have hmember := head (endsNumber_moreTexts '\x7d' (by decide) (memberTexts ms) rest)
    rw [memberTexts, moreTexts_cons, membersUpTo, (nextName_memberChars m.1 _ _).2]
    dsimp only
    rw [hmember]
    exact ih (Nat.lt_of_succ_lt_succ hn)

theorem length_le_moreTexts (ms : Members) : ms.length ≤ (moreTexts (memberTexts ms)).length := by
  -- a comma for each member is enough
  induction ms with
  | nil => exact Nat.le_refl 0
  | cons m ms ih =>
    rw [memberTexts, moreTexts, List.flatMap_cons, List.length_append, ← moreTexts]
    simp only [List.length_cons]
    omega

/-- The members between the brackets of a text are taken, and the closing bracket is left. -/
theorem members_intercalate {ms : Members} (h : r.TakesAll s ms s') (rest : List Char) :
    members .content r.member s (List.intercalate [','] (memberTexts ms) ++ '\x7d' :: rest) =
      .ok (s', '\x7d' :: rest) := by
  cases h with
  | nil => rfl
  | @cons s₁ s₂ s₃ m ms head tail =>
    -- the first member follows the bracket, the others their commas
    have hmember := head (endsNumber_moreTexts '\x7d' (by decide) (memberTexts ms) rest)
    rw [memberTexts, intercalate_cons, List.append_assoc, members, membersUpTo,
      (nextName_memberChars m.1 _ _).1]
    dsimp only
    rw [hmember]
    refine membersUpTo_moreTexts tail ?_ rest
    -- the text holds a comma for each of the members that are left
    have hle := length_le_moreTexts ms
    simp only [List.length_append, List.length_cons]
    omega

/-- **A record is read from the text of an object** whose members it takes. -/
theorem parse_text {ms : Members} {a : α} (h : r.TakesAll r.start ms s)
    (hfinish : r.finish s = .ok a) : r.parse ms.text = .ok a := by
  -- what the members leave is the bracket, behind which the record is finished
  have hobject : r.readObject (List.intercalate [','] (memberTexts ms) ++ ['\x7d']) =
      .ok (a, []) := by
    refine bind_eq_ok_iff.2 ⟨_, members_intercalate h [], ?_⟩
    dsimp only
    rw [hfinish]
    rfl
  refine run_eq_ok_iff.2 ⟨[], ?_, rfl⟩
  rw [Members.text, Value.text, String.toList_ofList]
  exact read_eq_ok_iff.2 (.inl ⟨_, rfl, hobject⟩)

end Record

end RevisionRouting.Json
