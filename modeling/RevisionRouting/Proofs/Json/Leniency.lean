import RevisionRouting.Proofs.Json.Records
import RevisionRouting.Proofs.Json.WellFormed

/-!
# Records that pass over unknown members

A record that passes over the members that it does not know reads more texts than
one that refuses them. Two facts relate it to its fields. On what the refusing record
reads the two agree (`parse_of_refusing`). And whatever text it reads, only its fields
change what has been read, so a property that every field keeps holds at the end
(`exists_of_parse`).
-/

namespace RevisionRouting.Json

open Reader

variable {α σ : Type} {purpose : Purpose}

/-- The loop over members does with more members what it does with fewer. -/
theorem Reader.membersUpTo_mono {f g : String → σ → Reader σ}
    (hfg : ∀ {name s cs x}, f name s cs = .ok x → g name s cs = .ok x) {fuel : Nat} {first : Bool}
    {s : σ} {cs : List Char} {x : σ × List Char}
    (h : membersUpTo purpose f fuel first s cs = .ok x) :
    membersUpTo purpose g fuel first s cs = .ok x := by
  obtain ⟨s', rest⟩ := x
  -- the two loops hold the same at every step
  have hstep {name : String} {s t : σ} {cs : List Char} {s' : σ} {rest : List Char} (hst : s = t)
      (hread : f name s cs = .ok (s', rest)) :
      ∃ t', g name t cs = .ok (t', rest) ∧ s' = t' := by
    subst hst
    exact ⟨s', hfg hread, rfl⟩
  obtain ⟨t', hloop, rfl⟩ := membersUpTo_inStep hstep rfl h
  exact hloop

namespace Record

variable {r : Record σ α}

/-! ### Refusing unknown members -/

/-- The record that refuses unknown members. -/
def refusing (r : Record σ α) : Record σ α := { r with skipsUnknown := false }

theorem member_of_refusing {name : String} {s : σ} {cs : List Char} {x : σ × List Char}
    (h : r.refusing.member name s cs = .ok x) : r.member name s cs = .ok x := by
  unfold member at h ⊢
  have hfields : r.refusing.fields = r.fields := rfl
  rw [hfields] at h
  cases hfind : r.fields.find? fun f => f.name = name with
  | some f =>
    -- a known member is read by the same field
    rw [hfind] at h
    exact h
  | none =>
    -- an unknown member is never taken
    rw [hfind] at h
    cases h

theorem readFields_refusing (fs : List (RecordField σ)) (position : Nat) (s : σ) (cs : List Char) :
    r.refusing.readFields fs position s cs = r.readFields fs position s cs := by
  -- field by field, none of which asks for names
  induction fs generalizing position s cs with
  | nil => rfl
  | cons f fs ih =>
    simp only [readFields, ih]
    rfl

/-- **What is read without unknown members** is read alike when they are passed over. -/
theorem parse_of_refusing {text : String} {a : α} (h : r.refusing.parse text = .ok a) :
    r.parse text = .ok a := by
  obtain ⟨rest, hread, hrest⟩ := run_eq_ok_iff.1 h
  refine run_eq_ok_iff.2 ⟨rest, read_eq_ok_iff.2 ?_, hrest⟩
  -- an object or an array, by the same bracket
  refine (read_eq_ok_iff.1 hread).imp ?_ ?_
  · rintro ⟨cs, hcs, hobject⟩
    obtain ⟨⟨s, left⟩, hmembers, hfinish⟩ := bind_eq_ok_iff.1 hobject
    have hmembers := membersUpTo_mono member_of_refusing hmembers
    exact ⟨cs, hcs, bind_eq_ok_iff.2 ⟨(s, left), hmembers, hfinish⟩⟩
  · -- an array has no names, so the two read it in the same way
    rintro ⟨cs, hcs, harray⟩
    obtain ⟨⟨s, left⟩, hfields, hfinish⟩ := bind_eq_ok_iff.1 harray
    rw [readFields_refusing] at hfields
    exact ⟨cs, hcs, bind_eq_ok_iff.2 ⟨(s, left), hfields, hfinish⟩⟩

/-! ### What the fields keep -/

section Keeps

variable {I : σ → Prop}
  (hkeeps : ∀ f ∈ r.fields, ∀ ⦃s cs s' rest⦄, I s → f.read s cs = .ok (s', rest) → I s')
  {s s' : σ} {cs rest : List Char}
include hkeeps

theorem keeps_member {name : String} (hs : I s) (h : r.member name s cs = .ok (s', rest)) :
    I s' := by
  unfold member at h
  split at h
  · -- a known member changes what its field changes
    next f hf =>
    split_ifs at h
    obtain ⟨x, -, h⟩ := bind_eq_ok_iff.1 h
    exact hkeeps f (List.mem_of_find?_eq_some hf) hs h
  · split_ifs at h
    -- a member that is passed over changes nothing
    obtain ⟨x, -, h⟩ := bind_eq_ok_iff.1 h
    obtain ⟨y, -, h⟩ := bind_eq_ok_iff.1 h
    cases h
    exact hs

theorem keeps_readFields {fs : List (RecordField σ)} (hfs : ∀ f ∈ fs, f ∈ r.fields) {position : Nat}
    (hs : I s) (h : r.readFields fs position s cs = .ok (s', rest)) : I s' := by
  -- field by field, each reading an item or none
  induction fs generalizing position s cs with
  | nil =>
    cases h
    exact hs
  | cons f fs ih =>
    obtain ⟨hf, hfs⟩ := List.forall_mem_cons.1 hfs
    rw [readFields, bind_eq_ok_iff] at h
    obtain ⟨⟨more, cs₁⟩, -, h⟩ := h
    dsimp only at h
    split_ifs at h
    · -- one more item, for this field
      obtain ⟨⟨s₁, cs₂⟩, hread, h⟩ := bind_eq_ok_iff.1 h
      exact ih hfs (hkeeps f hf hs hread) h
    · -- the array has ended before it
      exact ih hfs hs h

/-- **What every field keeps**, a record has been read with. -/
theorem exists_of_parse (hstart : I r.start) {text : String} {a : α} (h : r.parse text = .ok a) :
    ∃ s, I s ∧ r.finish s = .ok a := by
  obtain ⟨rest, hread, -⟩ := run_eq_ok_iff.1 h
  -- an object or an array; in both the record is finished with what its fields kept
  obtain ⟨cs, -, hobject⟩ | ⟨cs, -, harray⟩ := read_eq_ok_iff.1 hread
  · obtain ⟨⟨s, left⟩, hmembers, h⟩ := bind_eq_ok_iff.1 hobject
    have hs := (readsMembers_of_membersUpTo hmembers).keeps (keeps_member hkeeps) hstart
    dsimp only at h
    split at h
    · next a' hfinish =>
      cases h
      exact ⟨s, hs, hfinish⟩
    · cases h
  · obtain ⟨⟨s, left⟩, hfields, h⟩ := bind_eq_ok_iff.1 harray
    have hs := keeps_readFields hkeeps (fun f hf => hf) hstart hfields
    dsimp only at h
    split at h
    · next a' hfinish =>
      obtain ⟨x, -, h⟩ := bind_eq_ok_iff.1 h
      cases h
      exact ⟨s, hs, hfinish⟩
    · cases h

end Keeps

end Record

end RevisionRouting.Json
