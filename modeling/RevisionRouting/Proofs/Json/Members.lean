import Mathlib.Data.List.Induction
import Mathlib.Data.List.Nodup
import Mathlib.Tactic.SplitIfs
import RevisionRouting.Json.Value

/-!
# Lookup in objects

`Members.insert` acts on lookup as an update does, whether the names increase or
not (`get?_insert`). An object that is made of members one after the other then
has under each name the value that came last (`get?_ofList_append`), and no other
names than it was given (`get?_ofList_eq_none_iff`). Of members with different names it
holds them all (`ofList_perm`).
-/

namespace RevisionRouting.Json.Members

theorem get?_cons (m : String × Value) (ms : Members) (name : String) :
    get? (m :: ms) name = if name = m.1 then some m.2 else ms.get? name := by
  rw [get?, List.lookup_cons]
  split_ifs with h
  · rw [beq_iff_eq.2 h]
  · rw [beq_eq_false_iff_ne.2 h]
    rfl

/-- **Insertion updates lookup.** -/
theorem get?_insert (name : String) (v : Value) (ms : Members) (other : String) :
    (insert name v ms).get? other = if other = name then some v else ms.get? other := by
  induction ms with
  | nil => exact get?_cons (name, v) [] other
  | cons m ms ih =>
    rw [insert]
    -- the three ways to insert: before the first member, in its place, behind it
    by_cases hlt : name < m.1
    · rw [if_pos hlt, get?_cons]
    · rw [if_neg hlt]
      by_cases heq : name = m.1
      · rw [if_pos heq, get?_cons, get?_cons, ← heq]
        split_ifs <;> rfl
      · rw [if_neg heq, get?_cons, get?_cons, ih]
        -- the first member keeps its own name
        by_cases hother : other = m.1
        · rw [if_pos hother, if_pos hother, if_neg (hother ▸ Ne.symm heq)]
        · rw [if_neg hother, if_neg hother]

theorem ofList_append_singleton (ms : List (String × Value)) (m : String × Value) :
    ofList (ms ++ [m]) = insert m.1 m.2 (ofList ms) := by
  rw [ofList, List.foldl_append]
  rfl

/-- The last of the members with a name is the one that counts. -/
theorem get?_ofList_append (ms : List (String × Value)) (name : String) (v : Value)
    (other : String) : (ofList (ms ++ [(name, v)])).get? other =
      if other = name then some v else (ofList ms).get? other := by
  rw [ofList_append_singleton, get?_insert]

/-- The last of the members with a name is the one that is found. -/
theorem get?_ofList (ms : List (String × Value)) (name : String) :
    (ofList ms).get? name = ms.reverse.lookup name := by
  -- the last member comes first in the reversed list
  induction ms using List.reverseRecOn with
  | nil => rfl
  | append_singleton ms m ih =>
    rw [get?_ofList_append ms m.1 m.2, ih, List.reverse_append, List.reverse_singleton,
      List.singleton_append]
    exact (get?_cons m ms.reverse name).symm

theorem get?_ofList_eq_none_iff {ms : List (String × Value)} {name : String} :
    (ofList ms).get? name = none ↔ name ∉ ms.map Prod.fst := by
  induction ms using List.reverseRecOn with
  | nil => exact iff_of_true rfl List.not_mem_nil
  | append_singleton ms m ih =>
    rw [get?_ofList_append ms m.1 m.2, List.map_append, List.mem_append, List.map_singleton,
      List.mem_singleton]
    -- the last member has the name, or the others decide
    split_ifs with h
    · simp [h]
    · rw [ih]
      simp [h]

theorem insert_perm {name : String} {ms : Members} (h : name ∉ ms.map Prod.fst) (v : Value) :
    (insert name v ms).Perm ((name, v) :: ms) := by
  induction ms with
  | nil => exact .refl _
  | cons m ms ih =>
    rw [List.map_cons, List.mem_cons, not_or] at h
    rw [insert]
    split_ifs with hlt heq
    · exact .refl _
    · exact absurd heq h.1
    · -- the member goes further back, behind the first one
      exact ((ih h.2).cons m).trans (.swap (name, v) m ms)

/-- Members with different names are all there in the object that is made of them. -/
theorem ofList_perm {ms : List (String × Value)} (h : (ms.map Prod.fst).Nodup) :
    (ofList ms).Perm ms := by
  -- from the end, as each member is inserted behind those before it
  induction ms using List.reverseRecOn with
  | nil => exact .refl _
  | append_singleton ms m ih =>
    rw [List.map_append, List.map_singleton, ← List.concat_eq_append, List.nodup_concat] at h
    have hperm := ih h.2
    have hnew : m.1 ∉ (ofList ms).map Prod.fst := fun hm => h.1 ((hperm.map Prod.fst).mem_iff.1 hm)
    rw [ofList_append_singleton]
    have hcons : (insert m.1 m.2 (ofList ms)).Perm (m :: ms) :=
      (insert_perm hnew m.2).trans (hperm.cons m)
    exact hcons.trans (List.perm_append_singleton m ms).symm

/-- The names stay different from each other if the new one is not there yet. -/
theorem nodup_append_iff {ms : List (String × Value)} {name : String} {v : Value} :
    ((ms ++ [(name, v)]).map Prod.fst).Nodup ↔
      (ofList ms).get? name = none ∧ (ms.map Prod.fst).Nodup := by
  rw [List.map_append, List.map_singleton, ← List.concat_eq_append, List.nodup_concat,
    get?_ofList_eq_none_iff]

end RevisionRouting.Json.Members
