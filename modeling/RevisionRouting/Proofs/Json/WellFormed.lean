import RevisionRouting.Proofs.Json.Members
import RevisionRouting.Proofs.Json.Rules

/-!
# The values that texts stand for

Not every value is that of a text. The names of an object that has been read
increase, since its members were inserted one after the other, and its containers
nest no deeper than the reader allowed. `Value.WellFormed` says both of a value and of
all that is in it, and `wellFormed_of_value` that it holds of whatever is read.

The induction is on the limit to nesting, as for the reader itself. What one pass
of a loop keeps, the loop keeps (`forall_of_itemsFrom`, `ReadsMembers.keeps`).
-/

namespace RevisionRouting.Json

/-! ### Increasing names -/

namespace Members

/-- The names of an object increase. -/
def Increasing (ms : Members) : Prop := ms.Pairwise fun m n => m.1 < n.1

theorem eq_or_mem_of_mem_insert {name : String} {v : Value} {ms : Members} {m : String × Value}
    (h : m ∈ insert name v ms) : m = (name, v) ∨ m ∈ ms := by
  -- by induction on the members, as insertion passes them in order
  induction ms with
  | nil => exact .inl (List.mem_singleton.1 h)
  | cons n ms ih =>
    rw [insert] at h
    split_ifs at h with hlt heq
    · -- the new member comes first
      exact List.mem_cons.1 h
    · -- the new member takes the place of one with its name
      exact (List.mem_cons.1 h).imp_right (List.mem_cons_of_mem n)
    · -- it is inserted further back
      obtain rfl | h := List.mem_cons.1 h
      · exact .inr List.mem_cons_self
      · exact (ih h).imp_right (List.mem_cons_of_mem n)

/-- Insertion keeps the names increasing. -/
theorem Increasing.insert {ms : Members} (h : ms.Increasing) (name : String) (v : Value) :
    (ms.insert name v).Increasing := by
  induction ms with
  | nil => exact List.pairwise_singleton _ _
  | cons m ms ih =>
    -- the three ways to insert, each checked against the order of the names
    obtain ⟨hm, hms⟩ := List.pairwise_cons.1 h
    rw [Members.insert]
    split_ifs with hlt heq
    · -- the new name is below the first, hence below all
      refine List.pairwise_cons.2 ⟨fun n hn => ?_, h⟩
      obtain rfl | hn := List.mem_cons.1 hn
      · exact hlt
      · exact String.lt_trans hlt (hm n hn)
    · -- the name is the same, so the order is
      exact List.pairwise_cons.2 ⟨fun n hn => heq ▸ hm n hn, hms⟩
    · -- the new name is above the first, and all behind are as well
      refine List.pairwise_cons.2 ⟨fun n hn => ?_, ih hms⟩
      obtain rfl | hn := eq_or_mem_of_mem_insert hn
      · exact Std.lt_of_le_of_ne hlt (Ne.symm heq)
      · exact hm n hn

theorem increasing_ofList (ms : List (String × Value)) : (ofList ms).Increasing := by
  -- from the end, where members are inserted
  induction ms using List.reverseRecOn with
  | nil => exact .nil
  | append_singleton ms m ih =>
    rw [ofList_append_singleton]
    exact ih.insert m.1 m.2

theorem mem_of_mem_ofList {ms : List (String × Value)} {m : String × Value}
    (h : m ∈ ofList ms) : m ∈ ms := by
  induction ms using List.reverseRecOn with
  | nil => exact h
  | append_singleton ms n ih =>
    rw [ofList_append_singleton] at h
    obtain rfl | h := eq_or_mem_of_mem_insert h
    · exact List.mem_append_right ms List.mem_cons_self
    · exact List.mem_append_left _ (ih h)

/-- A name beyond all others is inserted at the end. -/
theorem insert_of_forall_lt {ms : Members} {name : String} (h : ∀ m ∈ ms, m.1 < name)
    (v : Value) : ms.insert name v = ms ++ [(name, v)] := by
  induction ms with
  | nil => rfl
  | cons m ms ih =>
    -- every name is smaller, so the new member is passed to the end
    obtain ⟨hm, hms⟩ := List.forall_mem_cons.1 h
    rw [insert, if_neg (String.lt_asymm hm), if_neg (Std.ne_of_lt hm).symm, ih hms]
    rfl

/-- An object is made again from its members. -/
theorem Increasing.ofList_eq {ms : Members} (h : ms.Increasing) : ofList ms = ms := by
  induction ms using List.reverseRecOn with
  | nil => rfl
  | append_singleton ms m ih =>
    -- the last name is greater than all before it
    obtain ⟨hms, -, hlast⟩ := List.pairwise_append.1 h
    rw [ofList_append_singleton, ih hms]
    exact insert_of_forall_lt (fun n hn => hlast n hn m List.mem_cons_self) m.2

theorem mem_of_get?_eq_some {ms : Members} {name : String} {v : Value}
    (h : ms.get? name = some v) : (name, v) ∈ ms := by
  induction ms with
  | nil => cases h
  | cons m ms ih =>
    rw [get?_cons] at h
    -- the first member has the name, or the search goes on
    split_ifs at h with hname
    · cases h
      rw [hname]
      exact List.mem_cons_self
    · exact List.mem_cons_of_mem m (ih h)

theorem Increasing.get?_eq_some_iff {ms : Members} (h : ms.Increasing) {name : String} {v : Value} :
    ms.get? name = some v ↔ (name, v) ∈ ms := by
  refine ⟨mem_of_get?_eq_some, fun hm => ?_⟩
  induction ms with
  | nil => cases hm
  | cons m ms ih =>
    obtain ⟨hlt, hms⟩ := List.pairwise_cons.1 h
    rw [get?_cons]
    -- the member is the first, or its name is greater than that of the first
    obtain rfl | hm := List.mem_cons.1 hm
    · exact if_pos rfl
    · rw [if_neg (Std.ne_of_lt (hlt _ hm)).symm, ih hms hm]

theorem Increasing.nodup {ms : Members} (h : ms.Increasing) : ms.Nodup :=
  List.Pairwise.imp (fun hlt heq => Std.ne_of_lt hlt (congrArg Prod.fst heq)) h

theorem Increasing.eq_of_perm {ms ns : Members} (hms : ms.Increasing) (hns : ns.Increasing)
    (hperm : ms.Perm ns) : ms = ns :=
  hperm.eq_of_pairwise (fun _ _ _ _ hlt hgt => absurd hgt (String.lt_asymm hlt)) hms hns

/-- An object is known by what is found in it. -/
theorem Increasing.eq_of_get?_eq {ms ns : Members} (hms : ms.Increasing) (hns : ns.Increasing)
    (h : ∀ name, ms.get? name = ns.get? name) : ms = ns := by
  have hmem (m : String × Value) : m ∈ ms ↔ m ∈ ns := by
    rw [← hms.get?_eq_some_iff, ← hns.get?_eq_some_iff, h]
  exact hms.eq_of_perm hns ((List.perm_ext_iff_of_nodup hms.nodup hns.nodup).2 hmem)

/-- Members with different names make the same object in every order. -/
theorem ofList_eq_of_perm {ms ns : List (String × Value)} (h : (ms.map Prod.fst).Nodup)
    (hperm : ms.Perm ns) : ofList ms = ofList ns := by
  have hns : (ns.map Prod.fst).Nodup := (hperm.map Prod.fst).nodup_iff.1 h
  have hofList : (ofList ms).Perm (ofList ns) :=
    (ofList_perm h).trans (hperm.trans (ofList_perm hns).symm)
  exact (increasing_ofList ms).eq_of_perm (increasing_ofList ns) hofList

end Members

/-- The values of texts that nest at most `depth` containers: in each of their objects the names
increase. -/
inductive Value.WellFormed : Nat → Value → Prop
  | null {depth : Nat} : WellFormed depth .null
  | bool {depth : Nat} {b : Bool} : WellFormed depth (.bool b)
  | number {depth : Nat} {n : Number} : WellFormed depth (.number n)
  | string {depth : Nat} {s : String} : WellFormed depth (.string s)
  | array {depth : Nat} {vs : List Value} (items : ∀ v ∈ vs, WellFormed depth v) :
      WellFormed (depth + 1) (.array vs)
  | object {depth : Nat} {ms : Members} (increasing : ms.Increasing)
      (values : ∀ m ∈ ms, WellFormed depth m.2) : WellFormed (depth + 1) (.object ms)

/-- A value that fits under a limit to nesting fits under every greater one. -/
theorem Value.WellFormed.mono {depth : Nat} {v : Value} (h : v.WellFormed depth) {limit : Nat}
    (hle : depth ≤ limit) : v.WellFormed limit := by
  -- the limit is generalized, since inside a container it is smaller by one
  induction h generalizing limit with
  | null => exact .null
  | bool => exact .bool
  | number => exact .number
  | string => exact .string
  | array items ih =>
    obtain ⟨limit, rfl⟩ : ∃ k, limit = k + 1 := ⟨limit - 1, by omega⟩
    exact .array fun v hv => ih v hv (by omega)
  | object increasing values ih =>
    obtain ⟨limit, rfl⟩ : ∃ k, limit = k + 1 := ⟨limit - 1, by omega⟩
    exact .object increasing fun m hm => ih m hm (by omega)

/-- What is under a name of an object nests less deep than the object. -/
theorem Value.WellFormed.of_get? {depth : Nat} {ms : Members}
    (h : WellFormed (depth + 1) (.object ms)) {name : String} {v : Value}
    (hv : ms.get? name = some v) : v.WellFormed depth := by
  cases h with
  | object increasing values => exact values _ (Members.mem_of_get?_eq_some hv)

namespace Reader

variable {α σ : Type} {purpose : Purpose}

/-! ### What loops keep -/

theorem forall_of_itemsFrom {item : Reader α} (hitem : Advances item) {P : α → Prop}
    (hP : ∀ {cs a rest}, item cs = .ok (a, rest) → P a) {first : Bool} {cs rest : List Char}
    {as : List α} (h : itemsFrom purpose item first cs = .ok (as, rest)) : ∀ a ∈ as, P a := by
  -- one item read is one more that `P` holds of
  induction as generalizing first cs with
  | nil => exact fun a ha => absurd ha List.not_mem_nil
  | cons a as ih =>
    obtain ⟨cs₁, cs₂, -, ha, has⟩ := (itemsFrom_cons_iff hitem).1 h
    exact List.forall_mem_cons.2 ⟨hP ha, ih has⟩

/-- What one member keeps, all members keep. -/
theorem ReadsMembers.keeps {member : String → σ → Reader σ} {I : σ → Prop}
    (hmember : ∀ {name s cs s' rest}, I s → member name s cs = .ok (s', rest) → I s')
    {first : Bool} {s s' : σ} {cs rest : List Char}
    (h : ReadsMembers purpose member first s cs s' rest) (hs : I s) : I s' := by
  induction h with
  | done => exact hs
  | more _ hread _ ih => exact ih (hmember hs hread)

/-! ### Values -/

theorem wellFormed_of_objectTail {value : Reader Value} {depth : Nat}
    (hvalue : ∀ {cs v rest}, value cs = .ok (v, rest) → v.WellFormed depth)
    {cs rest : List Char} {ms : Members} (h : objectTail purpose value cs = .ok (ms, rest)) :
    Value.WellFormed (depth + 1) (.object ms) := by
  rw [objectTail, bind_eq_ok_iff] at h
  obtain ⟨⟨written, left⟩, hwritten, h⟩ := h
  cases h
  -- each member that is written has a value that was read
  have hvalues : ∀ m ∈ written, m.2.WellFormed depth := by
    refine (readsMembers_of_membersUpTo hwritten).keeps
      (I := fun ms => ∀ m ∈ ms, m.2.WellFormed depth) ?_ (fun m hm => absurd hm List.not_mem_nil)
    intro name ms cs ms' rest hms hread
    obtain ⟨v, cs', -, hv, rfl⟩ := memberValue_eq_ok hread
    exact List.forall_mem_append.2 ⟨hms, by simpa using hvalue hv⟩
  exact .object (Members.increasing_ofList written)
    fun m hm => hvalues m (Members.mem_of_mem_ofList hm)

theorem wellFormed_of_rule {depth : Nat} {cs rest : List Char} {v : Value}
    (h : Rule purpose (nestedValue purpose depth) cs v rest)
    (hnested : ∀ k, depth = k + 1 → ∀ {cs v rest}, value purpose k cs = .ok (v, rest) →
      v.WellFormed k) : v.WellFormed depth := by
  -- what is nested is well formed by hypothesis, and the other kinds always are
  cases h with
  | null => exact .null
  | boolTrue => exact .bool
  | boolFalse => exact .bool
  | number hc h => exact .number
  | string h => exact .string
  | array hn h =>
    -- with no depth left no container is opened
    cases depth with
    | zero => cases hn
    | succ depth =>
      cases hn
      exact .array (forall_of_itemsFrom (advances_value depth) (hnested depth rfl) h)
  | object hn h =>
    cases depth with
    | zero => cases hn
    | succ depth =>
      cases hn
      exact wellFormed_of_objectTail (hnested depth rfl) h

/-- **What is read is well formed**, and nests no deeper than the limit. -/
theorem wellFormed_of_value {depth : Nat} {cs rest : List Char} {v : Value}
    (h : value purpose depth cs = .ok (v, rest)) : v.WellFormed depth := by
  -- by induction on the limit, as what is nested has one less
  induction depth generalizing cs v rest with
  | zero => exact wellFormed_of_rule (value_iff.1 h) fun k hk => absurd hk (by omega)
  | succ depth ih =>
    refine wellFormed_of_rule (value_iff.1 h) fun k hk => ?_
    obtain rfl := Nat.succ.inj hk
    exact ih

end Reader

/-- The value of a text is well formed. -/
theorem Value.wellFormed_of_parse {text : String} {v : Value} (h : Value.parse text = .ok v) :
    v.WellFormed nestingLimit := by
  obtain ⟨rest, hread, -⟩ := Reader.run_eq_ok_iff.1 h
  exact Reader.wellFormed_of_value hread

end RevisionRouting.Json
