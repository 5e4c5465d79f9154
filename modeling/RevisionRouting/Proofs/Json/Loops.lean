import RevisionRouting.Proofs.Json.Progress

/-!
# Loops over items and members

The loops over arrays and objects are bounded by the length of the text. Each pass
takes a character, so the bound is never reached: beyond the length of the text
all bounds are alike (`itemsUpTo_congr`, `membersUpTo_of_readsMembers`).

What is left for arrays is `itemsFrom`, which knows no bound and goes on from any place of an
array, and the two ways in which it can succeed: the array is closed, or one more item is read
and the loop goes on behind it. For objects these two ways are the rules of `ReadsMembers`.
-/

namespace RevisionRouting.Json.Reader

variable {α σ : Type} {purpose : Purpose} {item : Reader α} {member : String → σ → Reader σ}

/-! ### Items -/

theorem itemsUpTo_congr (hitem : Advances item) {n m : Nat} {first : Bool} {cs : List Char}
    (hn : cs.length < n) (hm : cs.length < m) :
    itemsUpTo purpose item n first cs = itemsUpTo purpose item m first cs := by
  -- both bounds go down by one an item, and neither is reached
  induction n generalizing m first cs with
  | zero => exact absurd hn (Nat.not_lt_zero _)
  | succ n ih =>
    -- the second bound is not zero either
    obtain ⟨m, rfl⟩ : ∃ k, m = k + 1 := ⟨m - 1, by omega⟩
    rw [itemsUpTo, itemsUpTo]
    cases hnext : nextItem purpose first cs with
    | error f => rfl
    | ok x =>
      obtain ⟨more, rest⟩ := x
      cases more with
      | false => rfl
      | true =>
        dsimp only
        cases ha : item rest with
        | error f => rfl
        | ok y =>
          obtain ⟨a, rest'⟩ := y
          -- the item takes a character, so both bounds stay beyond the length of the rest
          have hlt := hitem ha
          obtain ⟨hle, -⟩ := nextItem_eq_ok hnext
          dsimp only
          rw [ih (m := m) (by omega) (by omega)]

/-- Reads the items of an array from any place where one may begin. -/
def itemsFrom (purpose : Purpose) (item : Reader α) (first : Bool) : Reader (List α) := fun cs =>
  itemsUpTo purpose item (cs.length + 1) first cs

theorem nextItem_false_iff {first : Bool} {cs left : List Char} :
    nextItem purpose first cs = .ok (false, left) ↔
      ∃ rest, skipSpace cs = ']' :: rest ∧ left = ']' :: rest := by
  rw [nextItem]
  generalize skipSpace cs = text
  constructor
  · intro h
    -- the closing bracket is the first thing behind blanks
    split at h
    · cases h
    · next c cs' =>
      -- whatever is no closing bracket lets the array go on
      split_ifs at h with hc
      · cases h
        exact ⟨cs', by rw [hc], by rw [hc]⟩
      · cases h
      · split at h <;> cases h
  · rintro ⟨rest, rfl, rfl⟩
    rfl

/-- An array ends where its closing bracket comes next. -/
theorem itemsFrom_nil_iff {first : Bool} {cs rest : List Char} :
    itemsFrom purpose item first cs = .ok ([], rest) ↔ skipSpace cs = ']' :: rest := by
  rw [itemsFrom, itemsUpTo]
  constructor
  · intro h
    -- the loop has not gone round, so the bracket came first
    split at h
    · cases h
    · next left hnext =>
      obtain ⟨rest', hcs, rfl⟩ := nextItem_false_iff.1 hnext
      cases h
      exact hcs
    · split at h
      · cases h
      · obtain ⟨x, -, hx⟩ := map_eq_ok_iff.1 h
        exact absurd (Prod.mk.inj hx).1 (List.cons_ne_nil _ _)
  · -- the bracket comes first, so the loop does not go round
    intro h
    rw [nextItem_false_iff.2 ⟨rest, h, rfl⟩]
    rfl

theorem itemsFrom_cons_iff (hitem : Advances item) {first : Bool} {cs rest : List Char} {a : α}
    {as : List α} :
    itemsFrom purpose item first cs = .ok (a :: as, rest) ↔
      ∃ cs₁ cs₂, nextItem purpose first cs = .ok (true, cs₁) ∧ item cs₁ = .ok (a, cs₂) ∧
        itemsFrom purpose item false cs₂ = .ok (as, rest) := by
  rw [itemsFrom, itemsUpTo]
  -- the loop goes round just if an item comes next and can be read
  cases hnext : nextItem purpose first cs with
  | error f => simp
  | ok x =>
    obtain ⟨more, cs₁⟩ := x
    cases more with
    | false => simp
    | true =>
      dsimp only
      cases ha : item cs₁ with
      | error f => simp [ha]
      | ok y =>
        obtain ⟨b, cs₂⟩ := y
        -- the loop goes on under the bound that is left, which is as good as the rest's own
        have hlt := hitem ha
        obtain ⟨hle, -⟩ := nextItem_eq_ok hnext
        dsimp only
        rw [itemsUpTo_congr hitem (m := cs₂.length + 1) (by omega) (by omega), map_eq_ok_iff]
        constructor
        · -- the item, and the items behind it
          rintro ⟨⟨bs, rest'⟩, hbs, h⟩
          cases h
          exact ⟨cs₁, cs₂, rfl, ha, hbs⟩
        · rintro ⟨cs₁', cs₂', h₁, h₂, h₃⟩
          cases h₁
          rw [ha] at h₂
          cases h₂
          exact ⟨(as, rest), h₃, rfl⟩

/-! ### Members -/

/-- The members that can be read are read by the loop, under every bound beyond the length of the
text. -/
theorem membersUpTo_of_readsMembers (hmember : ∀ name s, NoLonger (member name s)) {first : Bool}
    {s s' : σ} {cs rest : List Char} (h : ReadsMembers purpose member first s cs s' rest)
    {fuel : Nat} (hfuel : cs.length < fuel) :
    membersUpTo purpose member fuel first s cs = .ok (s', rest) := by
  -- the bound is generalized, as it goes down with each member
  induction h generalizing fuel with
  | done hname =>
    obtain ⟨fuel, rfl⟩ := Nat.exists_eq_add_of_lt hfuel
    rw [membersUpTo, hname]
  | more hname hread _ ih =>
    obtain ⟨fuel, rfl⟩ : ∃ k, fuel = k + 1 := ⟨fuel - 1, by omega⟩
    -- the name takes a character
    obtain ⟨-, -, hlt⟩ := nextName_eq_ok hname
    have hlt := hlt (by simp)
    have hle := hmember _ _ hread
    rw [membersUpTo, hname]
    dsimp only
    rw [hread]
    exact ih (by omega)

/-- **The loop over members** reads what can be read member by member. -/
theorem members_eq_ok_iff (hmember : ∀ name s, NoLonger (member name s)) {s s' : σ}
    {cs rest : List Char} : members purpose member s cs = .ok (s', rest) ↔
      ReadsMembers purpose member true s cs s' rest :=
  ⟨readsMembers_of_membersUpTo,
    fun h => membersUpTo_of_readsMembers hmember h (Nat.lt_succ_self cs.length)⟩

/-- Two loops over members go in step if every member takes them from related states to related
states and to the same place of the text. -/
theorem membersUpTo_inStep {τ : Type} {other : String → τ → Reader τ} {R : σ → τ → Prop}
    (hstep : ∀ {name s t cs s' rest}, R s t → member name s cs = .ok (s', rest) →
      ∃ t', other name t cs = .ok (t', rest) ∧ R s' t')
    {fuel : Nat} {first : Bool} {s s' : σ} {t : τ} {cs rest : List Char} (hs : R s t)
    (h : membersUpTo purpose member fuel first s cs = .ok (s', rest)) :
    ∃ t', membersUpTo purpose other fuel first t cs = .ok (t', rest) ∧ R s' t' := by
  -- the states change with each member, and stay related
  induction fuel generalizing first s t cs with
  | zero => cases h
  | succ fuel ih =>
    rw [membersUpTo] at h ⊢
    -- both loops ask for the next name in the same way
    cases hnext : nextName purpose first cs with
    | error f =>
      rw [hnext] at h
      cases h
    | ok x =>
      obtain ⟨name, cs₁⟩ := x
      rw [hnext] at h
      cases name with
      | none =>
        -- the object ends for both loops
        cases h
        exact ⟨t, rfl, hs⟩
      | some name =>
        dsimp only at h ⊢
        cases hmember : member name s cs₁ with
        | error f =>
          rw [hmember] at h
          cases h
        | ok y =>
          rw [hmember] at h
          obtain ⟨t₁, hother, hs₁⟩ := hstep hs hmember
          rw [hother]
          exact ih hs₁ h

end RevisionRouting.Json.Reader
