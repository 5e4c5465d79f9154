import RevisionRouting.Proofs.Json.Locality

/-!
# Values inside longer texts

A container is read to its closing bracket, so nothing after it matters, and all
that stands in it is followed by that bracket at least. So the characters of a container
decide what it is as soon as those of its elements do, with what follows them
(`closed_itemsFrom`, `closed_objectTail`).

The limit to nesting only ever refuses, so a value that has been read is read
alike under every greater limit. `value_taken` says both at once, by one
induction on the smaller of the two limits: of all values only numbers care about
what follows. A value is then read alike where more follows (`value_append`), and
from its own characters alone (`value_alone`).
-/

namespace RevisionRouting.Json.Reader

variable {α : Type} {purpose : Purpose} {cs rest : List Char}

/-- Blanks end at the first character that is taken behind them, whatever follows it. -/
theorem skipSpace_taken {taken : List Char} (hne : taken ≠ []) (h : skipSpace cs = taken ++ rest) :
    ∃ blanks, cs = blanks ++ (taken ++ rest) ∧
      ∀ more, skipSpace (blanks ++ (taken ++ more)) = taken ++ more := by
  -- the blanks are those at the head, and the text behind them begins as it did
  refine ⟨cs.takeWhile isSpace, ?_, fun more => ?_⟩
  · rw [← h]
    exact List.takeWhile_append_dropWhile.symm
  · have hgoesOn : GoesOnAs (cs.dropWhile isSpace) (taken ++ more) := by
      have hrest : cs.dropWhile isSpace = taken ++ rest := h
      rw [hrest]
      exact .of_ne_nil hne rest more
    exact (takeWhile_append_of_goesOnAs hgoesOn).2

theorem skipSpace_next {c : Char} (h : skipSpace cs = c :: rest) : ∃ blanks,
    cs = blanks ++ c :: rest ∧ ∀ more, skipSpace (blanks ++ c :: more) = c :: more :=
  skipSpace_taken (List.cons_ne_nil c []) h

/-! ### Containers -/

/-- The item that comes next, or the closing bracket, is looked at but not taken. -/
theorem nextItem_taken {first goesOn : Bool} {c : Char}
    (h : nextItem purpose first cs = .ok (goesOn, c :: rest)) : ∃ taken, cs = taken ++ c :: rest ∧
      ∀ more, nextItem purpose first (taken ++ c :: more) = .ok (goesOn, c :: more) := by
  unfold nextItem at h
  split at h
  · cases h
  · next d cs' hcs =>
    obtain ⟨blanks, rfl, hblanks⟩ := skipSpace_next hcs
    -- the closing bracket, the first item, or a comma before another
    split_ifs at h with hclose hfirst hcomma
    · cases h
      refine ⟨blanks, rfl, fun more => ?_⟩
      rw [nextItem, hblanks]
      exact if_pos hclose
    · cases h
      refine ⟨blanks, rfl, fun more => ?_⟩
      rw [nextItem, hblanks]
      exact (if_neg hclose).trans (if_pos hfirst)
    · -- a comma, and blanks on both sides of it
      split at h
      · cases h
      · next hne =>
        obtain ⟨rfl, hrest⟩ := Prod.mk.inj (Except.ok.inj h)
        obtain ⟨blanks', rfl, hblanks'⟩ := skipSpace_next hrest
        refine ⟨blanks ++ d :: blanks', by simp, fun more => ?_⟩
        rw [nextItem, List.append_assoc, List.cons_append, hblanks]
        dsimp only
        rw [if_neg hclose, if_neg hfirst, if_pos hcomma, hblanks']
        split
        · -- the bracket that is refused after a comma would have stood there before
          next heq =>
          obtain ⟨rfl, -⟩ := List.cons.inj heq
          exact absurd hrest (hne rest rfl)
        · rfl

theorem advances_itemsFrom {item : Reader α} (hitem : Advances item) (first : Bool) :
    Advances (itemsFrom purpose item first) :=
  fun cs _ _ h => advances_itemsUpTo hitem (cs.length + 1) first h

/-- An item is followed by the closing bracket at least. The induction is on the items, which are
those of both readers. -/
theorem closed_itemsFrom {f g : Reader α} (hf : Advances f) (hg : Advances g) (hlocal : Local f g)
    (first : Bool) : Closed (itemsFrom purpose f first) (itemsFrom purpose g first) := by
  intro cs as rest h
  induction as generalizing first cs with
  | nil =>
    -- the closing bracket comes next, and any text may stand behind it
    obtain ⟨blanks, rfl, hblanks⟩ := skipSpace_next (itemsFrom_nil_iff.1 h)
    refine ⟨blanks ++ [']'], by simp, fun more _ => itemsFrom_nil_iff.2 ?_⟩
    rw [List.append_assoc]
    exact hblanks more
  | cons a as ih =>
    obtain ⟨cs₁, cs₂, hnext, ha, has⟩ := (itemsFrom_cons_iff hf).1 h
    obtain ⟨others, rfl, hothers⟩ := ih false has
    obtain ⟨item, rfl, hitem⟩ := hlocal ha
    -- both the item and what comes behind it take a character, the latter the closing bracket
    obtain ⟨c, item, rfl⟩ := List.exists_cons_of_ne_nil (hf.taken_ne_nil ha)
    have hne : others ≠ [] := (advances_itemsFrom hf false).taken_ne_nil has
    obtain ⟨before, rfl, hbefore⟩ := nextItem_taken hnext
    refine ⟨before ++ (c :: item ++ others), by simp, fun more hmore => ?_⟩
    rw [List.append_assoc, List.append_assoc]
    exact (itemsFrom_cons_iff hg).2
      ⟨_, _, hbefore _, hitem _ (.of_ne_nil hne rest more), hothers more hmore⟩

theorem name_eq_ok_iff {first : Bool} {s : String} :
    name purpose first cs = .ok (s, rest) ↔
      ∃ cs', cs = '"' :: cs' ∧ stringTail purpose cs' = .ok (s, rest) := by
  constructor
  · intro h
    unfold name at h
    split at h
    · exact ⟨_, rfl, h⟩
    · cases h
  · rintro ⟨cs', rfl, h⟩
    exact h

theorem closed_colon : Closed colon colon := by
  intro cs u rest h
  unfold colon at h
  split at h
  · cases h
  · next c cs' hcs =>
    split_ifs at h with hcolon
    cases h
    -- the colon is taken, and any text may stand behind it
    obtain ⟨blanks, rfl, hblanks⟩ := skipSpace_next hcs
    refine ⟨blanks ++ [c], by simp, fun more _ => ?_⟩
    rw [colon, List.append_assoc, List.singleton_append, hblanks]
    exact if_pos hcolon

/-- The bracket that closes an object is looked at but not taken. -/
theorem nextName_none_taken {first : Bool} (h : nextName purpose first cs = .ok (none, rest)) :
    ∃ blanks left, rest = '\x7d' :: left ∧ cs = blanks ++ rest ∧
      ∀ more, nextName purpose first (blanks ++ '\x7d' :: more) = .ok (none, '\x7d' :: more) := by
  unfold nextName at h
  split at h
  · cases h
  · next c cs' hcs =>
    obtain ⟨blanks, rfl, hblanks⟩ := skipSpace_next hcs
    split_ifs at h with hclose
    · -- the bracket closes the object, and is left where it is
      cases h
      subst hclose
      refine ⟨blanks, cs', rfl, rfl, fun more => ?_⟩
      rw [nextName, hblanks]
      rfl
    · -- a name was read, so the object has not ended
      obtain ⟨_, _, h⟩ := map_fst_eq_ok_iff.1 h
      cases h
    · obtain ⟨_, _, h⟩ := map_fst_eq_ok_iff.1 h
      cases h

/-- A name is taken to its closing quote. -/
theorem nextName_some_taken {first : Bool} {s : String}
    (h : nextName purpose first cs = .ok (some s, rest)) : ∃ taken, cs = taken ++ rest ∧
      ∀ more, nextName purpose first (taken ++ more) = .ok (some s, more) := by
  unfold nextName at h
  split at h
  · cases h
  · next c cs' hcs =>
    split_ifs at h with hclose hfirst hcomma
    · cases h
    · -- the first name, from its quote on
      obtain ⟨_, hname, hs⟩ := map_fst_eq_ok_iff.1 h
      cases hs
      obtain ⟨cs'', heq, hstring⟩ := name_eq_ok_iff.1 hname
      obtain ⟨taken, rfl, hread⟩ := closed_stringTail.taken hstring
      rw [heq] at hcs
      obtain ⟨blanks, rfl, hblanks⟩ := skipSpace_next hcs
      refine ⟨blanks ++ '"' :: taken, by simp, fun more => ?_⟩
      rw [nextName, List.append_assoc, List.cons_append, hblanks]
      dsimp only
      rw [if_neg (by decide), if_pos hfirst]
      exact map_fst_eq_ok_iff.2 ⟨s, hread more, rfl⟩
    · -- a later name, behind a comma and blanks
      obtain ⟨_, hname, hs⟩ := map_fst_eq_ok_iff.1 h
      cases hs
      obtain ⟨cs'', hcs', hstring⟩ := name_eq_ok_iff.1 hname
      obtain ⟨taken, rfl, hread⟩ := closed_stringTail.taken hstring
      obtain ⟨blanks, rfl, hblanks⟩ := skipSpace_next hcs
      obtain ⟨blanks', rfl, hblanks'⟩ := skipSpace_next hcs'
      refine ⟨blanks ++ c :: (blanks' ++ '"' :: taken), by simp, fun more => ?_⟩
      rw [nextName, List.append_assoc, List.cons_append, hblanks]
      dsimp only
      rw [if_neg hclose, if_neg hfirst, if_pos hcomma, List.append_assoc, List.cons_append,
        hblanks']
      exact map_fst_eq_ok_iff.2 ⟨s, hread more, rfl⟩

/-- A member is followed by the closing bracket at least. -/
theorem readsMembers_taken {f g : Reader Value} (hlocal : Local f g) {first : Bool}
    {before after : List (String × Value)}
    (h : ReadsMembers purpose (memberValue f) first before cs after ('\x7d' :: rest)) :
    ∃ taken, cs = taken ++ '\x7d' :: rest ∧ ∀ more, ReadsMembers purpose (memberValue g) first
      before (taken ++ '\x7d' :: more) after ('\x7d' :: more) := by
  generalize hend : '\x7d' :: rest = left at h
  induction h with
  | done hname =>
    subst hend
    -- blanks are all that stands before the bracket
    obtain ⟨blanks, left, hleft, rfl, hblanks⟩ := nextName_none_taken hname
    exact ⟨blanks, rfl, fun more => .done (hblanks more)⟩
  | more hname hmember _ ih =>
    subst hend
    -- name, colon and value, and the members behind them
    obtain ⟨v, cs₃, hcolon, hv, rfl⟩ := memberValue_eq_ok hmember
    obtain ⟨others, rfl, hothers⟩ := ih rfl
    obtain ⟨value, rfl, hvalue⟩ := hlocal hv
    obtain ⟨colon, rfl, hbetween⟩ := closed_colon.taken hcolon
    obtain ⟨named, rfl, hnamed⟩ := nextName_some_taken hname
    refine ⟨named ++ (colon ++ (value ++ others)), by simp, fun more => ?_⟩
    rw [List.append_assoc, List.append_assoc, List.append_assoc]
    have hvalue := hvalue _ ((GoesOnAs.next '\x7d' rest more).append others)
    exact .more (hnamed _) (memberValue_of_eq_ok (hbetween _) hvalue) (hothers more)

theorem closed_objectTail {f g : Reader Value} (hf : Advances f) (hg : Advances g)
    (hlocal : Local f g) : Closed (objectTail purpose f) (objectTail purpose g) := by
  intro cs ms rest h
  unfold objectTail at h
  -- the members are read up to the bracket, which is dropped
  obtain ⟨⟨written, left⟩, hwritten, h⟩ := bind_eq_ok_iff.1 h
  have hwritten := readsMembers_of_membersUpTo hwritten
  obtain ⟨-, left', rfl⟩ := hwritten.closed (noLonger_memberValue hf)
  cases h
  obtain ⟨taken, rfl, hmembers⟩ := readsMembers_taken hlocal hwritten
  refine ⟨taken ++ ['\x7d'], by simp, fun more _ => ?_⟩
  rw [List.append_assoc]
  have hread := (members_eq_ok_iff (noLonger_memberValue hg)).2 (hmembers more)
  exact bind_eq_ok_iff.2 ⟨_, hread, rfl⟩

/-! ### Values -/

/-- The readers of nested values under two limits, the second not smaller: where the first may
open a container, so may the second, and it reads what the first reads. -/
def NestedAlike (f g : Option (Reader Value)) : Prop :=
  ∀ value ∈ f, ∃ value' ∈ g, Advances value ∧ Advances value' ∧ Local value value'

theorem Rule.ne_nil {nested : Option (Reader Value)} {v : Value}
    (h : Rule purpose nested cs v rest) : cs ≠ [] := by
  cases h <;> exact List.cons_ne_nil _ _

theorem rule_taken {f g : Option (Reader Value)} (hnested : NestedAlike f g) {v : Value}
    (h : Rule purpose f cs v rest) : ∃ taken, taken ≠ [] ∧ cs = taken ++ rest ∧
      ∀ more, ((∃ n, v = .number n) → GoesOnAs rest more) →
        Rule purpose g (taken ++ more) v more := by
  cases h with
  | null => exact ⟨_, List.cons_ne_nil _ _, rfl, fun more _ => .null⟩
  | boolTrue => exact ⟨_, List.cons_ne_nil _ _, rfl, fun more _ => .boolTrue⟩
  | boolFalse => exact ⟨_, List.cons_ne_nil _ _, rfl, fun more _ => .boolFalse⟩
  | @number c cs rest n hc h =>
    -- a number alone asks for a text behind it that does not go on with it
    obtain ⟨taken, rfl, hnumber⟩ := (local_number.tail advances_number c) h
    refine ⟨c :: taken, List.cons_ne_nil _ _, rfl, fun more hmore => ?_⟩
    exact .number hc (hnumber more (hmore ⟨n, rfl⟩))
  | string h =>
    obtain ⟨taken, rfl, hstring⟩ := closed_stringTail.taken h
    exact ⟨'"' :: taken, List.cons_ne_nil _ _, rfl, fun more _ => .string (hstring more)⟩
  | array hn h =>
    -- the closing bracket is among the characters that are taken
    obtain ⟨value', hn', hf, hg, hlocal⟩ := hnested _ hn
    obtain ⟨taken, rfl, hitems⟩ := (closed_itemsFrom hf hg hlocal true).taken h
    exact ⟨'[' :: taken, List.cons_ne_nil _ _, rfl, fun more _ => .array hn' (hitems more)⟩
  | object hn h =>
    obtain ⟨value', hn', hf, hg, hlocal⟩ := hnested _ hn
    obtain ⟨taken, rfl, hmembers⟩ := (closed_objectTail hf hg hlocal).taken h
    exact ⟨'\x7b' :: taken, List.cons_ne_nil _ _, rfl, fun more _ => .object hn' (hmembers more)⟩

/-- Blanks are taken before a value. -/
theorem value_of_rule_taken {d e : Nat} {v : Value}
    (hnested : NestedAlike (nestedValue purpose d) (nestedValue purpose e))
    (h : value purpose d cs = .ok (v, rest)) : ∃ taken, cs = taken ++ rest ∧
      ∀ more, ((∃ n, v = .number n) → GoesOnAs rest more) →
        value purpose e (taken ++ more) = .ok (v, more) := by
  obtain ⟨taken, hne, hcs, hrule⟩ := rule_taken hnested (value_iff.1 h)
  obtain ⟨blanks, rfl, hblanks⟩ := skipSpace_taken hne hcs
  refine ⟨blanks ++ taken, (List.append_assoc _ _ _).symm, fun more hmore => ?_⟩
  rw [value_iff, List.append_assoc, hblanks]
  exact hrule more hmore

/-- **The characters that a value takes decide what it is,** under every limit to nesting that is
not smaller. Only behind a number the text must be at its end or go on as it did. -/
theorem value_taken {d e : Nat} (hde : d ≤ e) {v : Value}
    (h : value purpose d cs = .ok (v, rest)) : ∃ taken, cs = taken ++ rest ∧
      ∀ more, ((∃ n, v = .number n) → GoesOnAs rest more) →
        value purpose e (taken ++ more) = .ok (v, more) := by
  induction d generalizing e cs v rest with
  | zero =>
    -- no container may be opened, so there is nothing nested
    refine value_of_rule_taken ?_ h
    intro nested hnested
    exact absurd hnested (Option.not_mem_none nested)
  | succ d ih =>
    obtain ⟨e, rfl⟩ : ∃ k, e = k + 1 := ⟨e - 1, by omega⟩
    -- what is nested is read under the two limits less one
    refine value_of_rule_taken ?_ h
    intro nested hnested
    cases hnested
    refine ⟨value purpose e, rfl, advances_value d, advances_value e, ?_⟩
    intro cs v rest h
    obtain ⟨taken, hcs, hvalue⟩ := ih (Nat.le_of_succ_le_succ hde) h
    exact ⟨taken, hcs, fun more hmore => hvalue more fun _ => hmore⟩

/-- **A value is read alike inside a longer text and under a greater limit to nesting.** Only a
number must not be followed by more where the text ended. -/
theorem value_append {d e : Nat} (hde : d ≤ e) {v : Value}
    (h : value purpose d cs = .ok (v, rest)) {more : List Char}
    (hmore : (∃ n, v = .number n) → rest = [] → more = []) :
    value purpose e (cs ++ more) = .ok (v, rest ++ more) := by
  obtain ⟨taken, rfl, hvalue⟩ := value_taken hde h
  rw [List.append_assoc]
  refine hvalue (rest ++ more) fun hn => ?_
  cases rest with
  | nil =>
    rw [hmore hn rfl]
    exact .refl []
  | cons c rest => exact .next c rest _

/-- An object is closed by its own bracket, so everything may follow it. -/
theorem object_append {d e : Nat} (hde : d ≤ e) {ms : Members}
    (h : value purpose d cs = .ok (.object ms, rest)) (more : List Char) :
    value purpose e (cs ++ more) = .ok (.object ms, rest ++ more) := by
  refine value_append hde h ?_
  rintro ⟨n, hn⟩
  cases hn

/-- A value is read from its own characters alone. -/
theorem value_alone {d e : Nat} (hde : d ≤ e) {v : Value}
    (h : value purpose d cs = .ok (v, rest)) : ∃ taken, cs = taken ++ rest ∧
      value purpose e taken = .ok (v, []) := by
  obtain ⟨taken, hcs, hvalue⟩ := value_taken hde h
  have halone := hvalue [] fun _ => .atEnd rest
  rw [List.append_nil] at halone
  exact ⟨taken, hcs, halone⟩

end RevisionRouting.Json.Reader
