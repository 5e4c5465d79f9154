import Mathlib.Data.List.DropRight
import RevisionRouting.Text.Character

/-!
# Texts without the blanks around them

A text is its core with blanks at both ends, and the core neither begins nor ends with one
(`TrimsTo`). Every text has just one core, which is what `trim` makes of it (`trim_eq_iff`), so
more blanks around a text make no difference (`trim_append_blanks`).

`trimEnd` recurses from the front. What it does is the library's `List.rdropWhile`, which takes
characters off from the back (`trimEnd_eq_rdropWhile`).
-/

namespace RevisionRouting.Text

/-- The second text is the first without the blanks at its two ends. -/
structure TrimsTo (cs core : List Char) : Prop where
  pads : ∃ before after, cs = before ++ core ++ after ∧ (∀ c ∈ before, isBlank c = true) ∧
    ∀ c ∈ after, isBlank c = true
  begins : ∀ c ∈ core.head?, isBlank c = false
  ends : ∀ c ∈ core.getLast?, isBlank c = false

/-- A digit is no blank. -/
theorem isBlank_of_isDigit {c : Char} (h : c.isDigit = true) : isBlank c = false := by
  -- the characters 0 to 9 lie in none of the ranges of blanks
  have hrange : 48 ≤ c.toNat ∧ c.toNat ≤ 57 := by
    simpa [Char.isDigit, UInt32.le_iff_toNat_le] using h
  simp only [isBlank, blankRanges, List.any_cons, List.any_nil, Bool.or_false,
    Bool.or_eq_false_iff, Bool.and_eq_false_iff, decide_eq_false_iff_not]
  omega

/-! ### Blanks at the end -/

/-- Trimming looks at the last character first, though it recurses from the front. -/
theorem trimEnd_concat (cs : List Char) (c : Char) :
    trimEnd (cs ++ [c]) = if isBlank c then trimEnd cs else cs ++ [c] := by
  induction cs with
  | nil => cases hc : isBlank c <;> simp [trimEnd, hc]
  | cons d cs ih =>
    rw [List.cons_append, trimEnd, ih]
    by_cases hc : isBlank c = true
    · rw [if_pos hc, if_pos hc, trimEnd]
    · rw [if_neg hc, if_neg hc]
      -- a character that is no blank stays, and all before it do
      cases cs <;> rfl

theorem trimEnd_eq_rdropWhile (cs : List Char) : trimEnd cs = cs.rdropWhile isBlank := by
  induction cs using List.reverseRecOn with
  | nil => rfl
  | append_singleton cs c ih => rw [trimEnd_concat, List.rdropWhile_concat, ih]

theorem trimEnd_append_blanks (cs : List Char) {after : List Char}
    (h : ∀ c ∈ after, isBlank c = true) : trimEnd (cs ++ after) = trimEnd cs := by
  -- by induction from the back, which takes one blank at a time
  induction after using List.reverseRecOn with
  | nil => rw [List.append_nil]
  | append_singleton after c ih =>
    obtain ⟨hafter, hc⟩ := List.forall_mem_append.1 h
    rw [← List.append_assoc, trimEnd_concat, if_pos (List.forall_mem_singleton.1 hc), ih hafter]

theorem trimEnd_eq_self {cs : List Char} (h : ∀ c ∈ cs.getLast?, isBlank c = false) :
    trimEnd cs = cs := by
  rw [trimEnd_eq_rdropWhile, List.rdropWhile_eq_self_iff]
  intro hne
  exact Bool.eq_false_iff.1 (h _ (List.getLast?_eq_some_getLast hne))

/-! ### Cores -/

/-- **The core of a text is what trimming makes of it.** -/
theorem trim_eq_iff {cs core : List Char} : trim cs = core ↔ TrimsTo cs core := by
  constructor
  · rintro rfl
    -- what is cut off at the two ends is blank, and the core is what is left between them
    have hsplit := List.rdropWhile_append_rtakeWhile (p := isBlank) (l := cs.dropWhile isBlank)
    rw [← trimEnd_eq_rdropWhile] at hsplit
    refine ⟨⟨cs.takeWhile isBlank, (cs.dropWhile isBlank).rtakeWhile isBlank, ?_,
      fun c hc => List.mem_takeWhile_imp hc, fun c hc => List.mem_rtakeWhile_imp hc⟩, ?_, ?_⟩
    · rw [trim, List.append_assoc, hsplit, List.takeWhile_append_dropWhile]
    · -- the core begins where the blanks at the front end
      intro c hc
      obtain ⟨rest, hrest⟩ := List.head?_eq_some_iff.1 hc
      change trimEnd (cs.dropWhile isBlank) = _ at hrest
      have hhead := List.head?_dropWhile_not isBlank cs
      rw [hrest, List.cons_append] at hsplit
      rwa [← hsplit] at hhead
    · intro c hc
      rw [trim, trimEnd_eq_rdropWhile] at hc
      obtain ⟨hne, rfl⟩ := List.mem_getLast?_eq_getLast hc
      exact Bool.eq_false_iff.2 (List.rdropWhile_last_not isBlank _ hne)
  · rintro ⟨⟨before, after, rfl, hbefore, hafter⟩, hbegins, hends⟩
    -- a core that is not empty holds the blanks at its two ends apart
    rw [trim, List.append_assoc, List.dropWhile_append_of_pos hbefore]
    cases core with
    | nil =>
      rw [List.nil_append, List.dropWhile_eq_nil_iff.2 hafter]
      rfl
    | cons c core =>
      have hc : isBlank c ≠ true := Bool.eq_false_iff.1 (hbegins c rfl)
      rw [List.cons_append, List.dropWhile_cons_of_neg hc, ← List.cons_append,
        trimEnd_append_blanks _ hafter, trimEnd_eq_self hends]

/-- **More blanks around a text make no difference.** -/
theorem trim_append_blanks {before after : List Char} (hbefore : ∀ c ∈ before, isBlank c = true)
    (hafter : ∀ c ∈ after, isBlank c = true) (cs : List Char) :
    trim (before ++ cs ++ after) = trim cs := by
  obtain ⟨⟨before', after', hcs, hbefore', hafter'⟩, hbegins, hends⟩ :=
    -- the new blanks join those that are around the core already
    trim_eq_iff.1 (rfl : trim cs = trim cs)
  refine trim_eq_iff.2 ⟨⟨before ++ before', after' ++ after, ?_, ?_, ?_⟩, hbegins, hends⟩
  · conv_lhs => rw [hcs]
    simp only [List.append_assoc]
  · exact List.forall_mem_append.2 ⟨hbefore, hbefore'⟩
  · exact List.forall_mem_append.2 ⟨hafter', hafter⟩

theorem trim_toList_append {before after : String} (hbefore : isBlankText before = true)
    (hafter : isBlankText after = true) (text : String) :
    trim (before ++ text ++ after).toList = trim text.toList := by
  rw [String.toList_append, String.toList_append]
  exact trim_append_blanks (List.all_eq_true.1 hbefore) (List.all_eq_true.1 hafter) _

end RevisionRouting.Text
