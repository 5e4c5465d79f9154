import RevisionRouting.Proofs.Json.Progress
import RevisionRouting.Proofs.Text.Trim
import RevisionRouting.Time.Rfc3339

/-!
# The ends of a time stamp

A text that is read as a time stamp begins with the first digit of its year and ends with `Z`, `z`
or the last digit of its offset. So it has no blanks around it, and to trim it changes nothing
(`trim_of_ofChars?`).

A time stamp is read part by part, and each part leaves an end of the text to the next one
(`LeavesEnd`). So the last character is the one with which the offset ends (`EndsFirmly`).
-/

namespace RevisionRouting.Time.Stamp

open Json (bind_eq_ok_iff map_fst_eq_ok_iff)
open Text (isBlank)

variable {α β : Type}

/-! ### Parts and what they leave -/

/-- What is left of a text after a part of it has been read is an end of it. -/
def LeavesEnd (part : Part α) : Prop :=
  ∀ ⦃cs a rest⦄, part cs = .ok (a, rest) → rest <:+ cs

/-- A part with which a text ends does not end in a blank. -/
def EndsFirmly (part : Part α) : Prop :=
  ∀ ⦃cs a⦄, part cs = .ok (a, []) → ∃ c ∈ cs.getLast?, isBlank c = false

theorem LeavesEnd.bind {part : Part α} {next : α × List Char → Except StampFault (β × List Char)}
    (h : LeavesEnd part) (hnext : ∀ a, LeavesEnd fun cs => next (a, cs)) :
    LeavesEnd fun cs => part cs >>= next := by
  intro cs b rest hread
  obtain ⟨⟨a, cs₁⟩, ha, hb⟩ := bind_eq_ok_iff.1 hread
  exact (hnext a hb).trans (h ha)

/-- The last character of what is left is the last one of the text. -/
theorem EndsFirmly.of_suffix {cs rest : List Char} (h : rest <:+ cs)
    (hlast : ∃ c ∈ rest.getLast?, isBlank c = false) : ∃ c ∈ cs.getLast?, isBlank c = false := by
  obtain ⟨taken, rfl⟩ := h
  obtain ⟨c, hc, hblank⟩ := hlast
  exact ⟨c, List.mem_getLast?_append_of_mem_getLast? hc, hblank⟩

theorem LeavesEnd.bind_endsFirmly {part : Part α}
    {next : α × List Char → Except StampFault (β × List Char)} (h : LeavesEnd part)
    (hnext : ∀ a, EndsFirmly fun cs => next (a, cs)) :
    EndsFirmly fun cs => part cs >>= next := by
  intro cs b hread
  obtain ⟨⟨a, cs₁⟩, ha, hb⟩ := bind_eq_ok_iff.1 hread
  exact EndsFirmly.of_suffix (h ha) (hnext a hb)

theorem leavesEnd_pure (a : α) : LeavesEnd fun cs => .ok (a, cs) := by
  intro cs b rest h
  cases h
  exact List.suffix_refl cs

/-! ### The parts of a time stamp -/

theorem digits_eq_ok {n acc v : Nat} {cs rest : List Char} (h : digits n acc cs = .ok (v, rest)) :
    ∃ ds, cs = ds ++ rest ∧ ds.length = n ∧ ∀ d ∈ ds, d.isDigit = true := by
  -- the count of the digits is that of the recursion
  induction n generalizing acc cs with
  | zero =>
    cases h
    exact ⟨[], rfl, rfl, fun d hd => absurd hd List.not_mem_nil⟩
  | succ n ih =>
    cases cs with
    | nil => cases h
    | cons c cs =>
      rw [digits] at h
      split at h
      · next hc =>
        obtain ⟨ds, rfl, rfl, hds⟩ := ih h
        exact ⟨c :: ds, rfl, rfl, List.forall_mem_cons.2 ⟨hc, hds⟩⟩
      · cases h

theorem leavesEnd_digits (n acc : Nat) : LeavesEnd (digits n acc) := by
  intro cs v rest h
  obtain ⟨ds, rfl, -⟩ := digits_eq_ok h
  exact List.suffix_append ds rest

theorem endsFirmly_digits (n acc : Nat) : EndsFirmly (digits (n + 1) acc) := by
  intro cs v h
  obtain ⟨ds, hcs, hlength, hds⟩ := digits_eq_ok h
  rw [List.append_nil] at hcs
  subst hcs
  -- there is a last digit, as there is one digit at least
  have hne : cs ≠ [] := List.ne_nil_of_length_eq_add_one hlength
  exact ⟨cs.getLast hne, List.getLast?_eq_some_getLast hne,
    Text.isBlank_of_isDigit (hds _ (List.getLast_mem hne))⟩

theorem leavesEnd_mark (marks : List Char) : LeavesEnd (mark marks) := by
  intro cs u rest h
  cases cs with
  | nil => cases h
  | cons c cs =>
    rw [mark] at h
    split at h
    · cases h
      exact List.suffix_cons c _
    · cases h

theorem leavesEnd_datePart : LeavesEnd datePart := by
  -- five parts in a row, and then the check of the date, which reads nothing
  refine (leavesEnd_digits 4 0).bind fun year => (leavesEnd_mark ['-']).bind fun _ =>
    (leavesEnd_digits 2 0).bind fun month => (leavesEnd_mark ['-']).bind fun _ =>
      (leavesEnd_digits 2 0).bind fun day => ?_
  intro cs d rest h
  dsimp only at h
  split at h
  · exact leavesEnd_pure _ h
  · cases h

theorem leavesEnd_fractionPart : LeavesEnd fractionPart := by
  intro cs nanos rest h
  unfold fractionPart at h
  -- without a point nothing is read, and behind one there has to be a digit
  split at h
  · next cs =>
    split at h
    · cases h
    · next c cs =>
      split at h
      · -- more digits than count are passed over, too
        cases h
        exact (List.dropWhile_suffix _).trans (List.suffix_cons '.' _)
      · cases h
  · cases h
    exact List.suffix_refl _

theorem leavesEnd_timePart : LeavesEnd timePart := by
  -- the same for the time, whose fraction is the last of its parts
  refine (leavesEnd_digits 2 0).bind fun hour => (leavesEnd_mark [':']).bind fun _ =>
    (leavesEnd_digits 2 0).bind fun minute => (leavesEnd_mark [':']).bind fun _ =>
      (leavesEnd_digits 2 0).bind fun second => leavesEnd_fractionPart.bind fun nanos => ?_
  intro cs t rest h
  dsimp only at h
  split at h
  · exact leavesEnd_pure _ h
  · cases h

/-- That two bytes are due comes before the digits, and changes nothing about them. -/
theorem digits_of_twoDigits {cs : List Char} {x : Nat × List Char} (h : twoDigits cs = .ok x) :
    digits 2 0 cs = .ok x := by
  rw [twoDigits] at h
  split at h
  · cases h
  · exact h

theorem leavesEnd_twoDigits : LeavesEnd twoDigits :=
  fun _ _ _ h => leavesEnd_digits 2 0 (digits_of_twoDigits h)

theorem endsFirmly_twoDigits : EndsFirmly twoDigits :=
  fun _ _ h => endsFirmly_digits 1 0 (digits_of_twoDigits h)

theorem leavesEnd_offsetColon : LeavesEnd offsetColon := by
  intro cs u rest h
  -- a colon may be missing where the offset ends
  cases cs with
  | nil => cases h
  | cons c cs => exact leavesEnd_mark [':'] h

theorem endsFirmly_offsetMinutes : EndsFirmly offsetMinutes := by
  intro cs minutes h
  -- the minutes are read last, and the check of their range reads nothing
  obtain ⟨⟨m, rest⟩, hm, h⟩ := bind_eq_ok_iff.1 h
  dsimp only at h
  split at h
  · cases h
    exact endsFirmly_twoDigits hm
  · cases h

theorem endsFirmly_unsignedOffset : EndsFirmly unsignedOffset :=
  leavesEnd_twoDigits.bind_endsFirmly fun hours => leavesEnd_offsetColon.bind_endsFirmly fun _ => by
    intro cs minutes h
    obtain ⟨⟨m, rest⟩, hm, h⟩ := bind_eq_ok_iff.1 h
    cases h
    exact endsFirmly_offsetMinutes hm

theorem endsFirmly_offsetPart : EndsFirmly offsetPart := by
  intro cs offset h
  cases cs with
  | nil => cases h
  | cons c cs =>
    -- after a sign the offset ends in minutes, and without one it is a letter
    have hsigned (f : Nat → Int)
        (h : ((unsignedOffset cs).map fun r => (f r.1, r.2)) = .ok (offset, [])) :
        ∃ l ∈ (c :: cs).getLast?, isBlank l = false := by
      obtain ⟨v, hv, -⟩ := map_fst_eq_ok_iff.1 h
      exact EndsFirmly.of_suffix (List.suffix_cons c cs) (endsFirmly_unsignedOffset hv)
    rw [offsetPart] at h
    split at h
    · next hc =>
      cases h
      refine ⟨c, rfl, ?_⟩
      rcases hc with rfl | rfl <;> rfl
    · split at h
      · exact hsigned Int.ofNat h
      · split at h
        · exact hsigned (fun n => -Int.ofNat n) h
        · cases h

/-! ### Whole time stamps -/

theorem begins_of_datePart {cs rest : List Char} {d : Date} (h : datePart cs = .ok (d, rest)) :
    ∃ c ∈ cs.head?, isBlank c = false := by
  obtain ⟨⟨year, rest'⟩, hyear, -⟩ := bind_eq_ok_iff.1 h
  obtain ⟨ds, rfl, hlength, hds⟩ := digits_eq_ok hyear
  obtain ⟨c, ds, rfl⟩ := List.exists_cons_of_length_eq_add_one hlength
  exact ⟨c, rfl, Text.isBlank_of_isDigit (hds c List.mem_cons_self)⟩

/-- **There are no blanks around a time stamp.** -/
theorem trim_of_ofChars? {cs : List Char} {stamp : Stamp} (h : ofChars? cs = .ok stamp) :
    Text.trim cs = cs := by
  rw [ofChars?] at h
  split at h
  · cases h
  obtain ⟨⟨date, cs₁⟩, hdate, h⟩ := bind_eq_ok_iff.1 h
  obtain ⟨⟨u, cs₂⟩, hmark, h⟩ := bind_eq_ok_iff.1 h
  obtain ⟨⟨time, cs₃⟩, htime, h⟩ := bind_eq_ok_iff.1 h
  obtain ⟨⟨offset, cs₄⟩, hoffset, h⟩ := bind_eq_ok_iff.1 h
  dsimp only at h
  split at h
  · cases h
  next hnil =>
  -- text behind the offset is refused, so the offset is what the text ends with
  have hnil : cs₄ = [] := by simpa using hnil
  subst hnil
  -- from the date on, what each part leaves is an end of the text
  have hleft : cs₃ <:+ cs := (leavesEnd_timePart htime).trans
    ((leavesEnd_mark _ hmark).trans (leavesEnd_datePart hdate))
  obtain ⟨first, hfirst, hbegins⟩ := begins_of_datePart hdate
  obtain ⟨last, hlast, hends⟩ := EndsFirmly.of_suffix hleft (endsFirmly_offsetPart hoffset)
  -- nothing has to be taken off at either end
  refine Text.trim_eq_iff.2 ⟨⟨[], [], (List.append_nil cs).symm, nofun, nofun⟩, ?_, ?_⟩
  · exact fun c hc => Option.mem_unique hfirst hc ▸ hbegins
  · exact fun c hc => Option.mem_unique hlast hc ▸ hends

end RevisionRouting.Time.Stamp
