import RevisionRouting.Proofs.Json.Rules

/-!
# Readers look at what they take

A reader goes from left to right and stops where a value ends. So the characters that it
took decide what it read: in front of any other text they are read alike. The reader `g`
agrees with `f` in this way, `ReadsAlike follow f g`, if it reads from the characters that
`f` took what `f` read, whatever stands behind them. Two things are in the way.

A number has no last character of its own: more digits would make it another one. So the
relation has the texts that may follow as a parameter. Every text may follow a string
(`Closed`), but only a text that is at its end or goes on with the same character as before
may follow a number (`Local`, `GoesOnAs`).

The reader of values that may nest deeper is another reader. It agrees with the
first on all that the first reads, hence the two readers in the relation.
-/

namespace RevisionRouting.Json

variable {α β : Type}

/-- The second text is at its end, or goes on with the character with which the first does. -/
inductive GoesOnAs : List Char → List Char → Prop
  | atEnd (rest : List Char) : GoesOnAs rest []
  | next (c : Char) (rest more : List Char) : GoesOnAs (c :: rest) (c :: more)

theorem GoesOnAs.refl (rest : List Char) : GoesOnAs rest rest := by
  cases rest with
  | nil => exact .atEnd []
  | cons c rest => exact .next c rest rest

/-- More characters before both texts do no harm. -/
theorem GoesOnAs.append {rest more : List Char} (h : GoesOnAs rest more) (taken : List Char) :
    GoesOnAs (taken ++ rest) (taken ++ more) := by
  cases taken with
  | nil => exact h
  | cons c taken => exact .next c _ _

theorem GoesOnAs.of_ne_nil {taken : List Char} (h : taken ≠ []) (rest more : List Char) :
    GoesOnAs (taken ++ rest) (taken ++ more) := by
  cases taken with
  | nil => exact absurd rfl h
  | cons c taken => exact .next c _ _

/-- Which texts may follow the characters that a reader took, given the text that followed them
when it took them. Characters before both texts do no harm. -/
structure Following where
  allows : List Char → List Char → Prop
  append : ∀ {rest more : List Char}, allows rest more → ∀ taken : List Char,
    allows (taken ++ rest) (taken ++ more)

/-- Every text may follow. -/
def Following.anything : Following := ⟨fun _ _ => True, fun _ _ => trivial⟩

/-- The text ends, or goes on as it did. -/
def Following.asBefore : Following := ⟨GoesOnAs, GoesOnAs.append⟩

/-- `g` reads what `f` reads from the characters that `f` takes, if what follows them may do so. -/
def ReadsAlike (follow : Following) (f g : Reader α) : Prop :=
  ∀ ⦃cs a rest⦄, f cs = .ok (a, rest) → ∃ taken, cs = taken ++ rest ∧
    ∀ more, follow.allows rest more → g (taken ++ more) = .ok (a, more)

/-- `g` reads what `f` reads from the characters that `f` takes, whatever follows them. -/
abbrev Closed (f g : Reader α) : Prop := ReadsAlike .anything f g

/-- `g` reads what `f` reads from the characters that `f` takes, if the text ends behind them or
goes on as it did. -/
abbrev Local (f g : Reader α) : Prop := ReadsAlike .asBefore f g

theorem Closed.taken {f g : Reader α} (h : Closed f g) {cs rest : List Char} {a : α}
    (hf : f cs = .ok (a, rest)) : ∃ taken, cs = taken ++ rest ∧
      ∀ more, g (taken ++ more) = .ok (a, more) := by
  obtain ⟨taken, hcs, hg⟩ := h hf
  exact ⟨taken, hcs, fun more => hg more trivial⟩

theorem Closed.isLocal {f g : Reader α} (h : Closed f g) : Local f g := by
  intro cs a rest hf
  obtain ⟨taken, hcs, hg⟩ := h.taken hf
  exact ⟨taken, hcs, fun more _ => hg more⟩

/-- A reader that advances has taken a character. -/
theorem Advances.taken_ne_nil {f : Reader α} (h : Advances f) {taken rest : List Char} {a : α}
    (hread : f (taken ++ rest) = .ok (a, rest)) : taken ≠ [] := by
  rintro rfl
  exact absurd (h hread) (Nat.lt_irrefl _)

section ReadsAlike

variable {follow : Following} {f g : Reader α}

/-- A reader of which the first character is known. -/
theorem ReadsAlike.of_cons (hf : Advances f)
    (h : ∀ c, ReadsAlike follow (fun cs => f (c :: cs)) fun cs => g (c :: cs)) :
    ReadsAlike follow f g := by
  intro cs a rest hread
  -- where there is no first character a reader that advances has failed
  cases cs with
  | nil => exact absurd rfl (hf.ne_nil hread)
  | cons c cs =>
    obtain ⟨taken, rfl, hg⟩ := h c hread
    exact ⟨c :: taken, rfl, hg⟩

/-- The first character is one of those that are taken. -/
theorem ReadsAlike.tail (h : ReadsAlike follow f g) (hf : Advances f) (c : Char) :
    ReadsAlike follow (fun cs => f (c :: cs)) fun cs => g (c :: cs) := by
  intro cs a rest hread
  obtain ⟨taken, hcs, hg⟩ := h hread
  cases taken with
  | nil =>
    -- a reader that advances cannot have left all of the text
    dsimp only at hread
    rw [hcs] at hread
    exact absurd rfl (hf.taken_ne_nil hread)
  | cons d taken =>
    obtain ⟨rfl, rfl⟩ := List.cons.inj hcs
    exact ⟨taken, rfl, hg⟩

theorem ReadsAlike.ite {p : Prop} [Decidable p] {f' g' : Reader α} (h : ReadsAlike follow f g)
    (h' : ReadsAlike follow f' g') :
    ReadsAlike follow (fun cs => if p then f cs else f' cs)
      fun cs => if p then g cs else g' cs := by
  by_cases hp : p
  · simp only [if_pos hp]
    exact h
  · simp only [if_neg hp]
    exact h'

theorem ReadsAlike.map (h : ReadsAlike follow f g) (k : α → β) :
    ReadsAlike follow (fun cs => (f cs).map fun r => (k r.1, r.2))
      fun cs => (g cs).map fun r => (k r.1, r.2) := by
  intro cs b rest hf
  obtain ⟨a, ha, rfl⟩ := map_fst_eq_ok_iff.1 hf
  -- what is taken is the same, and its result is changed on both sides
  obtain ⟨taken, hcs, hg⟩ := h ha
  exact ⟨taken, hcs, fun more hmore => map_fst_eq_ok_iff.2 ⟨a, hg more hmore, rfl⟩⟩

/-- Behind what the first reader takes stands what the second one takes, as before, and what may
follow that. -/
theorem ReadsAlike.bind {k l : α → Reader β} (h : ReadsAlike follow f g)
    (hk : ∀ a, ReadsAlike follow (k a) (l a)) :
    ReadsAlike follow (fun cs => f cs >>= fun r => k r.1 r.2)
      fun cs => g cs >>= fun r => l r.1 r.2 := by
  intro cs b rest hf
  obtain ⟨⟨a, cs₁⟩, ha, hb⟩ := bind_eq_ok_iff.1 hf
  obtain ⟨taken, rfl, hg⟩ := h ha
  obtain ⟨taken₁, rfl, hl⟩ := hk a hb
  refine ⟨taken ++ taken₁, (List.append_assoc _ _ _).symm, fun more hmore => ?_⟩
  rw [List.append_assoc]
  exact bind_eq_ok_iff.2 ⟨_, hg _ (follow.append hmore taken₁), hl more hmore⟩

end ReadsAlike

theorem closed_pure (a : α) : Closed (fun cs => .ok (a, cs)) fun cs => .ok (a, cs) := by
  intro cs b rest h
  cases h
  exact ⟨[], rfl, fun more _ => rfl⟩

theorem closed_error (fault : List Char → Fault) :
    Closed (α := α) (fun cs => .error (fault cs)) fun cs => .error (fault cs) := by
  intro cs a rest h
  cases h

/-! ### Numbers -/

/-- Characters of one kind are taken up to the first of another kind. -/
theorem takeWhile_append_of_goesOnAs {p : Char → Bool} {cs more : List Char}
    (h : GoesOnAs (cs.dropWhile p) more) :
    (cs.takeWhile p ++ more).takeWhile p = cs.takeWhile p ∧
      (cs.takeWhile p ++ more).dropWhile p = more := by
  have hall : ∀ c ∈ cs.takeWhile p, p c = true := fun c hc => List.mem_takeWhile_imp hc
  have hmore : more.takeWhile p = [] ∧ more.dropWhile p = more := by
    generalize hrest : cs.dropWhile p = rest at h
    -- the text that may follow is at its end, or it begins with the character that ended the run
    cases h with
    | atEnd => exact ⟨rfl, rfl⟩
    | next c rest more =>
      have hc : ¬ p c = true := by
        have hne : cs.dropWhile p ≠ [] := by rw [hrest]; exact List.cons_ne_nil c rest
        have hhead := List.head_dropWhile_not p hne
        simpa only [hrest, List.head_cons, Bool.not_eq_true] using hhead
      exact ⟨List.takeWhile_cons_of_neg hc, List.dropWhile_cons_of_neg hc⟩
  rw [List.takeWhile_append_of_pos hall, List.dropWhile_append_of_pos hall, hmore.1, hmore.2,
    List.append_nil]
  exact ⟨rfl, rfl⟩

namespace Literal

variable {purpose : Purpose}

theorem local_digits : Local (digits purpose) (digits purpose) := by
  intro cs ds rest h
  -- all digits at the head are taken, and what may follow begins with none
  obtain ⟨hne, rfl, rfl⟩ := digits_eq_ok h
  refine ⟨cs.takeWhile Char.isDigit, List.takeWhile_append_dropWhile.symm, fun more hmore => ?_⟩
  obtain ⟨htake, hdrop⟩ := takeWhile_append_of_goesOnAs hmore
  obtain ⟨d, ds, hds⟩ := List.exists_cons_of_ne_nil hne
  unfold digits
  rw [htake, hdrop, hds]

theorem wholePart_cons (c : Char) (cs : List Char) :
    wholePart purpose (c :: cs) =
      if c = '0' then
        match cs with
        | d :: ds =>
          if d.isDigit then .error (.next .malformedNumber (d :: ds)) else .ok (['0'], d :: ds)
        | [] => .ok (['0'], [])
      else digits purpose (c :: cs) := by
  split_ifs with hc
  · -- the zero is one of the patterns, and no other digit is
    subst hc
    cases cs <;> rfl
  · unfold wholePart
    split
    · next heq => exact absurd (List.cons.inj heq).1 hc
    · rfl

theorem fractionPart_cons (c : Char) (cs : List Char) :
    fractionPart purpose (c :: cs) = if c = '.' then digits purpose cs else .ok ([], c :: cs) := by
  split_ifs with hc
  · subst hc
    rfl
  · -- no other character is the pattern's
    unfold fractionPart
    split
    · next heq => exact absurd (List.cons.inj heq).1 hc
    · rfl

theorem signedDigits_cons (c : Char) (cs : List Char) :
    signedDigits purpose (c :: cs) =
      if c = '-' then (digits purpose cs).map fun r => ((true, r.1), r.2)
      else if c = '+' then (digits purpose cs).map fun r => ((false, r.1), r.2)
      else (digits purpose (c :: cs)).map fun r => ((false, r.1), r.2) := by
  split_ifs with hminus hplus
  · subst hminus
    rfl
  · subst hplus
    rfl
  · unfold signedDigits
    split
    · next heq => exact absurd (List.cons.inj heq).1 hminus
    · next heq => exact absurd (List.cons.inj heq).1 hplus
    · rfl

theorem read_cons (c : Char) (cs : List Char) :
    read purpose (c :: cs) =
      if c = '-' then readUnsigned purpose true cs else readUnsigned purpose false (c :: cs) := by
  split_ifs with hminus
  · subst hminus
    rfl
  · unfold read
    split
    · next heq => exact absurd (List.cons.inj heq).1 hminus
    · rfl

/-- A zero stands alone, so the character after it must be no digit. -/
theorem wholePart_zero_eq_ok_iff {cs ds rest : List Char} :
    wholePart purpose ('0' :: cs) = .ok (ds, rest) ↔
      ds = ['0'] ∧ rest = cs ∧ ∀ d ∈ cs.head?, ¬ d.isDigit := by
  rw [wholePart_cons, if_pos rfl]
  constructor
  · -- either the text ends, or a character follows that is checked
    intro h
    cases cs with
    | nil =>
      cases h
      exact ⟨rfl, rfl, fun d hd => nomatch hd⟩
    | cons d cs =>
      dsimp only at h
      split_ifs at h with hd
      cases h
      exact ⟨rfl, rfl, fun e he => Option.some.inj he ▸ hd⟩
  · rintro ⟨rfl, rfl, hdigit⟩
    cases rest with
    | nil => rfl
    | cons d rest => exact if_neg (hdigit d rfl)

theorem local_wholePart : Local (wholePart purpose) (wholePart purpose) := by
  refine .of_cons advances_wholePart fun c => ?_
  -- behind a zero only the next character counts, and that is the same
  by_cases hzero : c = '0'
  · subst hzero
    intro cs ds rest h
    obtain ⟨rfl, rfl, hdigit⟩ := wholePart_zero_eq_ok_iff.1 h
    refine ⟨[], rfl, fun more hmore => wholePart_zero_eq_ok_iff.2 ⟨rfl, rfl, ?_⟩⟩
    cases hmore with
    | atEnd => exact fun d hd => nomatch hd
    | next d => exact hdigit
  · simp only [wholePart_cons, if_neg hzero]
    exact local_digits.tail advances_digits c

/-- A part that may be missing, and that some first characters open. If it is missing it takes
nothing, and it is still missing if the text ends there. -/
theorem local_opening {part read : Reader α} {missing : α} {opens : Char → Prop}
    [DecidablePred opens] (hnil : part [] = .ok (missing, []))
    (hcons : ∀ c cs, part (c :: cs) = if opens c then read cs else .ok (missing, c :: cs))
    (hread : Local read read) : Local part part := by
  intro cs a rest h
  cases cs with
  | nil =>
    rw [hnil] at h
    cases h
    exact ⟨[], rfl, fun more hmore => by cases hmore; exact hnil⟩
  | cons c cs =>
    rw [hcons] at h
    by_cases hopens : opens c
    · -- the part is there, and what opens it is taken with the rest of it
      rw [if_pos hopens] at h
      obtain ⟨taken, rfl, htaken⟩ := hread h
      refine ⟨c :: taken, rfl, fun more hmore => ?_⟩
      rw [List.cons_append, hcons, if_pos hopens]
      exact htaken more hmore
    · -- the part is not there, and nothing is taken
      rw [if_neg hopens] at h
      cases h
      refine ⟨[], rfl, fun more hmore => ?_⟩
      cases hmore with
      | atEnd => exact hnil
      | next => exact (hcons c _).trans (if_neg hopens)

theorem local_fractionPart : Local (fractionPart purpose) (fractionPart purpose) :=
  local_opening rfl fractionPart_cons local_digits

theorem local_signedDigits : Local (signedDigits purpose) (signedDigits purpose) := by
  refine .of_cons advances_signedDigits fun c => ?_
  -- a sign is taken with the digits, and without one the digits are all there is
  by_cases hminus : c = '-'
  · simp only [signedDigits_cons, if_pos hminus]
    exact local_digits.map fun ds => (true, ds)
  · by_cases hplus : c = '+'
    · simp only [signedDigits_cons, if_neg hminus, if_pos hplus]
      exact local_digits.map fun ds => (false, ds)
    · simp only [signedDigits_cons, if_neg hminus, if_neg hplus]
      exact (local_digits.tail advances_digits c).map fun ds => (false, ds)

theorem local_exponentPart : Local (exponentPart purpose) (exponentPart purpose) :=
  local_opening rfl (fun c cs => by rw [exponentPart]) (local_signedDigits.map some)

theorem local_readUnsigned (negative : Bool) :
    Local (readUnsigned purpose negative) (readUnsigned purpose negative) :=
  local_wholePart.bind fun whole => local_fractionPart.bind fun fraction =>
    local_exponentPart.bind fun exponent =>
      (closed_pure (⟨negative, whole, fraction, exponent⟩ : Literal)).isLocal

theorem local_read : Local (read purpose) (read purpose) := by
  refine .of_cons advances_read fun c => ?_
  by_cases hminus : c = '-'
  · simp only [read_cons, if_pos hminus]
    exact local_readUnsigned true
  · simp only [read_cons, if_neg hminus]
    exact (local_readUnsigned false).tail (advances_readUnsigned false) c

/-- The text after a number matters to a fault alone. -/
theorem float_congr {negative : Bool} {significand : Nat} {e : Int} {rest : List Char} {n : Number}
    (h : float negative significand e rest = .ok n) (other : List Char) :
    float negative significand e other = .ok n := by
  -- the text shows in the fault alone
  rw [float] at h ⊢
  split at h
  · exact h
  · cases h

theorem number_congr {l : Literal} {rest : List Char} {n : Number} (h : l.number rest = .ok n)
    (other : List Char) : l.number other = .ok n := by
  unfold number at h ⊢
  dsimp only at h ⊢
  split_ifs at h ⊢ with hinteger
  · exact h
  · -- a float: the rest of the text stands in its faults, and there are none
    cases hexponent : l.exponent with
    | none =>
      rw [hexponent] at h
      exact float_congr h other
    | some e =>
      obtain ⟨negative, ds⟩ := e
      rw [hexponent] at h
      dsimp only at h ⊢
      split at h
      · exact float_congr h other
      · split_ifs at h ⊢
        exact h

/-- The value of a literal is looked at where the literal ends, and takes nothing. -/
theorem closed_number (l : Literal) :
    Closed (fun cs => l.number cs >>= fun n => .ok (n, cs))
      fun cs => l.number cs >>= fun n => .ok (n, cs) := by
  intro cs n rest h
  obtain ⟨n', hn, h⟩ := bind_eq_ok_iff.1 h
  cases h
  exact ⟨[], rfl, fun more _ => bind_eq_ok_iff.2 ⟨n, number_congr hn more, rfl⟩⟩

end Literal

namespace Reader

variable {purpose : Purpose}

theorem local_number : Local (number purpose) (number purpose) := by
  -- the value of the literal is asked for the content, but not for the extent
  cases purpose with
  | content => exact Literal.local_read.bind fun l => l.closed_number.isLocal
  | extent => exact Literal.local_read.bind fun _ => (closed_pure (Number.ofNat 0)).isLocal

/-! ### Texts -/

theorem closed_codeUnit : Closed codeUnit codeUnit := by
  intro cs n rest h
  obtain ⟨a, b, c, d, rfl, hn⟩ := codeUnit_eq_ok h
  refine ⟨[a, b, c, d], rfl, fun more _ => ?_⟩
  simp only [List.cons_append, List.nil_append, codeUnit, hn]

/-- The second half of a pair is an escape of its own. -/
theorem closed_secondHalf (n : Nat) : Closed (secondHalf n) (secondHalf n) := by
  intro cs c rest h
  unfold secondHalf at h
  split at h
  · split at h
    · -- behind the backslash and the `u` come the four digits
      have hafter (m : Nat) := ReadsAlike.ite (p := isTrailing m = true)
        (closed_pure (Char.ofNat (0x10000 + (n - 0xD800) * 0x400 + (m - 0xDC00))))
        (closed_error (.here .loneSurrogate))
      obtain ⟨taken, rfl, htaken⟩ := (closed_codeUnit.bind hafter) h
      exact ⟨'\\' :: 'u' :: taken, rfl, htaken⟩
    · cases h
  · cases h

theorem closed_unicodeEscape : Closed (unicodeEscape purpose) (unicodeEscape purpose) := by
  cases purpose with
  | extent => exact closed_codeUnit.bind fun n => closed_pure (Char.ofNat n)
  | content =>
    have hafter (n : Nat) := ReadsAlike.ite (p := isTrailing n = true)
      (closed_error (.here .loneSurrogate))
      (.ite (p := isLeading n = true) (closed_secondHalf n) (closed_pure (Char.ofNat n)))
    exact closed_codeUnit.bind hafter

theorem closed_escapeTail : Closed (escapeTail purpose) (escapeTail purpose) := by
  refine .of_cons advances_escapeTail fun c => ?_
  refine .ite closed_unicodeEscape ?_
  cases escaped? c with
  | none => exact closed_error _
  | some e => exact closed_pure e

theorem closed_piece : Closed (piece purpose) (piece purpose) := by
  refine .of_cons advances_piece fun c => ?_
  exact .ite (closed_pure none) (.ite (closed_escapeTail.map some)
    (.ite (closed_error _) (closed_pure (some c))))

/-- The bound on pieces is the length of the text, and so covers the characters that are taken. -/
theorem closed_pieces {n : Nat} {cs s rest : List Char} (h : pieces purpose n cs = .ok (s, rest)) :
    ∃ taken, cs = taken ++ rest ∧ ∀ m more, taken.length ≤ m →
      pieces purpose m (taken ++ more) = .ok (s, more) := by
  induction n generalizing cs s with
  | zero => cases h
  | succ n ih =>
    rw [pieces] at h
    split at h
    · cases h
    · next left hp =>
      cases h
      obtain ⟨taken, rfl, hpiece⟩ := closed_piece.taken hp
      have hne := advances_piece.taken_ne_nil hp
      refine ⟨taken, rfl, fun m more hm => ?_⟩
      obtain ⟨m, rfl⟩ := Nat.exists_eq_add_one.2 (Nat.lt_of_lt_of_le (List.length_pos_iff.2 hne) hm)
      rw [pieces, hpiece more]
    · next c left hp =>
      obtain ⟨⟨s', rest'⟩, hs, h⟩ := map_eq_ok_iff.1 h
      cases h
      obtain ⟨taken, rfl, hpiece⟩ := closed_piece.taken hp
      obtain ⟨taken', rfl, hpieces⟩ := ih hs
      have hpos := List.length_pos_iff.2 (advances_piece.taken_ne_nil hp)
      refine ⟨taken ++ taken', (List.append_assoc _ _ _).symm, fun m more hm => ?_⟩
      -- the first piece takes a character, and the bound has one for it
      rw [List.length_append] at hm
      obtain ⟨m, rfl⟩ : ∃ k, m = k + 1 := ⟨m - 1, by omega⟩
      rw [pieces, List.append_assoc, hpiece]
      exact map_eq_ok_iff.2 ⟨_, hpieces m more (by omega), rfl⟩

theorem closed_stringTail : Closed (stringTail purpose) (stringTail purpose) := by
  intro cs s rest h
  obtain ⟨s', hs, rfl⟩ := map_fst_eq_ok_iff.1 h
  obtain ⟨taken, rfl, hpieces⟩ := closed_pieces hs
  refine ⟨taken, rfl, fun more _ => map_fst_eq_ok_iff.2 ⟨s', hpieces _ more ?_, rfl⟩⟩
  rw [List.length_append]
  exact Nat.le_add_right _ _

end Reader

end RevisionRouting.Json
