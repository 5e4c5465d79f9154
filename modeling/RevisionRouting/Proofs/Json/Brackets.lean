import RevisionRouting.Proofs.Json.Rules

/-!
# How deep a text nests

The limit to nesting is an argument of the reader, and the reader counts down. How
deep a text nests can also be seen from its brackets alone: those that do not
stand in a string, counted from the left (`nesting`). For a text that stands for a
value the two agree, so the texts read under a lower limit are just those whose
brackets nest no deeper than that (`run_value_iff`).

From one place of a text to another the count rises by some height and comes back
(`Spans`). Numbers, strings and words have no height, and a container has one more
than what stands in it.
-/

namespace RevisionRouting.Json

/-! ### Counting brackets -/

/-- Where a character of a text stands. -/
inductive Place where
  | outside
  | inString
  /-- In a string, after a backslash. -/
  | escaped

/-- How many containers are open at most at a time from some place on, where `depth` are open. -/
def nestingFrom : Place → Nat → List Char → Nat
  | _, depth, [] => depth
  | .escaped, depth, _ :: cs => nestingFrom .inString depth cs
  | .inString, depth, c :: cs =>
    if c = '"' then nestingFrom .outside depth cs
    else if c = '\\' then nestingFrom .escaped depth cs
    else nestingFrom .inString depth cs
  | .outside, depth, c :: cs =>
    if c = '"' then nestingFrom .inString depth cs
    else if c = '[' ∨ c = '\x7b' then nestingFrom .outside (depth + 1) cs
    else if c = ']' ∨ c = '\x7d' then max depth (nestingFrom .outside (depth - 1) cs)
    else nestingFrom .outside depth cs

/-- How many containers are open at most at a time in a text. -/
def nesting (cs : List Char) : Nat := nestingFrom .outside 0 cs

/-- A character that outside of strings neither brackets nor opens a string. -/
def isInert (c : Char) : Bool := !(['"', '[', ']', '\x7b', '\x7d'].contains c)

theorem le_nestingFrom (place : Place) (depth : Nat) (cs : List Char) :
    depth ≤ nestingFrom place depth cs := by
  -- the place and the depth change with each character, so both are generalized
  induction cs generalizing place depth with
  | nil => cases place <;> exact Nat.le_refl _
  | cons c cs ih =>
    cases place with
    | escaped => exact ih .inString depth
    | inString =>
      -- in a string no bracket counts
      unfold nestingFrom
      split_ifs
      · exact ih .outside depth
      · exact ih .escaped depth
      · exact ih .inString depth
    | outside =>
      unfold nestingFrom
      split_ifs
      · exact ih .inString depth
      · exact Nat.le_of_succ_le (ih .outside (depth + 1))
      · -- the depth before a closing bracket is part of the maximum
        exact Nat.le_max_left _ _
      · exact ih .outside depth

/-- What stands before `rest` opens `height` more containers at a time, and closes them all. -/
def Spans (height : Nat) (cs rest : List Char) : Prop :=
  ∀ depth, nestingFrom .outside depth cs =
    max (depth + height) (nestingFrom .outside depth rest)

variable {α : Type} {purpose : Purpose} {h k : Nat} {cs cs' rest : List Char}

theorem Spans.refl (cs : List Char) : Spans 0 cs cs :=
  fun depth => (Nat.max_eq_right (le_nestingFrom .outside depth cs)).symm

theorem Spans.trans (hcs : Spans h cs cs') (hrest : Spans k cs' rest) :
    Spans (max h k) cs rest := by
  intro depth
  rw [hcs, hrest, ← Nat.max_assoc, Nat.add_max_add_left]

/-- Parts of no height can stand before others. -/
theorem Spans.after (hrest : Spans h cs' rest) (hcs : Spans 0 cs cs') : Spans h cs rest := by
  have hboth := hcs.trans hrest
  rwa [Nat.zero_max] at hboth

theorem spans_zero_iff : Spans 0 cs rest ↔
    ∀ depth, nestingFrom .outside depth cs = nestingFrom .outside depth rest := by
  refine forall_congr' fun depth => ?_
  rw [Nat.add_zero, Nat.max_eq_right (le_nestingFrom .outside depth rest)]

theorem Spans.cons {c : Char} (hc : isInert c = true) (hcs : Spans h cs rest) :
    Spans h (c :: cs) rest := by
  -- an inert character leaves place and depth as they are
  refine hcs.after (spans_zero_iff.2 fun depth => ?_)
  simp only [isInert, List.contains_cons, List.contains_nil, Bool.not_eq_true',
    Bool.or_eq_false_iff, beq_eq_false_iff_ne] at hc
  obtain ⟨hquote, hopen, hclose, hopen', hclose', -⟩ := hc
  rw [nestingFrom, if_neg hquote, if_neg (not_or.2 ⟨hopen, hopen'⟩),
    if_neg (not_or.2 ⟨hclose, hclose'⟩)]

theorem spans_append {used : List Char} (hused : used.all isInert = true) (rest : List Char) :
    Spans 0 (used ++ rest) rest := by
  induction used with
  | nil => exact .refl rest
  | cons c used ih =>
    rw [List.all_cons, Bool.and_eq_true] at hused
    exact (ih hused.2).cons hused.1

/-- A string is passed from its opening quote on. -/
theorem spans_quote (hcs : ∀ depth, nestingFrom .inString depth cs =
    nestingFrom .outside depth rest) : Spans 0 ('"' :: cs) rest := by
  refine spans_zero_iff.2 fun depth => ?_
  rw [nestingFrom, if_pos rfl, hcs]

/-- A container is one higher than what stands in it. -/
theorem Spans.container {opening closing : Char}
    (hpair : opening = '[' ∧ closing = ']' ∨ opening = '\x7b' ∧ closing = '\x7d')
    (hcs : Spans h cs (closing :: rest)) : Spans (h + 1) (opening :: cs) rest := by
  intro depth
  -- the opening bracket counts one container more
  have hopen : nestingFrom .outside depth (opening :: cs) =
      nestingFrom .outside (depth + 1) cs := by
    obtain ⟨rfl, -⟩ | ⟨rfl, -⟩ := hpair <;> rfl
  have hclose : nestingFrom .outside (depth + 1) (closing :: rest) =
      max (depth + 1) (nestingFrom .outside depth rest) := by
    obtain ⟨-, rfl⟩ | ⟨-, rfl⟩ := hpair <;> rfl
  -- inside, everything is counted with one container more
  rw [hopen, hcs, hclose]
  omega

/-! ### Blanks, words and numbers -/

/-- A reader of what has no height. -/
def Flat (read : Reader α) : Prop :=
  ∀ ⦃cs a rest⦄, read cs = .ok (a, rest) → Spans 0 cs rest

theorem isInert_of_isDigit {c : Char} (hc : c.isDigit = true) : isInert c = true := by
  -- none of the five is a digit
  have hne {d : Char} (hd : d.isDigit = false) : c ≠ d := by
    rintro rfl
    exact absurd (hc.symm.trans hd) (by decide)
  simp [isInert, hne (d := '"') rfl, hne (d := '[') rfl, hne (d := ']') rfl,
    hne (d := '\x7b') rfl, hne (d := '\x7d') rfl]

theorem isInert_of_isSpace {c : Char} (hc : Reader.isSpace c = true) : isInert c = true := by
  simp only [Reader.isSpace, Bool.or_eq_true, decide_eq_true_eq] at hc
  obtain ((rfl | rfl) | rfl) | rfl := hc <;> rfl

/-- A text spans nothing while its characters are inert. -/
theorem spans_dropWhile {p : Char → Bool} (hp : ∀ c, p c = true → isInert c = true)
    (cs : List Char) : Spans 0 cs (cs.dropWhile p) := by
  have hused : (cs.takeWhile p).all isInert = true :=
    List.all_eq_true.2 fun c hc => hp c (List.mem_takeWhile_imp hc)
  have hspans := spans_append hused (cs.dropWhile p)
  rwa [List.takeWhile_append_dropWhile] at hspans

namespace Reader

theorem spans_skipSpace (cs : List Char) : Spans 0 cs (skipSpace cs) :=
  spans_dropWhile (fun _ => isInert_of_isSpace) cs

end Reader

namespace Literal

theorem flat_digits : Flat (digits purpose) := by
  intro cs ds rest hds
  obtain ⟨-, -, rfl⟩ := digits_eq_ok hds
  exact spans_dropWhile (fun _ => isInert_of_isDigit) cs

theorem flat_wholePart : Flat (wholePart purpose) := by
  intro cs ds rest hds
  unfold wholePart at hds
  split at hds
  · -- a zero by itself
    split at hds
    · split_ifs at hds
      cases hds
      exact (Spans.refl _).cons rfl
    · cases hds
      exact (Spans.refl _).cons rfl
  · -- any other digits
    exact flat_digits hds

theorem flat_fractionPart : Flat (fractionPart purpose) := by
  intro cs ds rest hds
  unfold fractionPart at hds
  split at hds
  · exact (flat_digits hds).cons rfl
  · cases hds
    exact .refl _

theorem flat_signedDigits : Flat (signedDigits purpose) := by
  intro cs ds rest hds
  unfold signedDigits at hds
  split at hds
  · obtain ⟨_, hds, -⟩ := map_fst_eq_ok_iff.1 hds
    exact (flat_digits hds).cons rfl
  · obtain ⟨_, hds, -⟩ := map_fst_eq_ok_iff.1 hds
    exact (flat_digits hds).cons rfl
  · obtain ⟨_, hds, -⟩ := map_fst_eq_ok_iff.1 hds
    exact flat_digits hds

theorem flat_exponentPart : Flat (exponentPart purpose) := by
  intro cs e rest he
  unfold exponentPart at he
  split at he
  · split_ifs at he with hletter
    · obtain ⟨_, hds, -⟩ := map_fst_eq_ok_iff.1 he
      -- the letter of the exponent is inert in both cases
      refine (flat_signedDigits hds).cons ?_
      obtain rfl | rfl := hletter <;> rfl
    · cases he
      exact .refl _
  · cases he
    exact .refl _

theorem flat_readUnsigned (negative : Bool) : Flat (readUnsigned purpose negative) := by
  intro cs l rest hl
  obtain ⟨whole, cs₁, fraction, cs₂, exponent, h₁, h₂, h₃, -⟩ := readUnsigned_eq_ok hl
  exact ((flat_exponentPart h₃).after (flat_fractionPart h₂)).after (flat_wholePart h₁)

theorem flat_read : Flat (read purpose) := by
  intro cs l rest hl
  unfold read at hl
  split at hl
  · exact (flat_readUnsigned true hl).cons rfl
  · exact flat_readUnsigned false hl

end Literal

namespace Reader

theorem flat_number : Flat (number purpose) := by
  intro cs n rest hn
  obtain ⟨l, hl, -⟩ := number_eq_ok hn
  exact Literal.flat_read hl

/-! ### Strings -/

/-- A reader that begins at one place and ends at another, with as many containers open. -/
def Leads (place place' : Place) (read : Reader α) : Prop :=
  ∀ ⦃cs a rest⦄, read cs = .ok (a, rest) →
    ∀ depth, nestingFrom place depth cs = nestingFrom place' depth rest

/-- A character that neither ends a string nor escapes another. -/
theorem nestingFrom_inString_cons {c : Char} (hquote : c ≠ '"') (hbackslash : c ≠ '\\')
    (depth : Nat) (cs : List Char) :
    nestingFrom .inString depth (c :: cs) = nestingFrom .inString depth cs := by
  rw [nestingFrom, if_neg hquote, if_neg hbackslash]

theorem ne_of_hexDigit? {c d : Char} {n : Nat} (hc : hexDigit? c = some n)
    (hd : hexDigit? d = none) : c ≠ d := by
  rintro rfl
  exact absurd (hc.symm.trans hd) (Option.some_ne_none n)

theorem leads_codeUnit : Leads .inString .inString codeUnit := by
  intro cs n rest hn depth
  -- the four characters are hexadecimal digits
  obtain ⟨a, b, c, d, rfl, hhex⟩ := codeUnit_eq_ok hn
  obtain ⟨na, ha, hhex⟩ := Option.bind_eq_some_iff.1 hhex
  obtain ⟨nb, hb, hhex⟩ := Option.bind_eq_some_iff.1 hhex
  obtain ⟨nc, hc, hhex⟩ := Option.bind_eq_some_iff.1 hhex
  obtain ⟨nd, hd, -⟩ := Option.bind_eq_some_iff.1 hhex
  -- neither a quote nor a backslash is a digit
  have hstep {e : Char} {n : Nat} (he : hexDigit? e = some n) (cs : List Char) :
      nestingFrom .inString depth (e :: cs) = nestingFrom .inString depth cs :=
    nestingFrom_inString_cons (ne_of_hexDigit? he rfl) (ne_of_hexDigit? he rfl) depth cs
  rw [hstep ha, hstep hb, hstep hc, hstep hd]

theorem leads_secondHalf (n : Nat) : Leads .inString .inString (secondHalf n) := by
  intro cs c rest hc depth
  unfold secondHalf at hc
  -- the backslash escapes the `u`, and the code unit stands in the string again
  split at hc
  · split at hc
    · obtain ⟨⟨m, rest'⟩, hm, hc⟩ := bind_eq_ok_iff.1 hc
      have hunit := leads_codeUnit hm depth
      dsimp only at hc
      split_ifs at hc
      obtain ⟨-, rfl⟩ := Prod.mk.inj (Except.ok.inj hc)
      exact hunit
    · cases hc
  · cases hc

theorem leads_unicodeEscape : Leads .inString .inString (unicodeEscape purpose) := by
  intro cs c rest hc depth
  unfold unicodeEscape at hc
  obtain ⟨⟨n, rest'⟩, hn, hc⟩ := bind_eq_ok_iff.1 hc
  -- the first half, and a second one if it needs it
  have hunit := leads_codeUnit hn depth
  cases purpose with
  | extent =>
    cases hc
    exact hunit
  | content =>
    dsimp only at hc
    split_ifs at hc
    · exact hunit.trans (leads_secondHalf n hc depth)
    · cases hc
      exact hunit

theorem leads_escapeTail : Leads .escaped .inString (escapeTail purpose) := by
  intro cs c rest hc depth
  unfold escapeTail at hc
  -- the character behind the backslash is passed in any case
  split at hc
  · cases hc
  · split_ifs at hc
    · exact leads_unicodeEscape hc depth
    · split at hc
      · cases hc
        rfl
      · cases hc

/-- A piece is a character of the string, or leads out of it. -/
theorem nestingFrom_piece {c : Option Char} (hc : piece purpose cs = .ok (c, rest)) (depth : Nat) :
    nestingFrom .inString depth cs =
      nestingFrom (if c = none then .outside else .inString) depth rest := by
  unfold piece at hc
  split at hc
  · cases hc
  · split_ifs at hc with hquote hbackslash
    · -- the closing quote leads out of the string
      cases hc
      rw [nestingFrom, if_pos hquote, if_pos rfl]
    · -- the backslash and what is escaped by it
      obtain ⟨e, he, rfl⟩ := map_fst_eq_ok_iff.1 hc
      rw [nestingFrom, if_neg hquote, if_pos hbackslash, if_neg (Option.some_ne_none e)]
      exact leads_escapeTail he depth
    · -- the character stands for itself
      cases hc
      rw [nestingFrom_inString_cons hquote hbackslash, if_neg (Option.some_ne_none _)]

theorem leads_pieces (fuel : Nat) : Leads .inString .outside (pieces purpose fuel) := by
  -- piece by piece, up to the one that leads out
  induction fuel with
  | zero =>
    intro cs s rest hs
    cases hs
  | succ fuel ih =>
    intro cs s rest hs depth
    unfold pieces at hs
    split at hs
    · cases hs
    · next hp =>
      -- the piece is the closing quote
      cases hs
      exact nestingFrom_piece hp depth
    · next c rest' hp =>
      obtain ⟨⟨s', rest''⟩, hs', hs⟩ := map_eq_ok_iff.1 hs
      cases hs
      exact (nestingFrom_piece hp depth).trans (ih hs' depth)

theorem leads_stringTail : Leads .inString .outside (stringTail purpose) := by
  intro cs s rest hs depth
  obtain ⟨s', hs', -⟩ := map_fst_eq_ok_iff.1 hs
  exact leads_pieces cs.length hs' depth

/-! ### Containers -/

/-- What is read under the limit `n` has a height, no more than the limit, and is read alike under
every limit that allows for its height. -/
def Measured (read : Nat → Reader α) (n : Nat) : Prop :=
  ∀ ⦃cs a rest⦄, read n cs = .ok (a, rest) →
    ∃ height ≤ n, Spans height cs rest ∧ ∀ m, height ≤ m → read m cs = .ok (a, rest)

theorem flat_nextItem {first : Bool} : Flat (nextItem purpose first) := by
  intro cs more rest hmore
  have hblanks := spans_skipSpace cs
  unfold nextItem at hmore
  split at hmore
  · cases hmore
  · next c cs' hcs =>
    rw [hcs] at hblanks
    -- blanks alone stand before the closing bracket and before the first item
    split_ifs at hmore with hclose hfirst hcomma
    · cases hmore
      exact hblanks
    · cases hmore
      exact hblanks
    · -- blanks, a comma and blanks again
      split at hmore
      · cases hmore
      · cases hmore
        refine Spans.after ?_ hblanks
        rw [hcomma]
        exact (spans_skipSpace cs').cons rfl

theorem flat_name {first : Bool} : Flat (name purpose first) := by
  intro cs s rest hs
  unfold name at hs
  split at hs
  · exact spans_quote (leads_stringTail hs)
  · cases hs

theorem flat_nextName {first : Bool} : Flat (nextName purpose first) := by
  intro cs s rest hs
  have hblanks := spans_skipSpace cs
  unfold nextName at hs
  split at hs
  · cases hs
  · next c cs' hcs =>
    rw [hcs] at hblanks
    -- blanks, and a comma if a member came before
    split_ifs at hs with hclose hfirst hcomma
    · cases hs
      exact hblanks
    · obtain ⟨s', hs', -⟩ := map_fst_eq_ok_iff.1 hs
      exact (flat_name hs').after hblanks
    · obtain ⟨s', hs', -⟩ := map_fst_eq_ok_iff.1 hs
      have hname := (flat_name hs').after (spans_skipSpace cs')
      refine Spans.after ?_ hblanks
      rw [hcomma]
      exact hname.cons rfl

theorem flat_colon : Flat colon := by
  intro cs u rest hu
  have hblanks := spans_skipSpace cs
  unfold colon at hu
  split at hu
  · cases hu
  · next c cs' hcs =>
    rw [hcs] at hblanks
    split_ifs at hu with hc
    cases hu
    refine Spans.after ?_ hblanks
    rw [hc]
    exact (Spans.refl _).cons rfl

/-- The items of an array are as high as the highest of them. -/
theorem measured_itemsFrom {item : Nat → Reader α} (hadvances : ∀ n, Advances (item n)) {n : Nat}
    (hitem : Measured item n) {first : Bool} {as : List α}
    (has : itemsFrom purpose (item n) first cs = .ok (as, rest)) :
    ∃ height ≤ n, Spans height cs (']' :: rest) ∧
      ∀ m, height ≤ m → itemsFrom purpose (item m) first cs = .ok (as, rest) := by
  -- by induction on the items that were read, as the loops under other limits read the same ones
  induction as generalizing first cs with
  | nil =>
    -- no item, so no height
    have hclose := itemsFrom_nil_iff.1 has
    refine ⟨0, Nat.zero_le n, ?_, fun m _ => itemsFrom_nil_iff.2 hclose⟩
    rw [← hclose]
    exact spans_skipSpace cs
  | cons a as ih =>
    obtain ⟨cs₁, cs₂, hnext, ha, has⟩ := (itemsFrom_cons_iff (hadvances n)).1 has
    -- the height of the item and that of the items behind it
    obtain ⟨h, hle, hspans, hread⟩ := hitem ha
    obtain ⟨k, hle', hspans', hread'⟩ := ih has
    -- a limit that allows for the higher of both allows for each
    refine ⟨max h k, Nat.max_le.2 ⟨hle, hle'⟩, (hspans.trans hspans').after (flat_nextItem hnext),
      fun m hm => ?_⟩
    obtain ⟨hm, hm'⟩ := Nat.max_le.1 hm
    exact (itemsFrom_cons_iff (hadvances m)).2 ⟨_, _, hnext, hread m hm, hread' m hm'⟩

/-- The members of an object are as high as the highest of them, read from any place and behind
any others. -/
theorem measured_readsMembers {value : Nat → Reader Value} {n : Nat} (hvalue : Measured value n)
    {first : Bool} {before after : List (String × Value)}
    (hms : ReadsMembers purpose (memberValue (value n)) first before cs after rest) :
    ∃ height ≤ n, Spans height cs rest ∧ ∀ m, height ≤ m →
      ReadsMembers purpose (memberValue (value m)) first before cs after rest := by
  -- the same for members, with a name and a colon before each value
  induction hms with
  | done hname => exact ⟨0, Nat.zero_le n, flat_nextName hname, fun m _ => .done hname⟩
  | more hname hmember _ ih =>
    obtain ⟨v, cs₃, hcolon, hv, rfl⟩ := memberValue_eq_ok hmember
    obtain ⟨h, hle, hspans, hread⟩ := hvalue hv
    obtain ⟨k, hle', hspans', hread'⟩ := ih
    have hbefore := (flat_colon hcolon).after (flat_nextName hname)
    refine ⟨max h k, Nat.max_le.2 ⟨hle, hle'⟩, (hspans.trans hspans').after hbefore,
      fun m hm => ?_⟩
    obtain ⟨hm, hm'⟩ := Nat.max_le.1 hm
    exact .more hname (memberValue_of_eq_ok hcolon (hread m hm)) (hread' m hm')

theorem measured_objectTail {value : Nat → Reader Value} (hadvances : ∀ n, Advances (value n))
    {n : Nat} (hvalue : Measured value n) {ms : Members}
    (hms : objectTail purpose (value n) cs = .ok (ms, rest)) :
    ∃ height ≤ n, Spans height cs ('\x7d' :: rest) ∧
      ∀ m, height ≤ m → objectTail purpose (value m) cs = .ok (ms, rest) := by
  unfold objectTail at hms ⊢
  obtain ⟨⟨written, left⟩, hwritten, hms⟩ := bind_eq_ok_iff.1 hms
  -- the loop over members needs a bound, which the text has
  have hlonger (m : Nat) := noLonger_memberValue (hadvances m)
  have hwritten := readsMembers_of_membersUpTo hwritten
  obtain ⟨-, left', rfl⟩ := hwritten.closed (hlonger n)
  cases hms
  obtain ⟨h, hle, hspans, hread⟩ := measured_readsMembers hvalue hwritten
  exact ⟨h, hle, hspans, fun m hm =>
    bind_eq_ok_iff.2 ⟨_, (members_eq_ok_iff (hlonger m)).2 (hread m hm), rfl⟩⟩

/-! ### Values -/

theorem measured_rule {n : Nat} (hnested : ∀ k, n = k + 1 → Measured (value purpose) k) {v : Value}
    (hv : Rule purpose (nestedValue purpose n) cs v rest) :
    ∃ height ≤ n, Spans height cs rest ∧
      ∀ m, height ≤ m → Rule purpose (nestedValue purpose m) cs v rest := by
  -- only a container has a height
  cases hv with
  | null => exact ⟨0, Nat.zero_le n, spans_append rfl rest, fun _ _ => .null⟩
  | boolTrue => exact ⟨0, Nat.zero_le n, spans_append rfl rest, fun _ _ => .boolTrue⟩
  | boolFalse => exact ⟨0, Nat.zero_le n, spans_append rfl rest, fun _ _ => .boolFalse⟩
  | number hc hn => exact ⟨0, Nat.zero_le n, flat_number hn, fun _ _ => .number hc hn⟩
  | string hs =>
    exact ⟨0, Nat.zero_le n, spans_quote (leads_stringTail hs), fun _ _ => .string hs⟩
  | array hn hvs =>
    -- a bracket is read only where the limit has room for it, so neither limit is zero
    obtain _ | k := n
    · cases hn
    cases hn
    obtain ⟨h, hle, hspans, hread⟩ := measured_itemsFrom advances_value (hnested k rfl) hvs
    refine ⟨h + 1, Nat.succ_le_succ hle, hspans.container (.inl ⟨rfl, rfl⟩), fun m hm => ?_⟩
    obtain _ | m := m
    · cases hm
    exact .array rfl (hread m (Nat.le_of_succ_le_succ hm))
  | object hn hms =>
    obtain _ | k := n
    · cases hn
    cases hn
    obtain ⟨h, hle, hspans, hread⟩ := measured_objectTail advances_value (hnested k rfl) hms
    refine ⟨h + 1, Nat.succ_le_succ hle, hspans.container (.inr ⟨rfl, rfl⟩), fun m hm => ?_⟩
    -- a limit that allows for the height is not zero
    obtain _ | m := m
    · cases hm
    exact .object rfl (hread m (Nat.le_of_succ_le_succ hm))

theorem measured_of_nested {n : Nat} (hnested : ∀ k, n = k + 1 → Measured (value purpose) k) :
    Measured (value purpose) n := by
  intro cs v rest hv
  obtain ⟨h, hle, hspans, hrule⟩ := measured_rule hnested (value_iff.1 hv)
  exact ⟨h, hle, hspans.after (spans_skipSpace cs), fun m hm => value_iff.2 (hrule m hm)⟩

/-- **What is read under a limit has a height**, which alone decides under which other limits it is
read. -/
theorem measured_value (n : Nat) : Measured (value purpose) n := by
  -- by induction on the limit, as what is nested has one less
  induction n with
  | zero =>
    exact measured_of_nested fun k hk => absurd hk.symm (Nat.succ_ne_zero k)
  | succ n ih =>
    refine measured_of_nested fun k hk => ?_
    obtain rfl := Nat.succ.inj hk
    exact ih

/-- **The texts that are read under a limit** are those that stand for a value under the greatest
limit and whose brackets nest no deeper. -/
theorem run_value_iff {n : Nat} (hn : n ≤ nestingLimit) {text : String} {v : Value} :
    run (value .content n) text = .ok v ↔ Value.parse text = .ok v ∧ nesting text.toList ≤ n := by
  -- after the value there are only blanks, so its height is that of the text
  have hheight {h : Nat} {rest : List Char} (hspans : Spans h text.toList rest)
      (hrest : skipSpace rest = []) : nesting text.toList = h := by
    have hblanks := spans_skipSpace rest
    rw [hrest] at hblanks
    have hall := (hspans.trans hblanks) 0
    rwa [nestingFrom, Nat.max_zero, Nat.max_zero, Nat.zero_add] at hall
  rw [Value.parse, run_eq_ok_iff, run_eq_ok_iff]
  constructor
  · rintro ⟨rest, hv, hrest⟩
    -- what is read under the limit is read under the greatest one, and its height is within the
    -- limit
    obtain ⟨h, hle, hspans, hread⟩ := measured_value n hv
    rw [hheight hspans hrest]
    exact ⟨⟨rest, hread nestingLimit (Nat.le_trans hle hn), hrest⟩, hle⟩
  · rintro ⟨⟨rest, hv, hrest⟩, hle⟩
    -- the other way round the height decides
    obtain ⟨h, -, hspans, hread⟩ := measured_value nestingLimit hv
    rw [hheight hspans hrest] at hle
    exact ⟨rest, hread n hle, hrest⟩

/-- Brackets in strings do not count, also not behind a quote that is escaped. -/
example : nesting "[\"[\\\"[\"]".toList = 1 := by decide

end Reader

end RevisionRouting.Json
