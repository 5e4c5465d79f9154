import Mathlib.Data.List.DropRight
import Mathlib.Tactic.SplitIfs
import RevisionRouting.Json.Reader.Value

/-!
# Readers go forward

A reader that succeeds has taken at least one character (`Advances`), or has at
least put none back (`NoLonger`). The first holds of every reader of numbers, texts
and values. So the length of a text bounds the passes of every loop over it, and
the bounds that `items`, `members` and `stringTail` give their loops are never
reached.
-/

namespace RevisionRouting.Json

/-! ### Outcomes -/

variable {ε ε' α β γ σ : Type}

theorem bind_eq_ok_iff {x : Except ε α} {f : α → Except ε β} {b : β} :
    (x >>= f) = .ok b ↔ ∃ a, x = .ok a ∧ f a = .ok b := by
  cases x with
  | error e => simp [bind, Except.bind]
  | ok a => simp [bind, Except.bind]

theorem map_eq_ok_iff {x : Except ε α} {f : α → β} {b : β} :
    x.map f = .ok b ↔ ∃ a, x = .ok a ∧ f a = b := by
  cases x with
  | error e => simp [Except.map]
  | ok a => simp [Except.map]

theorem mapError_eq_ok_iff {x : Except ε α} {f : ε → ε'} {a : α} :
    x.mapError f = .ok a ↔ x = .ok a := by
  cases x with
  | error e => simp [Except.mapError]
  | ok a => simp [Except.mapError]

/-- A result that is taken with its rest to another result with the same rest. -/
theorem map_fst_eq_ok_iff {x : Except ε (α × γ)} {f : α → β} {b : β} {rest : γ} :
    (x.map fun r => (f r.1, r.2)) = .ok (b, rest) ↔ ∃ a, x = .ok (a, rest) ∧ f a = b := by
  rw [map_eq_ok_iff]
  constructor
  · -- the rest is passed on, so both sides have the same one
    rintro ⟨⟨a, rest'⟩, hx, h⟩
    cases h
    exact ⟨a, hx, rfl⟩
  · rintro ⟨a, hx, rfl⟩
    exact ⟨(a, rest), hx, rfl⟩

/-- A reader that takes at least one character whenever it succeeds. -/
def Advances (read : Reader α) : Prop :=
  ∀ ⦃cs a rest⦄, read cs = .ok (a, rest) → rest.length < cs.length

/-- A reader that puts no character back. -/
def NoLonger (read : Reader α) : Prop :=
  ∀ ⦃cs a rest⦄, read cs = .ok (a, rest) → rest.length ≤ cs.length

theorem Advances.noLonger {read : Reader α} (h : Advances read) : NoLonger read :=
  fun _ _ _ hread => Nat.le_of_lt (h hread)

/-- A reader that takes a character finds nothing at the end of a text. -/
theorem Advances.ne_nil {read : Reader α} (h : Advances read) {cs : List Char}
    {x : α × List Char} (hread : read cs = .ok x) : cs ≠ [] := by
  rintro rfl
  exact absurd (h hread) (Nat.not_lt_zero _)

namespace Reader

theorem length_skipSpace_le (cs : List Char) : (skipSpace cs).length ≤ cs.length :=
  (List.dropWhile_suffix _).length_le

theorem skipSpace_idem (cs : List Char) : skipSpace (skipSpace cs) = skipSpace cs :=
  List.dropWhile_idempotent isSpace cs

/-! ### Words and numbers -/

theorem word_eq_ok {a b : α} {letters cs rest : List Char} (h : word a letters cs = .ok (b, rest)) :
    b = a ∧ cs = letters ++ rest := by
  -- letter by letter, the text shrinking with the letters left to read
  induction letters generalizing cs with
  | nil =>
    cases h
    exact ⟨rfl, rfl⟩
  | cons w ws ih =>
    cases cs with
    | nil => simp [word] at h
    | cons c cs =>
      rw [word] at h
      -- a letter that fits is dropped on both sides
      split_ifs at h with hc
      · obtain ⟨hb, hcs⟩ := ih h
        exact ⟨hb, by rw [hc, hcs, List.cons_append]⟩

theorem word_append (a : α) (letters rest : List Char) :
    word a letters (letters ++ rest) = .ok (a, rest) := by
  induction letters with
  | nil => rfl
  | cons w ws ih =>
    rw [List.cons_append, word, if_pos rfl]
    exact ih

theorem advances_word (a : α) (w : Char) (ws : List Char) : Advances (word a (w :: ws)) := by
  intro cs b rest h
  obtain ⟨-, rfl⟩ := word_eq_ok h
  rw [List.length_append, List.length_cons]
  omega

end Reader

namespace Literal

variable {purpose : Purpose}

theorem digits_eq_ok {cs ds rest : List Char} (h : digits purpose cs = .ok (ds, rest)) :
    ds ≠ [] ∧ ds = cs.takeWhile Char.isDigit ∧ rest = cs.dropWhile Char.isDigit := by
  unfold digits at h
  -- what is taken are the digits at the head, of which there must be one
  cases ht : cs.takeWhile Char.isDigit with
  | nil => simp [ht] at h
  | cons d ds' =>
    simp only [ht] at h
    cases h
    exact ⟨List.cons_ne_nil _ _, rfl, rfl⟩

theorem advances_digits : Advances (digits purpose) := by
  intro cs ds rest h
  obtain ⟨hne, hds, hrest⟩ := digits_eq_ok h
  -- the digits and the rest make up the text, and the digits are not empty
  have hsum : ds.length + rest.length = cs.length := by
    rw [hds, hrest, ← List.length_append, List.takeWhile_append_dropWhile]
  have hpos := List.length_pos_iff.2 hne
  omega

theorem advances_wholePart : Advances (wholePart purpose) := by
  intro cs ds rest h
  unfold wholePart at h
  -- a zero stands alone, and any other digit begins a run
  split at h
  · split at h
    · split_ifs at h
      cases h
      exact Nat.lt_succ_self _
    · cases h
      exact Nat.lt_succ_self _
  · exact advances_digits h

theorem noLonger_fractionPart : NoLonger (fractionPart purpose) := by
  intro cs ds rest h
  unfold fractionPart at h
  -- a part that is there begins with a point, which is taken too
  split at h
  · exact Nat.le_succ_of_le (advances_digits.noLonger h)
  · cases h
    exact Nat.le_refl _

theorem advances_signedDigits : Advances (signedDigits purpose) := by
  intro cs ds rest h
  unfold signedDigits at h
  -- a sign is one character more
  split at h
  · obtain ⟨_, hds, -⟩ := map_fst_eq_ok_iff.1 h
    exact Nat.lt_succ_of_lt (advances_digits hds)
  · obtain ⟨_, hds, -⟩ := map_fst_eq_ok_iff.1 h
    exact Nat.lt_succ_of_lt (advances_digits hds)
  · obtain ⟨_, hds, -⟩ := map_fst_eq_ok_iff.1 h
    exact advances_digits hds

theorem noLonger_exponentPart : NoLonger (exponentPart purpose) := by
  intro cs e rest h
  unfold exponentPart at h
  -- an exponent that is there begins with its letter, which is taken too
  split at h
  · split_ifs at h
    · obtain ⟨e', he, -⟩ := map_fst_eq_ok_iff.1 h
      exact Nat.le_succ_of_le (advances_signedDigits.noLonger he)
    · cases h
      exact Nat.le_refl _
  · cases h
    exact Nat.le_refl _

theorem readUnsigned_eq_ok {negative : Bool} {cs rest : List Char} {l : Literal}
    (h : readUnsigned purpose negative cs = .ok (l, rest)) :
    ∃ whole cs₁ fraction cs₂ exponent, wholePart purpose cs = .ok (whole, cs₁) ∧
      fractionPart purpose cs₁ = .ok (fraction, cs₂) ∧
      exponentPart purpose cs₂ = .ok (exponent, rest) ∧
      l = ⟨negative, whole, fraction, exponent⟩ := by
  unfold readUnsigned at h
  obtain ⟨⟨whole, cs₁⟩, hwhole, h⟩ := bind_eq_ok_iff.1 h
  obtain ⟨⟨fraction, cs₂⟩, hfraction, h⟩ := bind_eq_ok_iff.1 h
  obtain ⟨⟨exponent, cs₃⟩, hexponent, h⟩ := bind_eq_ok_iff.1 h
  cases h
  exact ⟨whole, cs₁, fraction, cs₂, exponent, hwhole, hfraction, hexponent, rfl⟩

theorem advances_readUnsigned (negative : Bool) : Advances (readUnsigned purpose negative) := by
  intro cs l rest h
  obtain ⟨whole, cs₁, fraction, cs₂, exponent, h₁, h₂, h₃, -⟩ := readUnsigned_eq_ok h
  -- only the whole part must be there
  have hwhole := advances_wholePart h₁
  have hfraction := noLonger_fractionPart h₂
  have hexponent := noLonger_exponentPart h₃
  omega

theorem advances_read : Advances (read purpose) := by
  intro cs l rest h
  unfold read at h
  split at h
  · exact Nat.lt_succ_of_lt (advances_readUnsigned true h)
  · exact advances_readUnsigned false h

end Literal

namespace Reader

variable {purpose : Purpose}

/-- A number is a literal, with its value where the content is wanted. -/
theorem number_eq_ok {cs rest : List Char} {n : Number} (h : number purpose cs = .ok (n, rest)) :
    ∃ l, Literal.read purpose cs = .ok (l, rest) ∧
      match purpose with
      | .content => l.number rest = .ok n
      | .extent => n = .ofNat 0 := by
  unfold number at h
  -- what is wanted of the literal is asked after it has been read
  obtain ⟨⟨l, cs'⟩, hl, h⟩ := bind_eq_ok_iff.1 h
  cases purpose with
  | content =>
    obtain ⟨n', hn, h⟩ := bind_eq_ok_iff.1 h
    cases h
    exact ⟨l, hl, hn⟩
  | extent =>
    cases h
    exact ⟨l, hl, rfl⟩

theorem advances_number : Advances (number purpose) := by
  intro cs n rest h
  obtain ⟨l, hl, -⟩ := number_eq_ok h
  exact Literal.advances_read hl

/-! ### Texts -/

theorem codeUnit_eq_ok {cs rest : List Char} {n : Nat} (h : codeUnit cs = .ok (n, rest)) :
    ∃ a b c d, cs = a :: b :: c :: d :: rest ∧ hexValue? a b c d = some n := by
  unfold codeUnit at h
  -- four characters are taken, if they are hexadecimal digits
  split at h
  · next a b c d rest' =>
    split at h
    · next n' hn =>
      cases h
      exact ⟨a, b, c, d, rfl, hn⟩
    · cases h
  · cases h

theorem advances_codeUnit : Advances codeUnit := by
  intro cs n rest h
  obtain ⟨a, b, c, d, rfl, -⟩ := codeUnit_eq_ok h
  simp only [List.length_cons]
  omega

theorem advances_secondHalf (n : Nat) : Advances (secondHalf n) := by
  intro cs c rest h
  unfold secondHalf at h
  -- the second half begins with a backslash and a `u`, and has four digits like the first
  split at h
  · split at h
    · obtain ⟨⟨m, rest'⟩, hm, h⟩ := bind_eq_ok_iff.1 h
      have hlt := advances_codeUnit hm
      dsimp only at h
      split_ifs at h
      obtain ⟨-, rfl⟩ := Prod.mk.inj (Except.ok.inj h)
      simp only [List.length_cons]
      omega
    · cases h
  · cases h

theorem advances_unicodeEscape : Advances (unicodeEscape purpose) := by
  intro cs c rest h
  unfold unicodeEscape at h
  obtain ⟨⟨n, rest'⟩, hn, h⟩ := bind_eq_ok_iff.1 h
  have hlt := advances_codeUnit hn
  -- where the content is wanted, a first half asks for a second
  cases purpose with
  | extent =>
    cases h
    exact hlt
  | content =>
    dsimp only at h
    split_ifs at h
    · exact Nat.lt_trans (advances_secondHalf n h) hlt
    · cases h
      exact hlt

theorem advances_escapeTail : Advances (escapeTail purpose) := by
  intro cs c rest h
  unfold escapeTail at h
  -- behind the backslash stands the letter of the escape
  split at h
  · cases h
  · split_ifs at h
    · exact Nat.lt_succ_of_lt (advances_unicodeEscape h)
    · split at h
      · cases h
        exact Nat.lt_succ_self _
      · cases h

theorem advances_piece : Advances (piece purpose) := by
  intro cs c rest h
  unfold piece at h
  -- a quote, an escape or a character that stands for itself
  split at h
  · cases h
  · split_ifs at h
    · cases h
      exact Nat.lt_succ_self _
    · obtain ⟨e, he, -⟩ := map_fst_eq_ok_iff.1 h
      exact Nat.lt_succ_of_lt (advances_escapeTail he)
    · cases h
      exact Nat.lt_succ_self _

theorem advances_pieces (fuel : Nat) : Advances (pieces purpose fuel) := by
  -- on the bound of the loop: every piece takes a character
  induction fuel with
  | zero =>
    intro cs s rest h
    cases h
  | succ fuel ih =>
    intro cs s rest h
    unfold pieces at h
    split at h
    · cases h
    · next hp =>
      -- the closing quote is a piece, too
      cases h
      exact advances_piece hp
    · next c rest' hp =>
      obtain ⟨⟨s', rest''⟩, hs, h⟩ := map_eq_ok_iff.1 h
      cases h
      exact Nat.lt_trans (ih hs) (advances_piece hp)

theorem advances_stringTail : Advances (stringTail purpose) := by
  intro cs s rest h
  obtain ⟨s', hs, -⟩ := map_fst_eq_ok_iff.1 h
  exact advances_pieces cs.length hs

/-! ### Containers -/

/-- An array that goes on has its next item at the head of the rest, and one that ends its closing
bracket. -/
theorem nextItem_eq_ok {first more : Bool} {cs rest : List Char}
    (h : nextItem purpose first cs = .ok (more, rest)) :
    rest.length ≤ cs.length ∧ (more = false → ∃ left, rest = ']' :: left) := by
  have hle := length_skipSpace_le cs
  -- blanks are left out first
  unfold nextItem at h
  split at h
  · cases h
  · next c cs' hcs =>
    rw [hcs] at hle
    -- the closing bracket, the first item, or a comma before another
    split_ifs at h with hc
    · cases h
      exact ⟨hle, fun _ => ⟨cs', by rw [hc]⟩⟩
    · cases h
      exact ⟨hle, fun h => absurd h (by decide)⟩
    · -- after a comma come blanks, and then the item
      have hle' := length_skipSpace_le cs'
      rw [List.length_cons] at hle
      split at h
      · cases h
      · cases h
        exact ⟨by omega, fun h => absurd h (by decide)⟩

theorem advances_name {first : Bool} : Advances (name purpose first) := by
  intro cs s rest h
  unfold name at h
  split at h
  · exact Nat.lt_succ_of_lt (advances_stringTail h)
  · cases h

/-- An object that goes on has its next name before the rest, and one that ends its closing
bracket at the head of the rest. -/
theorem nextName_eq_ok {first : Bool} {cs rest : List Char} {s : Option String}
    (h : nextName purpose first cs = .ok (s, rest)) :
    rest.length ≤ cs.length ∧ (s = none → ∃ left, rest = '\x7d' :: left) ∧
      (s ≠ none → rest.length < cs.length) := by
  have hle := length_skipSpace_le cs
  unfold nextName at h
  split at h
  · cases h
  · next c cs' hcs =>
    rw [hcs] at hle
    rw [List.length_cons] at hle
    -- the closing bracket, the first name, or a comma before another
    split_ifs at h with hc
    · cases h
      exact ⟨hle, fun _ => ⟨cs', by rw [hc]⟩, fun h => absurd rfl h⟩
    · obtain ⟨s', hs, rfl⟩ := map_fst_eq_ok_iff.1 h
      -- blanks and a comma may have come before the name
      have hlt := advances_name hs
      rw [List.length_cons] at hlt
      exact ⟨by omega, fun h => absurd h (Option.some_ne_none s'), fun _ => by omega⟩
    · obtain ⟨s', hs, rfl⟩ := map_fst_eq_ok_iff.1 h
      have hlt := advances_name hs
      have hle' := length_skipSpace_le cs'
      exact ⟨by omega, fun h => absurd h (Option.some_ne_none s'), fun _ => by omega⟩

theorem advances_colon : Advances colon := by
  intro cs u rest h
  have hle := length_skipSpace_le cs
  unfold colon at h
  split at h
  · cases h
  · -- what comes behind blanks must be the colon
    next c cs' hcs =>
    rw [hcs] at hle
    split_ifs at h
    cases h
    exact hle

/-! ### Loops -/

variable {item : Reader α} {member : String → σ → Reader σ}

/-- An array takes its closing bracket at least. -/
theorem advances_itemsUpTo (hitem : Advances item) (fuel : Nat) (first : Bool) :
    Advances (itemsUpTo purpose item fuel first) := by
  -- the bound only limits how often the loop goes round, so any will do
  induction fuel generalizing first with
  | zero =>
    intro cs as rest h
    cases h
  | succ fuel ih =>
    intro cs as rest h
    unfold itemsUpTo at h
    split at h
    · cases h
    · next rest' hnext =>
      -- the closing bracket stands at the head of the rest and is taken
      obtain ⟨hle, hclose⟩ := nextItem_eq_ok hnext
      obtain ⟨left, rfl⟩ := hclose rfl
      cases h
      exact hle
    · next rest' hnext =>
      -- an item is taken behind what leads to it, and the loop goes on
      obtain ⟨hle, -⟩ := nextItem_eq_ok hnext
      split at h
      · cases h
      · next a rest'' ha =>
        obtain ⟨⟨as', rest₃⟩, has, h⟩ := map_eq_ok_iff.1 h
        cases h
        exact Nat.lt_trans (ih false has) (Nat.lt_of_lt_of_le (hitem ha) hle)

theorem advances_items (hitem : Advances item) : Advances (items purpose item) :=
  fun cs _ _ h => advances_itemsUpTo hitem (cs.length + 1) true h

/-- How the members of an object are read from a place where one may begin: none is left before
the closing bracket, or one is read and then those behind it. -/
inductive ReadsMembers (purpose : Purpose) (member : String → σ → Reader σ) :
    Bool → σ → List Char → σ → List Char → Prop
  | done {first : Bool} {s : σ} {cs rest : List Char}
      (h : nextName purpose first cs = .ok (none, rest)) :
      ReadsMembers purpose member first s cs s rest
  | more {first : Bool} {s s₁ s' : σ} {cs cs₁ cs₂ rest : List Char} {name : String}
      (hname : nextName purpose first cs = .ok (some name, cs₁))
      (hmember : member name s cs₁ = .ok (s₁, cs₂))
      (h : ReadsMembers purpose member false s₁ cs₂ s' rest) :
      ReadsMembers purpose member first s cs s' rest

/-- Whatever bound the loop is given, what it reads is read so. -/
theorem readsMembers_of_membersUpTo {fuel : Nat} {first : Bool} {s s' : σ} {cs rest : List Char}
    (h : membersUpTo purpose member fuel first s cs = .ok (s', rest)) :
    ReadsMembers purpose member first s cs s' rest := by
  -- the bound goes down by one a member
  induction fuel generalizing first s cs with
  | zero => cases h
  | succ fuel ih =>
    unfold membersUpTo at h
    split at h
    · cases h
    · next hname =>
      cases h
      exact .done hname
    · next hname =>
      split at h
      · cases h
      · next hmember => exact .more hname hmember (ih h)

/-- The members of an object end before its closing bracket. -/
theorem ReadsMembers.closed (hmember : ∀ name s, NoLonger (member name s)) {first : Bool}
    {s s' : σ} {cs rest : List Char} (h : ReadsMembers purpose member first s cs s' rest) :
    rest.length ≤ cs.length ∧ ∃ left, rest = '\x7d' :: left := by
  induction h with
  | done hname =>
    obtain ⟨hle, hclose, -⟩ := nextName_eq_ok hname
    exact ⟨hle, hclose rfl⟩
  | @more _ s₁ _ _ _ _ _ _ name hname hread _ ih =>
    -- name, member and what follows each leave no more than they found
    obtain ⟨hle, -, -⟩ := nextName_eq_ok hname
    obtain ⟨hle', hclose⟩ := ih
    exact ⟨Nat.le_trans hle' (Nat.le_trans (hmember name _ hread) hle), hclose⟩

/-! ### Values -/

theorem memberValue_eq_ok {value : Reader α} {name : String}
    {ms ms' : List (String × α)} {cs rest : List Char}
    (h : memberValue value name ms cs = .ok (ms', rest)) :
    ∃ v cs', colon cs = .ok ((), cs') ∧ value cs' = .ok (v, rest) ∧ ms' = ms ++ [(name, v)] := by
  unfold memberValue at h
  obtain ⟨⟨u, cs'⟩, hcolon, h⟩ := bind_eq_ok_iff.1 h
  obtain ⟨⟨v, rest'⟩, hvalue, h⟩ := bind_eq_ok_iff.1 h
  cases h
  exact ⟨v, cs', hcolon, hvalue, rfl⟩

theorem memberValue_of_eq_ok {value : Reader α} {name : String} {ms : List (String × α)}
    {cs cs' rest : List Char} {v : α} (hcolon : colon cs = .ok ((), cs'))
    (hvalue : value cs' = .ok (v, rest)) :
    memberValue value name ms cs = .ok (ms ++ [(name, v)], rest) := by
  rw [memberValue, hcolon]
  change (value cs' >>= _) = _
  rw [hvalue]
  rfl

theorem noLonger_memberValue {value : Reader α} (hvalue : Advances value) (name : String)
    (ms : List (String × α)) : NoLonger (memberValue value name ms) := by
  intro cs ms' rest h
  obtain ⟨v, cs', hcolon, hv, -⟩ := memberValue_eq_ok h
  exact Nat.le_of_lt (Nat.lt_trans (hvalue hv) (advances_colon hcolon))

theorem advances_objectTail {value : Reader Value} (hvalue : Advances value) :
    Advances (objectTail purpose value) := by
  intro cs ms rest h
  unfold objectTail at h
  obtain ⟨⟨ms', rest'⟩, hms, h⟩ := bind_eq_ok_iff.1 h
  -- the members leave the closing bracket, which is taken after them
  obtain ⟨hle, left, rfl⟩ :=
    (readsMembers_of_membersUpTo hms).closed (noLonger_memberValue hvalue)
  cases h
  exact hle

theorem advances_valueWith {nested : Option (Reader Value)} (hnested : ∀ f ∈ nested, Advances f) :
    Advances (valueWith purpose nested) := by
  intro cs v rest h
  have hle := length_skipSpace_le cs
  unfold valueWith at h
  split at h
  · cases h
  · -- blanks are left out, and the first character that is none decides
    next c cs' hcs =>
    rw [hcs] at hle
    refine Nat.lt_of_lt_of_le ?_ hle
    -- one case for each kind of value, told apart by its first character
    split_ifs at h
    · exact advances_word _ _ _ h
    · exact advances_word _ _ _ h
    · exact advances_word _ _ _ h
    · obtain ⟨n, hn, -⟩ := map_fst_eq_ok_iff.1 h
      exact advances_number hn
    · obtain ⟨s, hs, -⟩ := map_fst_eq_ok_iff.1 h
      exact Nat.lt_succ_of_lt (advances_stringTail hs)
    · -- a container has to be allowed, and its elements advance
      cases nested with
      | none => cases h
      | some f =>
        obtain ⟨vs, hvs, -⟩ := map_fst_eq_ok_iff.1 h
        exact Nat.lt_succ_of_lt (advances_items (hnested f rfl) hvs)
    · cases nested with
      | none => cases h
      | some f =>
        obtain ⟨ms, hms, -⟩ := map_fst_eq_ok_iff.1 h
        exact Nat.lt_succ_of_lt (advances_objectTail (hnested f rfl) hms)

/-- **A value takes at least one character**, at every depth. -/
theorem advances_value (depth : Nat) : Advances (value purpose depth) := by
  -- by induction on the depth, as what is nested is read one container deeper
  induction depth with
  | zero => exact advances_valueWith fun f hf => absurd hf (Option.not_mem_none f)
  | succ depth ih =>
    refine advances_valueWith fun f hf => ?_
    cases hf
    exact ih

end Reader

end RevisionRouting.Json
