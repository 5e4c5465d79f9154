import RevisionRouting.Proofs.Json.Escapes
import RevisionRouting.Proofs.Json.Nesting
import RevisionRouting.Proofs.Json.Records
import RevisionRouting.Proofs.Json.WellFormed

/-!
# The text of a value is read back

A value without floats that is well formed is read back from its compact text
(`Value.parse_text`).

Inside a container a value is followed by a comma or a bracket, and what is read
ends there. Texts and containers end by their own last character. A number does not,
so all is stated for a rest that does not go on with a number (`EndsNumber`). An integer
is read back since its digits fit the significand (`absorb_decimal`), a text since
every escape stands for one character (`piece_escape`).
-/

namespace RevisionRouting.Json

/-! ### Integers -/

/-- The text after a number does not begin with what would belong to it. -/
def EndsNumber (rest : List Char) : Prop :=
  ∀ c ∈ rest.head?, ¬ (c.isDigit ∨ c = '.' ∨ c = 'e' ∨ c = 'E')

theorem endsNumber_cons {c : Char} (h : ¬ (c.isDigit ∨ c = '.' ∨ c = 'e' ∨ c = 'E'))
    (rest : List Char) : EndsNumber (c :: rest) := by
  intro d hd
  cases hd
  exact h

theorem isDigit_of_mem_decimal {n : Nat} {c : Char} (h : c ∈ Text.decimal n) : c.isDigit :=
  Nat.isDigit_of_mem_toDigits (by decide) (by decide) h

/-- Only zero is written with a zero first. -/
theorem head?_decimal_ne {n : Nat} (h : 0 < n) : (Text.decimal n).head? ≠ some '0' := by
  unfold Text.decimal
  -- by recursion on the tenth part, as the digits are written
  induction n using Nat.strongRecOn with
  | ind n ih =>
    rw [Nat.toDigits_eq_if (by decide)]
    split_ifs with hlt
    · -- a single digit
      intro hzero
      have hn := Nat.digitChar_eq_zero.1 (Option.some.inj hzero)
      omega
    · -- the digits of the tenth part come first
      rw [List.head?_append_of_ne_nil _ Nat.toDigits_ne_nil]
      exact ih (n / 10) (by omega) (by omega)

namespace Literal

variable {purpose : Purpose} {rest : List Char}

theorem digits_append {ds : List Char} (hds : ∀ c ∈ ds, c.isDigit) (hne : ds ≠ [])
    (hrest : EndsNumber rest) : digits purpose (ds ++ rest) = .ok (ds, rest) := by
  -- the digits end where the number does
  have hstop : rest.takeWhile Char.isDigit = [] ∧ rest.dropWhile Char.isDigit = rest := by
    cases rest with
    | nil => exact ⟨rfl, rfl⟩
    | cons c rest =>
      have hc : ¬ c.isDigit = true := fun hc => hrest c rfl (.inl hc)
      exact ⟨List.takeWhile_cons_of_neg hc, List.dropWhile_cons_of_neg hc⟩
  obtain ⟨d, ds, rfl⟩ := List.exists_cons_of_ne_nil hne
  rw [digits, List.takeWhile_append_of_pos hds, List.dropWhile_append_of_pos hds, hstop.1, hstop.2,
    List.append_nil]

theorem wholePart_decimal (n : Nat) (hrest : EndsNumber rest) :
    wholePart purpose (Text.decimal n ++ rest) = .ok (Text.decimal n, rest) := by
  -- a zero is written with a zero, and nothing else is
  rcases Nat.eq_zero_or_pos n with rfl | hn
  · -- a zero stands alone
    rw [Text.decimal, Nat.toDigits_zero, List.singleton_append, wholePart_cons, if_pos rfl]
    cases rest with
    | nil => rfl
    | cons c rest => exact if_neg fun hc => hrest c rfl (.inl hc)
  · -- the digits of any other number are taken by `digits`
    have hne : Text.decimal n ≠ [] := Nat.toDigits_ne_nil
    have hhead := head?_decimal_ne hn
    have hdigits : digits purpose (Text.decimal n ++ rest) = .ok (Text.decimal n, rest) :=
      digits_append (fun c => isDigit_of_mem_decimal) hne hrest
    obtain ⟨d, ds, hds⟩ := List.exists_cons_of_ne_nil hne
    rw [hds] at hhead hdigits ⊢
    rw [List.cons_append, wholePart_cons, if_neg fun hd => hhead (by rw [hd]; rfl)]
    exact hdigits

theorem fractionPart_of_endsNumber (hrest : EndsNumber rest) :
    fractionPart purpose rest = .ok ([], rest) := by
  cases rest with
  | nil => rfl
  | cons c rest =>
    rw [fractionPart_cons, if_neg fun hc => hrest c rfl (.inr (.inl hc))]

theorem exponentPart_of_endsNumber (hrest : EndsNumber rest) :
    exponentPart purpose rest = .ok (none, rest) := by
  cases rest with
  | nil => rfl
  | cons c rest =>
    rw [exponentPart, if_neg fun hc => hrest c rfl (.inr (.inr hc))]

theorem readUnsigned_decimal (negative : Bool) (n : Nat) (hrest : EndsNumber rest) :
    readUnsigned purpose negative (Text.decimal n ++ rest) =
      .ok (⟨negative, Text.decimal n, [], none⟩, rest) := by
  unfold readUnsigned
  refine bind_eq_ok_iff.2 ⟨_, wholePart_decimal n hrest, ?_⟩
  -- what ends a number begins neither a fraction nor an exponent
  refine bind_eq_ok_iff.2 ⟨_, fractionPart_of_endsNumber hrest, ?_⟩
  exact bind_eq_ok_iff.2 ⟨_, exponentPart_of_endsNumber hrest, rfl⟩

theorem le_ofDigitChars (ds : List Char) (significand : Nat) :
    significand ≤ Nat.ofDigitChars 10 ds significand := by
  -- adding digits multiplies by ten and adds, which never makes less
  rw [Nat.ofDigitChars_eq_ofDigitChars_zero]
  have hpos : 0 < 10 ^ ds.length := Nat.pow_pos (by decide)
  exact Nat.le_add_right_of_le (Nat.le_mul_of_pos_left significand hpos)

/-- Digits whose value fits are all taken into the significand. -/
theorem absorb_of_lt {ds : List Char} {significand : Nat}
    (h : Nat.ofDigitChars 10 ds significand < wordBound) :
    absorb significand ds = (Nat.ofDigitChars 10 ds significand, []) := by
  -- the significand read so far is generalized
  induction ds generalizing significand with
  | nil => rfl
  | cons d ds ih =>
    have hstep : significand * 10 + Text.digitValue d =
        10 * significand + (d.toNat - '0'.toNat) := by
      rw [Text.digitValue, Nat.mul_comm]
    rw [Nat.ofDigitChars_cons] at h ⊢
    -- the digits after this one only make the value greater, so it fits up to here, too
    rw [absorb, hstep, if_pos (Nat.lt_of_le_of_lt (le_ofDigitChars ds _) h)]
    exact ih h

theorem absorb_decimal {n : Nat} (h : n < wordBound) : absorb 0 (Text.decimal n) = (n, []) := by
  have hvalue : Nat.ofDigitChars 10 (Text.decimal n) 0 = n := Nat.ofDigitChars_ten_toDigits
  rw [absorb_of_lt (by rwa [hvalue]), hvalue]

theorem number_decimal (negative : Bool) {n : Nat} (h : n < wordBound) (rest : List Char) :
    (⟨negative, Text.decimal n, [], none⟩ : Literal).number rest = .ok (integer negative n h) := by
  simp only [number, absorb_decimal h, true_and, h, dite_true]

end Literal

theorem exists_decimal (n : Nat) : ∃ d ds, Text.decimal n = d :: ds ∧ d.isDigit := by
  have hne : Text.decimal n ≠ [] := Nat.toDigits_ne_nil
  obtain ⟨d, ds, hds⟩ := List.exists_cons_of_ne_nil hne
  have hmem : d ∈ Text.decimal n := by
    rw [hds]
    exact List.mem_cons_self
  exact ⟨d, ds, hds, isDigit_of_mem_decimal hmem⟩

/-- An integer begins with a minus sign or with a digit. -/
theorem exists_intChars (n : Int) : ∃ c cs, intChars n = c :: cs ∧ (c = '-' ∨ c.isDigit) := by
  -- a natural number begins with its first digit, any other integer with the sign
  cases n with
  | ofNat n =>
    obtain ⟨d, ds, hds, hd⟩ := exists_decimal n
    exact ⟨d, ds, hds, .inr hd⟩
  | negSucc n => exact ⟨'-', Text.decimal (n + 1), rfl, .inl rfl⟩

namespace Reader

variable {purpose : Purpose} {rest : List Char}

/-- **An integer is read back**, up to the limits of 64 bits. -/
theorem number_intChars {n : Int} (fits : -0x8000000000000000 ≤ n ∧ n < 0x10000000000000000)
    (hrest : EndsNumber rest) :
    number .content (intChars n ++ rest) = .ok (.integer n fits, rest) := by
  unfold number
  -- two readings, without a sign and with one
  cases n with
  | ofNat n =>
    have hn : n < Literal.wordBound := Int.ofNat_lt.1 fits.2
    have hread : Literal.read .content (Text.decimal n ++ rest) =
        .ok (⟨false, Text.decimal n, [], none⟩, rest) := by
      have hunsigned : Literal.readUnsigned .content false (Text.decimal n ++ rest) =
          .ok (⟨false, Text.decimal n, [], none⟩, rest) :=
        Literal.readUnsigned_decimal false n hrest
      obtain ⟨d, ds, hds, hd⟩ := exists_decimal n
      -- the first digit is no sign, so there is none
      have hsign : d ≠ '-' := by
        rintro rfl
        exact absurd hd (by decide)
      rw [hds, List.cons_append] at hunsigned ⊢
      rw [Literal.read_cons, if_neg hsign]
      exact hunsigned
    refine bind_eq_ok_iff.2 ⟨_, hread, bind_eq_ok_iff.2
      ⟨_, Literal.number_decimal false hn rest, ?_⟩⟩
    rfl
  | negSucc n =>
    -- below zero the number is written with one more than its constructor holds
    have hn : n + 1 < Literal.wordBound := by
      simp only [Literal.wordBound]
      omega
    have hread : Literal.read .content (intChars (.negSucc n) ++ rest) =
        .ok (⟨true, Text.decimal (n + 1), [], none⟩, rest) :=
      Literal.readUnsigned_decimal true (n + 1) hrest
    refine bind_eq_ok_iff.2 ⟨_, hread, bind_eq_ok_iff.2
      ⟨_, Literal.number_decimal true hn rest, ?_⟩⟩
    -- the number is not zero and does not pass the lower limit, so it is no float
    have hsigned : 0 < n + 1 ∧ n + 1 ≤ 0x8000000000000000 := by omega
    simp only [Literal.integer, hsigned, if_true]
    rfl

end Reader

/-! ### Containers -/

/-- There is no float in a value. The text of a float is that of a decimal close to it, which need
not be read back as the same float. -/
inductive Value.FloatFree : Value → Prop
  | null : FloatFree .null
  | bool {b : Bool} : FloatFree (.bool b)
  | integer {n : Int} {fits : -0x8000000000000000 ≤ n ∧ n < 0x10000000000000000} :
      FloatFree (.number (.integer n fits))
  | string {s : String} : FloatFree (.string s)
  | array {vs : List Value} (items : ∀ v ∈ vs, FloatFree v) : FloatFree (.array vs)
  | object {ms : Members} (values : ∀ m ∈ ms, FloatFree m.2) : FloatFree (.object ms)

/-- The text of a value is read back, whatever may follow it. -/
def Value.ReadsBack (depth : Nat) (v : Value) : Prop :=
  ∀ ⦃rest⦄, EndsNumber rest → Reader.value .content depth (v.chars ++ rest) = .ok (v, rest)

/-- What stands after the first of some texts with commas between them. -/
def moreTexts (texts : List (List Char)) : List Char := texts.flatMap fun text => ',' :: text

theorem moreTexts_cons (text : List Char) (texts : List (List Char)) (rest : List Char) :
    moreTexts (text :: texts) ++ rest = ',' :: (text ++ (moreTexts texts ++ rest)) := by
  rw [moreTexts, List.flatMap_cons, List.append_assoc]
  rfl

theorem intercalate_cons (text : List Char) (texts : List (List Char)) :
    List.intercalate [','] (text :: texts) = text ++ moreTexts texts := by
  induction texts generalizing text with
  | nil => rw [List.intercalate_singleton, moreTexts, List.flatMap_nil, List.append_nil]
  | cons text' texts ih =>
    rw [List.intercalate_cons_cons, ih, List.append_assoc, moreTexts, moreTexts, List.flatMap_cons]
    rfl

/-- Inside a container a value is followed by a comma or by the closing bracket. -/
theorem endsNumber_moreTexts (closing : Char)
    (h : ¬ (closing.isDigit ∨ closing = '.' ∨ closing = 'e' ∨ closing = 'E'))
    (texts : List (List Char)) (rest : List Char) :
    EndsNumber (moreTexts texts ++ closing :: rest) := by
  cases texts with
  | nil => exact endsNumber_cons h rest
  | cons text texts => exact endsNumber_cons (by decide) _

namespace Reader

variable {depth : Nat} {rest : List Char}

/-- No blank begins a number. -/
theorem skipSpace_of_number {c : Char} (hc : c = '-' ∨ c.isDigit) (cs : List Char) :
    skipSpace (c :: cs) = c :: cs := by
  refine List.dropWhile_cons_of_neg fun hspace => ?_
  -- there are four blanks, and neither a sign nor a digit among them
  have hblanks : c = ' ' ∨ c = '\n' ∨ c = '\t' ∨ c = '\r' := by
    simpa [isSpace, or_assoc] using hspace
  obtain rfl | rfl | rfl | rfl := hblanks <;> exact absurd hc (by decide)

theorem Rule.head_ne {nested : Option (Reader Value)} {purpose : Purpose} {c : Char}
    {cs : List Char} {v : Value} (h : Rule purpose nested (c :: cs) v rest) : c ≠ ']' := by
  cases h with
  | number hc h =>
    -- a sign or a digit is no bracket
    rintro rfl
    exact absurd hc (by decide)
  | _ => decide

/-- An item is due where a value can be read, after the bracket and after a comma. -/
theorem nextItem_of_value {cs : List Char} {v : Value}
    (h : value .content depth cs = .ok (v, rest)) :
    nextItem .content true cs = .ok (true, skipSpace cs) ∧
      nextItem .content false (',' :: cs) = .ok (true, skipSpace cs) := by
  have hrule := value_iff.1 h
  -- no value begins with the bracket that would end the array
  have hcomma : skipSpace (',' :: cs) = ',' :: cs := rfl
  rw [nextItem, nextItem, hcomma]
  cases htext : skipSpace cs with
  | nil => exact absurd htext hrule.ne_nil
  | cons c text =>
    have hne : c ≠ ']' := (htext ▸ hrule).head_ne
    dsimp only
    rw [if_neg hne, if_pos rfl, if_neg (by decide), if_neg (by decide), if_pos rfl]
    refine ⟨rfl, ?_⟩
    -- a comma may not stand before the closing bracket, and it does not
    split
    · next hbracket =>
      rw [htext] at hbracket
      exact absurd (List.cons.inj hbracket).1 hne
    · rw [htext]

/-- A value that can be read is the next item, after the bracket and after a comma. -/
theorem itemsFrom_of_value {cs left : List Char} {v : Value} {vs : List Value}
    (hv : value .content depth cs = .ok (v, left))
    (hvs : itemsFrom .content (value .content depth) false left = .ok (vs, rest)) :
    itemsFrom .content (value .content depth) true cs = .ok (v :: vs, rest) ∧
      itemsFrom .content (value .content depth) false (',' :: cs) = .ok (v :: vs, rest) := by
  obtain ⟨hfirst, hnext⟩ := nextItem_of_value hv
  have hitem := (value_skipSpace depth).2 hv
  exact ⟨(itemsFrom_cons_iff (advances_value depth)).2 ⟨_, _, hfirst, hitem, hvs⟩,
    (itemsFrom_cons_iff (advances_value depth)).2 ⟨_, _, hnext, hitem, hvs⟩⟩

theorem itemsFrom_moreTexts {vs : List Value} (hvs : ∀ v ∈ vs, v.ReadsBack depth) :
    itemsFrom .content (value .content depth) false (moreTexts (itemTexts vs) ++ ']' :: rest) =
      .ok (vs, rest) := by
  -- by induction on the items, each of which has a comma before it
  induction vs with
  | nil => exact itemsFrom_nil_iff.2 rfl
  | cons v vs ih =>
    obtain ⟨hv, hvs⟩ := List.forall_mem_cons.1 hvs
    have hread := hv (endsNumber_moreTexts ']' (by decide) (itemTexts vs) rest)
    rw [itemTexts, moreTexts_cons]
    exact (itemsFrom_of_value hread (ih hvs)).2

/-- **An array is read back** if its items are. -/
theorem items_intercalate {vs : List Value} (hvs : ∀ v ∈ vs, v.ReadsBack depth)
    (rest : List Char) :
    items .content (value .content depth)
        (List.intercalate [','] (itemTexts vs) ++ ']' :: rest) = .ok (vs, rest) := by
  cases vs with
  | nil => exact itemsFrom_nil_iff.2 rfl
  | cons v vs =>
    -- the first item follows the bracket, all others a comma
    obtain ⟨hv, hvs⟩ := List.forall_mem_cons.1 hvs
    have hread := hv (endsNumber_moreTexts ']' (by decide) (itemTexts vs) rest)
    rw [itemTexts, intercalate_cons, List.append_assoc]
    exact (itemsFrom_of_value hread (itemsFrom_moreTexts hvs)).1

theorem quotedString_append (s : String) (more : List Char) :
    quotedString s ++ more = '"' :: (s.toList.flatMap escape ++ '"' :: more) := by
  simp [quotedString, quoted]

theorem memberChars_append (name : String) (text more : List Char) :
    memberChars name text ++ more =
      '"' :: (name.toList.flatMap escape ++ '"' :: ':' :: (text ++ more)) := by
  rw [memberChars, List.append_assoc, quotedString_append]
  rfl

theorem nextName_memberChars (name : String) (text more : List Char) :
    nextName .content true (memberChars name text ++ more) =
        .ok (some name, ':' :: (text ++ more)) ∧
      nextName .content false (',' :: (memberChars name text ++ more)) =
        .ok (some name, ':' :: (text ++ more)) := by
  -- the quote follows the bracket or the comma at once
  have hquote (cs : List Char) : nextName .content true ('"' :: cs) =
      (stringTail .content cs).map fun r => (some r.1, r.2) := rfl
  have hcomma (cs : List Char) : nextName .content false (',' :: '"' :: cs) =
      (stringTail .content cs).map fun r => (some r.1, r.2) := rfl
  rw [memberChars_append, hquote, hcomma, stringTail_escape]
  exact ⟨rfl, rfl⟩

/-- A name with a value that can be read is the next member, after the bracket and after a
comma. -/
theorem readsMembers_of_value {text more left : List Char} {v : Value} {before after : Members}
    (name : String) (hv : value .content depth (text ++ more) = .ok (v, left))
    (hrest : ReadsMembers .content (memberValue (value .content depth)) false
      (before ++ [(name, v)]) left after rest) :
    ReadsMembers .content (memberValue (value .content depth)) true before
        (memberChars name text ++ more) after rest ∧
      ReadsMembers .content (memberValue (value .content depth)) false before
        (',' :: (memberChars name text ++ more)) after rest := by
  obtain ⟨hfirst, hnext⟩ := nextName_memberChars name text more
  have hmember : memberValue (value .content depth) name before (':' :: (text ++ more)) =
      .ok (before ++ [(name, v)], left) := memberValue_of_eq_ok rfl hv
  exact ⟨.more hfirst hmember hrest, .more hnext hmember hrest⟩

theorem readsMembers_moreTexts {ms : Members} (hms : ∀ m ∈ ms, m.2.ReadsBack depth)
    (before : Members) :
    ReadsMembers .content (memberValue (value .content depth)) false before
      (moreTexts (memberTexts ms) ++ '\x7d' :: rest) (before ++ ms) ('\x7d' :: rest) := by
  -- what was read before is arbitrary, as it grows with each member
  induction ms generalizing before with
  | nil =>
    rw [List.append_nil]
    exact .done rfl
  | cons m ms ih =>
    obtain ⟨hm, hms⟩ := List.forall_mem_cons.1 hms
    have hread := hm (endsNumber_moreTexts '\x7d' (by decide) (memberTexts ms) rest)
    have hrest := ih hms (before ++ [m])
    rw [List.append_assoc, List.singleton_append] at hrest
    rw [memberTexts, moreTexts_cons]
    exact (readsMembers_of_value m.1 hread hrest).2

/-- **An object is read back** as it is written if the values of its members are. -/
theorem writtenMembers_intercalate {ms : Members} (hms : ∀ m ∈ ms, m.2.ReadsBack depth)
    (rest : List Char) :
    writtenMembers (value .content depth)
        (List.intercalate [','] (memberTexts ms) ++ '\x7d' :: rest) = .ok (ms, rest) := by
  -- the values advance, so the bound of the loop is enough
  have hlonger (name : String) (ms : Members) :
      NoLonger (memberValue (value .content depth) name ms) :=
    noLonger_memberValue (advances_value depth) name ms
  refine writtenMembers_eq_ok_iff.2 ⟨'\x7d' :: rest, (members_eq_ok_iff hlonger).2 ?_, rfl⟩
  -- no member, or one without a comma and others with one
  cases ms with
  | nil => exact .done rfl
  | cons m ms =>
    obtain ⟨hm, hms⟩ := List.forall_mem_cons.1 hms
    have hread := hm (endsNumber_moreTexts '\x7d' (by decide) (memberTexts ms) rest)
    rw [memberTexts, intercalate_cons, List.append_assoc]
    exact (readsMembers_of_value m.1 hread (readsMembers_moreTexts hms [m])).1

theorem bracketed_append (opening closing : Char) (texts : List (List Char)) :
    bracketed opening closing texts ++ rest =
      opening :: (List.intercalate [','] texts ++ closing :: rest) := by
  simp [bracketed]

end Reader

theorem Members.toList_text (ms : Members) :
    ms.text.toList = '\x7b' :: (List.intercalate [','] (memberTexts ms) ++ ['\x7d']) := by
  rw [Members.text, Value.text, String.toList_ofList, Value.chars, bracketed]

/-! ### Values -/

/-- **A value without floats is read back**, at every depth at which it can have been read. -/
theorem Value.WellFormed.readsBack {depth : Nat} {v : Value} (h : v.WellFormed depth)
    (hfloat : v.FloatFree) : v.ReadsBack depth := by
  -- by induction on why the value is well formed, each case with the reading of its kind
  induction h with
  | null => exact fun rest _ => Reader.value_iff.2 .null
  | @bool _ b =>
    intro rest _
    cases b with
    | false => exact Reader.value_iff.2 .boolFalse
    | true => exact Reader.value_iff.2 .boolTrue
  | number =>
    intro rest hrest
    -- the number is an integer, as there is no float
    cases hfloat with
    | @integer n fits =>
      have hnumber := Reader.number_intChars fits hrest
      obtain ⟨c, cs, hcs, hc⟩ := exists_intChars n
      refine Reader.value_iff.2 ?_
      rw [Value.chars, Number.chars]
      rw [hcs] at hnumber ⊢
      rw [List.cons_append, Reader.skipSpace_of_number hc]
      exact .number hc hnumber
  | string =>
    intro rest _
    rw [Value.chars, Reader.quotedString_append]
    exact Reader.value_iff.2 (.string (Reader.stringTail_escape _ rest))
  | array items ih =>
    intro rest _
    -- the items have no floats, and read back by induction
    cases hfloat with
    | array hitems =>
      have hread := Reader.items_intercalate (fun v hv => ih v hv (hitems v hv)) rest
      rw [Value.chars, Reader.bracketed_append]
      exact Reader.value_array_iff.2 ⟨_, rfl, hread⟩
  | object increasing values ih =>
    intro rest _
    -- the members have no floats, and read back by induction
    cases hfloat with
    | object hvalues =>
      have hread := Reader.writtenMembers_intercalate (fun m hm => ih m hm (hvalues m hm)) rest
      rw [Value.chars, Reader.bracketed_append]
      -- the names increase, so the object made of its members is the object itself
      exact Reader.value_object_iff.2
        ⟨_, rfl, Reader.objectTail_eq_ok_iff.2 ⟨_, hread, increasing.ofList_eq.symm⟩⟩

/-- **A value is that of its text** with any blanks behind it, unless there is a float in it. -/
theorem Value.parse_text_append {v : Value} (h : v.WellFormed nestingLimit) (hfloat : v.FloatFree)
    {blanks : String} (hblanks : ∀ c ∈ blanks.toList, Reader.isSpace c) :
    Value.parse (v.text ++ blanks) = .ok v := by
  -- no number goes on with a blank
  have hends : EndsNumber blanks.toList := by
    intro c hc hnumber
    have hspace := hblanks c (List.mem_of_mem_head? hc)
    simp only [Reader.isSpace, Bool.or_eq_true, decide_eq_true_eq] at hspace
    obtain ((rfl | rfl) | rfl) | rfl := hspace <;> revert hnumber <;> decide
  refine Reader.run_eq_ok_iff.2 ⟨blanks.toList, ?_, List.dropWhile_eq_nil_iff.2 hblanks⟩
  rw [String.toList_append, Value.text, String.toList_ofList]
  exact h.readsBack hfloat hends

/-- **A value that was read is the value of its own text**, unless there is a float in it. -/
theorem Value.parse_text {v : Value} (h : v.WellFormed nestingLimit) (hfloat : v.FloatFree) :
    Value.parse v.text = .ok v := by
  have hparse : Value.parse (v.text ++ "") = .ok v :=
    parse_text_append h hfloat fun _ hc => nomatch hc
  rwa [String.append_empty] at hparse

/-- The members of an object are those that its text is written with. -/
theorem Value.writtenMembers_text {ms : Members}
    (h : ∀ m ∈ ms, m.2.WellFormed (nestingLimit - 1)) (hfloat : ∀ m ∈ ms, m.2.FloatFree) :
    Value.writtenMembers ms.text = .ok ms := by
  have hread := Reader.writtenMembers_intercalate
    (fun m hm => (h m hm).readsBack (hfloat m hm)) []
  refine Reader.run_eq_ok_iff.2 ⟨[], Reader.writtenObject_eq_ok_iff.2 ⟨_, ?_, hread⟩, rfl⟩
  rw [Members.text, Value.text, String.toList_ofList]
  rfl

end RevisionRouting.Json
