import Mathlib.Tactic.SplitIfs
import RevisionRouting.Text.Utf8

/-!
# Bytes of texts

A character of ASCII is one byte, and that byte occurs in the encoding of no
other character (`mem_encode_iff`). So a text that is cut at the bytes of an ASCII
character is cut between characters, and a text without line ends has none
among its bytes.

Decoding takes one character after the other, hence good bytes that are put
together decode to the texts put together (`decode_append`). The bytes of a character
are read as that character whatever follows them (`exists_encodeChar`): the lead byte
gives away how many they are (`step_eq`), and no encoding is overlong, names a surrogate
or passes the last code point. So every text is read back from its bytes
(`decode_encode`).
-/

namespace RevisionRouting.Text.Utf8

/-! ### Encoding -/

theorem encode_append (cs ds : List Char) :
    encode (cs ++ ds) = encode cs ++ encode ds := List.flatMap_append

/-- The lead byte of several and the bytes that continue it lie beyond ASCII. -/
theorem ne_ofNat_add {b : UInt8} (hb : b.toNat < 0x80) {n m : Nat} (hm : 0x80 ≤ m)
    (hn : n + m < 0x100) : b ≠ UInt8.ofNat (n + m) := by
  intro h
  have hnat : b.toNat = n + m := by
    rw [h, UInt8.toNat_ofNat']
    exact Nat.mod_eq_of_lt hn
  omega

/-- An ASCII byte belongs to the encoding of its own character alone. -/
theorem mem_encodeChar_iff {b : UInt8} (hb : b.toNat < 0x80) {c : Char} :
    b ∈ encodeChar c ↔ c.toNat = b.toNat := by
  -- no byte of a longer encoding is an ASCII byte
  have high {n m : Nat} := ne_ofNat_add hb (n := n) (m := m)
  rw [← Char.toNat_val]
  unfold encodeChar String.utf8EncodeChar
  dsimp only
  split
  · next h =>
    -- one byte, which is the number of the character
    rw [List.mem_singleton, ← UInt8.toNat_inj, UInt8.toNat_ofNat',
      Nat.mod_eq_of_lt (Nat.lt_of_le_of_lt h (by decide))]
    exact eq_comm
  · next h =>
    -- several bytes, each of them the sum of a mark beyond ASCII and a part of the number
    have hne : c.val.toNat ≠ b.toNat := by omega
    split
    · simp only [List.mem_cons, List.not_mem_nil, or_false, hne, iff_false, not_or]
      exact ⟨high (by omega) (by omega), high (by omega) (by omega)⟩
    · split
      · simp only [List.mem_cons, List.not_mem_nil, or_false, hne, iff_false, not_or]
        exact ⟨high (by omega) (by omega), high (by omega) (by omega), high (by omega) (by omega)⟩
      · simp only [List.mem_cons, List.not_mem_nil, or_false, hne, iff_false, not_or]
        exact ⟨high (by omega) (by omega), high (by omega) (by omega), high (by omega) (by omega),
          high (by omega) (by omega)⟩

/-- The bytes of a text hold an ASCII byte exactly if the text holds its character. -/
theorem mem_encode_iff {b : UInt8} (hb : b.toNat < 0x80) {cs : List Char} :
    b ∈ encode cs ↔ ∃ c ∈ cs, c.toNat = b.toNat := by
  simp only [encode, List.mem_flatMap, mem_encodeChar_iff hb]

/-! ### Decoding -/

variable {a : UInt8} {bytes left : List UInt8} {c : Char}

theorem two_append (h : two a bytes = .char c left) (more : List UInt8) :
    two a (bytes ++ more) = .char c (left ++ more) := by
  -- only a byte that continues the sequence is taken, and it is taken either way
  fun_cases two a bytes with
  | case1 => simp [two] at h
  | case2 b rest hb =>
    simp only [two, hb, if_true, Step.char.injEq] at h
    simp only [List.cons_append, two, hb, if_true, h]
  | case3 b rest hb => simp [two, hb] at h

theorem three_append (h : three a bytes = .char c left) (more : List UInt8) :
    three a (bytes ++ more) = .char c (left ++ more) := by
  fun_cases three a bytes <;> simp_all [three]

theorem four_append (h : four a bytes = .char c left) (more : List UInt8) :
    four a (bytes ++ more) = .char c (left ++ more) := by
  fun_cases four a bytes <;> simp_all [four]

/-- What a step takes from the head of some bytes it also takes when more bytes follow. -/
theorem step_append (h : step a bytes = .char c left) (more : List UInt8) :
    step a (bytes ++ more) = .char c (left ++ more) := by
  unfold step at h ⊢
  -- the lead byte decides, and it is there in both
  split_ifs at h ⊢ with h1 h2 h3 h4
  · cases h
    rfl
  · exact two_append h more
  · exact three_append h more
  · exact four_append h more

/-- Good bytes decode alike under every greater bound on their number and whatever stands before
them: bound and place matter to a fault alone. -/
theorem decodeFrom_of_le {n m d e : Nat} {cs : List Char}
    (h : decodeFrom n d bytes = .ok cs) (hnm : n ≤ m) : decodeFrom m e bytes = .ok cs := by
  -- by induction on the lesser bound, one character at a time
  induction n generalizing m d e bytes cs with
  | zero =>
    cases bytes with
    | nil => cases m <;> exact h
    | cons a rest => simp [decodeFrom] at h
  | succ n ih =>
    cases bytes with
    | nil => cases m <;> exact h
    | cons a rest =>
      obtain ⟨m, rfl⟩ : ∃ k, m = k + 1 := ⟨m - 1, by omega⟩
      rw [decodeFrom] at h ⊢
      cases hs : step a rest with
      | fault span => simp [hs] at h
      | char c left =>
        simp only [hs] at h ⊢
        cases hl : decodeFrom n (d + c.utf8Size) left with
        | error f => simp [hl, Except.map] at h
        | ok ds =>
          -- the character at the head takes one from both bounds
          rw [ih hl (by omega)]
          rwa [hl] at h

/-- Decoding good bytes before other good bytes. The induction is on the bound for the first of
them, as that is what decoding recurses on. -/
theorem decodeFrom_append {n m d e : Nat} {more : List UInt8} {cs ds : List Char}
    (h : decodeFrom n d bytes = .ok cs) (hmore : decodeFrom m e more = .ok ds) :
    decodeFrom (n + m) d (bytes ++ more) = .ok (cs ++ ds) := by
  induction n generalizing d bytes cs with
  | zero =>
    cases bytes with
    | nil =>
      cases h
      exact decodeFrom_of_le hmore (by omega)
    | cons a rest => simp [decodeFrom] at h
  | succ n ih =>
    cases bytes with
    | nil =>
      -- the other bytes begin here, under a greater bound than their own
      cases h
      exact decodeFrom_of_le hmore (by omega)
    | cons a rest =>
      rw [decodeFrom] at h
      rw [Nat.add_right_comm, List.cons_append, decodeFrom]
      cases hs : step a rest with
      | fault span => simp [hs] at h
      | char c left =>
        rw [step_append hs]
        simp only [hs] at h ⊢
        cases hl : decodeFrom n (d + c.utf8Size) left with
        | error f => simp [hl, Except.map] at h
        | ok es =>
          rw [hl] at h
          cases h
          rw [ih hl]
          rfl

/-- Good bytes put together decode to the texts put together. -/
theorem decode_append {more : List UInt8} {cs ds : List Char} (h : decode bytes = .ok cs)
    (hmore : decode more = .ok ds) : decode (bytes ++ more) = .ok (cs ++ ds) := by
  rw [decode, List.length_append]
  exact decodeFrom_append h hmore

/-! ### Reading back -/

/-- A byte that is made of a small number has that number. -/
theorem toNat_ofNat_of_lt {n : Nat} (h : n < 0x100) : (UInt8.ofNat n).toNat = n := by
  rw [UInt8.toNat_ofNat']
  exact Nat.mod_eq_of_lt h

/-- A range of bytes is one of numbers. -/
theorem between_iff {lo hi b : UInt8} :
    (lo ≤ b && b ≤ hi) = true ↔ lo.toNat ≤ b.toNat ∧ b.toNat ≤ hi.toNat := by
  simp only [Bool.and_eq_true, decide_eq_true_eq, UInt8.le_iff_toNat_le]

section Lead

variable {a : UInt8} (bytes : List UInt8)

/-- The number of the lead byte says how long a sequence is. -/
theorem step_eq (a : UInt8) : step a bytes =
    if a.toNat ≤ 0x7F then .char (Char.ofNat a.toNat) bytes
    else if 0xC2 ≤ a.toNat ∧ a.toNat ≤ 0xDF then two a bytes
    else if 0xE0 ≤ a.toNat ∧ a.toNat ≤ 0xEF then three a bytes
    else if 0xF0 ≤ a.toNat ∧ a.toNat ≤ 0xF4 then four a bytes
    else .fault (some 1) := by
  simp [step, UInt8.le_iff_toNat_le]

theorem step_of_one (h : a.toNat ≤ 0x7F) : step a bytes = .char (Char.ofNat a.toNat) bytes := by
  rw [step_eq, if_pos h]

theorem step_of_two (h : 0xC2 ≤ a.toNat ∧ a.toNat ≤ 0xDF) : step a bytes = two a bytes := by
  rw [step_eq, if_neg (by omega), if_pos h]

theorem step_of_three (h : 0xE0 ≤ a.toNat ∧ a.toNat ≤ 0xEF) : step a bytes = three a bytes := by
  rw [step_eq, if_neg (by omega), if_neg (by omega), if_pos h]

theorem step_of_four (h : 0xF0 ≤ a.toNat ∧ a.toNat ≤ 0xF4) : step a bytes = four a bytes := by
  rw [step_eq, if_neg (by omega), if_neg (by omega), if_neg (by omega), if_pos h]

end Lead

/-- The byte that continues a sequence with the last six bits of a number. -/
def continuation (n : Nat) : UInt8 := UInt8.ofNat (n % 0x40 + 0x80)

theorem toNat_continuation (n : Nat) : (continuation n).toNat = n % 0x40 + 0x80 :=
  toNat_ofNat_of_lt (by omega)

theorem isContinuation_continuation (n : Nat) : isContinuation (continuation n) = true := by
  have hbyte := toNat_continuation n
  exact between_iff.2 ⟨hbyte ▸ Nat.le_add_left _ _, hbyte ▸ (by omega : n % 0x40 + 0x80 ≤ 0xBF)⟩

theorem payload_continuation (n : Nat) : payload (continuation n) = n % 0x40 := by
  rw [payload, toNat_continuation]
  omega

section Sequences

variable {n : Nat} {a : UInt8} (bytes : List UInt8)

theorem two_continuation (ha : a.toNat = n / 0x40 % 0x20 + 0xC0) (hn : n < 0x800) :
    two a (continuation n :: bytes) = .char (Char.ofNat n) bytes := by
  -- the five bits of the lead byte and the six of the second make up the number
  have hvalue : (n / 0x40 % 0x20 + 0xC0) % 0x20 * 0x40 + n % 0x40 = n := by omega
  rw [two, if_pos (isContinuation_continuation n), payload_continuation, ha, hvalue]

/-- The second byte is not cut off, as the number is neither too small for a sequence of three nor
that of a surrogate. -/
theorem isSecondOfThree_continuation (ha : a.toNat = n / 0x1000 % 0x10 + 0xE0) (h : 0x800 ≤ n)
    (hn : n < 0x10000) (hvalid : n < 0xD800 ∨ 0xDFFF < n) :
    isSecondOfThree a (continuation (n / 0x40)) = true := by
  have hbyte := toNat_continuation (n / 0x40)
  rw [isSecondOfThree]
  -- the two lead bytes after which the range of the second is cut, and all others
  split_ifs with hfirst hsurrogate
  · have hfirst : a.toNat = 0xE0 := congrArg UInt8.toNat hfirst
    exact between_iff.2 ⟨hbyte ▸ (by omega : 0xA0 ≤ n / 0x40 % 0x40 + 0x80),
      hbyte ▸ (by omega : n / 0x40 % 0x40 + 0x80 ≤ 0xBF)⟩
  · have hsurrogate : a.toNat = 0xED := congrArg UInt8.toNat hsurrogate
    exact between_iff.2 ⟨hbyte ▸ (by omega : 0x80 ≤ n / 0x40 % 0x40 + 0x80),
      hbyte ▸ (by omega : n / 0x40 % 0x40 + 0x80 ≤ 0x9F)⟩
  · exact isContinuation_continuation _

theorem three_continuation (ha : a.toNat = n / 0x1000 % 0x10 + 0xE0) (h : 0x800 ≤ n)
    (hn : n < 0x10000) (hvalid : n < 0xD800 ∨ 0xDFFF < n) :
    three a (continuation (n / 0x40) :: continuation n :: bytes) =
      .char (Char.ofNat n) bytes := by
  -- four bits and twice six
  have hvalue : (n / 0x1000 % 0x10 + 0xE0) % 0x10 * 0x1000 + n / 0x40 % 0x40 * 0x40 + n % 0x40 =
      n := by omega
  rw [three, isSecondOfThree_continuation ha h hn hvalid, Bool.not_true, if_neg Bool.false_ne_true]
  simp only [isContinuation_continuation, if_true, payload_continuation, ha, hvalue]

/-- The second byte is not cut off, as the number is neither too small for a sequence of four nor
beyond the last code point. -/
theorem isSecondOfFour_continuation (ha : a.toNat = n / 0x40000 % 0x08 + 0xF0) (h : 0x10000 ≤ n)
    (hn : n < 0x110000) : isSecondOfFour a (continuation (n / 0x1000)) = true := by
  have hbyte := toNat_continuation (n / 0x1000)
  rw [isSecondOfFour]
  -- the two lead bytes after which the range of the second is cut, and all others
  split_ifs with hfirst hlast
  · have hfirst : a.toNat = 0xF0 := congrArg UInt8.toNat hfirst
    exact between_iff.2 ⟨hbyte ▸ (by omega : 0x90 ≤ n / 0x1000 % 0x40 + 0x80),
      hbyte ▸ (by omega : n / 0x1000 % 0x40 + 0x80 ≤ 0xBF)⟩
  · have hlast : a.toNat = 0xF4 := congrArg UInt8.toNat hlast
    exact between_iff.2 ⟨hbyte ▸ (by omega : 0x80 ≤ n / 0x1000 % 0x40 + 0x80),
      hbyte ▸ (by omega : n / 0x1000 % 0x40 + 0x80 ≤ 0x8F)⟩
  · exact isContinuation_continuation _

theorem four_continuation (ha : a.toNat = n / 0x40000 % 0x08 + 0xF0) (h : 0x10000 ≤ n)
    (hn : n < 0x110000) :
    four a (continuation (n / 0x1000) :: continuation (n / 0x40) :: continuation n :: bytes) =
      .char (Char.ofNat n) bytes := by
  -- three bits and three times six
  have hvalue : (n / 0x40000 % 0x08 + 0xF0) % 0x08 * 0x40000 + n / 0x1000 % 0x40 * 0x1000 +
      n / 0x40 % 0x40 * 0x40 + n % 0x40 = n := by omega
  rw [four, isSecondOfFour_continuation ha h hn, Bool.not_true, if_neg Bool.false_ne_true]
  simp only [isContinuation_continuation, Bool.not_true, if_false, if_true, payload_continuation,
    ha, hvalue, Bool.false_eq_true]

end Sequences

/-- **A character is read back** from the head of its encoding. -/
theorem exists_encodeChar (c : Char) : ∃ a tail, encodeChar c = a :: tail ∧
    ∀ rest, step a (tail ++ rest) = .char c rest := by
  -- no number of a character is that of a surrogate or beyond the last code point
  have hchar : Char.ofNat c.toNat = c := Char.ofNat_toNat c
  have hvalid : c.toNat < 0xD800 ∨ 0xDFFF < c.toNat ∧ c.toNat < 0x110000 := c.valid
  have hlead {n : Nat} (h : n < 0x100) := toNat_ofNat_of_lt h
  change ∃ a tail, String.utf8EncodeChar c = _ ∧ _
  rw [String.utf8EncodeChar]
  simp only [Char.toNat_val]
  -- one case for each length of an encoding; the lead byte leads back to it
  split_ifs with hone htwo hthree
  · refine ⟨_, _, rfl, fun rest => ?_⟩
    have ha := hlead (n := c.toNat) (by omega)
    rw [step_of_one _ (by omega), ha, hchar]
    rfl
  · refine ⟨_, _, rfl, fun rest => ?_⟩
    have ha := hlead (n := c.toNat / 0x40 % 0x20 + 0xC0) (by omega)
    rw [step_of_two _ (by omega)]
    exact (two_continuation rest ha (by omega)).trans (by rw [hchar])
  · refine ⟨_, _, rfl, fun rest => ?_⟩
    have ha := hlead (n := c.toNat / 0x1000 % 0x10 + 0xE0) (by omega)
    rw [step_of_three _ (by omega)]
    exact (three_continuation rest ha (by omega) (by omega) (by omega)).trans (by rw [hchar])
  · refine ⟨_, _, rfl, fun rest => ?_⟩
    have ha := hlead (n := c.toNat / 0x40000 % 0x08 + 0xF0) (by omega)
    rw [step_of_four _ (by omega)]
    exact (four_continuation rest ha (by omega) (by omega)).trans (by rw [hchar])

/-- **A text is read back from its bytes.** -/
theorem decode_encode (cs : List Char) : decode (encode cs) = .ok cs := by
  induction cs with
  | nil => rfl
  | cons c cs ih =>
    obtain ⟨a, tail, hc, hstep⟩ := exists_encodeChar c
    -- the encoding of the first character is good by itself, and so is what follows it
    have hone : decode (encodeChar c) = .ok [c] := by
      have hstep := hstep []
      rw [List.append_nil] at hstep
      rw [hc, decode, List.length_cons, decodeFrom, hstep]
      cases tail <;> rfl
    exact decode_append hone ih

end RevisionRouting.Text.Utf8
