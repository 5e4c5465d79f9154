import RevisionRouting.Proofs.Text.Utf8

/-!
# The order of texts

Texts are compared character by character, and a host that holds them as bytes compares
byte by byte. The two orders are one (`encode_lt_encode_iff`): the lead byte of a longer
encoding is greater than that of a shorter one, and among encodings of one length the bytes
are the digits of the character's number, the highest first (`encodeChar_append_lt`).
-/

namespace RevisionRouting.Text.Utf8

theorem ofNat_lt_ofNat_iff {n m : Nat} (hn : n < 0x100) (hm : m < 0x100) :
    UInt8.ofNat n < UInt8.ofNat m ↔ n < m := by
  rw [UInt8.lt_iff_toNat_lt, toNat_ofNat_of_lt hn, toNat_ofNat_of_lt hm]

theorem ofNat_eq_ofNat_iff {n m : Nat} (hn : n < 0x100) (hm : m < 0x100) :
    UInt8.ofNat n = UInt8.ofNat m ↔ n = m := by
  rw [← UInt8.toNat_inj, toNat_ofNat_of_lt hn, toNat_ofNat_of_lt hm]

/-- The lesser of two characters has the lesser bytes, whatever follows the two. -/
theorem encodeChar_append_lt {c d : Char} (h : c < d) (bytes bytes' : List UInt8) :
    encodeChar c ++ bytes < encodeChar d ++ bytes' := by
  have hlt : c.toNat < d.toNat := UInt32.lt_iff_toNat_lt.1 h
  -- no character has a number so great that the lead byte would lose a part of it
  have hlead (e : Char) : e.toNat / 0x40000 % 0x08 = e.toNat / 0x40000 := by
    have hvalid : e.toNat < 0xD800 ∨ 0xDFFF < e.toNat ∧ e.toNat < 0x110000 := e.valid
    omega
  have hc := hlead c
  have hd := hlead d
  -- Below the lead byte each byte holds six bits. Of two numbers that agree above them, the lesser
  -- has the lesser six.
  have hsplit (p q : Nat) : p < q →
      p / 0x40 < q / 0x40 ∨ p / 0x40 = q / 0x40 ∧ p % 0x40 < q % 0x40 := by
    omega
  have hlast := hsplit c.toNat d.toNat hlt
  have hthird := hsplit (c.toNat / 0x40) (d.toNat / 0x40)
  have hsecond := hsplit (c.toNat / 0x1000) (d.toNat / 0x1000)
  unfold encodeChar String.utf8EncodeChar
  simp only [Char.toNat_val]
  -- one case for each two lengths, less those in which the lesser character would be the longer
  split_ifs
  all_goals
    simp (disch := omega) only [List.cons_append, List.nil_append, List.cons_lt_cons_iff,
      ofNat_lt_ofNat_iff, ofNat_eq_ofNat_iff]
    omega

theorem encode_lt_encode {cs ds : List Char} (h : cs < ds) : encode cs < encode ds := by
  -- by induction on the lesser text, character by character
  induction cs generalizing ds with
  | nil =>
    cases ds with
    | nil => exact absurd h (List.lt_irrefl [])
    | cons d ds =>
      -- no encoding is empty
      obtain ⟨b, tail, hd, -⟩ := exists_encodeChar d
      have hbytes : encode (d :: ds) = b :: (tail ++ encode ds) := by
        rw [encode, List.flatMap_cons, hd, List.cons_append, encode]
      rw [hbytes]
      exact List.nil_lt_cons b _
  | cons c cs ih =>
    cases ds with
    | nil => exact absurd h (List.not_lt_nil _)
    | cons d ds =>
      -- the first character decides unless it is the same, and then the rest does
      rw [encode, encode, List.flatMap_cons, List.flatMap_cons]
      obtain hlt | ⟨rfl, hlt⟩ := List.cons_lt_cons_iff.1 h
      · exact encodeChar_append_lt hlt _ _
      · exact List.append_left_lt (ih hlt)

/-- **The order of texts is that of their bytes.** -/
theorem encode_lt_encode_iff {s t : String} : encode s.toList < encode t.toList ↔ s < t := by
  constructor
  · intro h
    refine Decidable.byContradiction fun hnot => ?_
    by_cases heq : t = s
    · rw [heq] at h
      exact List.lt_irrefl _ h
    · -- the other order of the texts would be that of the bytes, too
      have hgt : t < s := Std.lt_of_le_of_ne hnot heq
      exact List.lt_asymm (encode_lt_encode (String.lt_iff.1 hgt)) h
  · intro h
    exact encode_lt_encode (String.lt_iff.1 h)

end RevisionRouting.Text.Utf8
