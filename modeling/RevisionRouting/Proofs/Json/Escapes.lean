import Mathlib.Tactic.SplitIfs
import RevisionRouting.Json.Printer
import RevisionRouting.Proofs.Json.Progress

/-!
# Escapes are read back

Between quotes every character is written by its escape, and each escape is one
piece of a string, that of its character (`piece_escape`). A text is therefore read
back from between its quotes, whatever follows them and whether it is wanted or passed
over (`stringTail_escape`).
-/

namespace RevisionRouting.Json.Reader

variable {purpose : Purpose}

/-- A control character written by its number. -/
theorem hexValue?_hexByte {n : Nat} (h : n < 0x20) :
    hexValue? '0' '0' (Nat.digitChar (n / 16)) (Nat.digitChar (n % 16)) = some n := by
  -- thirty-two numbers, each of which can be tried
  have hall : ∀ n < 0x20,
      hexValue? '0' '0' (Nat.digitChar (n / 16)) (Nat.digitChar (n % 16)) = some n := by decide
  exact hall n h

theorem unicodeEscape_hexByte {c : Char} (h : c.toNat < 0x20) (rest : List Char) :
    unicodeEscape purpose ('0' :: '0' :: (hexByte c.toNat ++ rest)) = .ok (c, rest) := by
  -- the two zeros and the two digits make up the number
  have hunit : codeUnit ('0' :: '0' :: (hexByte c.toNat ++ rest)) = .ok (c.toNat, rest) := by
    simp only [hexByte, List.cons_append, List.nil_append, codeUnit, hexValue?_hexByte h]
  unfold unicodeEscape
  refine bind_eq_ok_iff.2 ⟨_, hunit, ?_⟩
  -- the number is below those of the surrogates
  have htrailing : isTrailing c.toNat = false := by
    rw [isTrailing, decide_eq_false (by omega), Bool.false_and]
  have hleading : isLeading c.toNat = false := by
    rw [isLeading, decide_eq_false (by omega), Bool.false_and]
  -- the extent needs no value, and the content is the character of the number
  cases purpose with
  | extent =>
    dsimp only
    rw [Char.ofNat_toNat]
    rfl
  | content =>
    dsimp only
    rw [htrailing, hleading, Char.ofNat_toNat]
    rfl

/-- **An escape is one piece**, that of its character. -/
theorem piece_escape (c : Char) (rest : List Char) :
    piece purpose (escape c ++ rest) = .ok (some c, rest) := by
  unfold escape
  -- the short escapes, one by one
  split_ifs with hquote hbackslash hb hf hn hr ht hcontrol
  · rw [hquote]; rfl
  · rw [hbackslash]; rfl
  · rw [hb]; rfl
  · rw [hf]; rfl
  · rw [hn]; rfl
  · rw [hr]; rfl
  · rw [ht]; rfl
  · -- any other control character is written by its number
    have hpiece (cs : List Char) : piece purpose ('\\' :: 'u' :: cs) =
        (unicodeEscape purpose cs).map fun r => (some r.1, r.2) := rfl
    exact (hpiece _).trans (map_fst_eq_ok_iff.2 ⟨c, unicodeEscape_hexByte hcontrol rest, rfl⟩)
  · -- all other characters stand for themselves
    rw [List.singleton_append, piece, if_neg hquote, if_neg hbackslash, if_neg hcontrol]

theorem pieces_escape {cs : List Char} {n : Nat} (hn : cs.length < n) (rest : List Char) :
    pieces purpose n (cs.flatMap escape ++ '"' :: rest) = .ok (cs, rest) := by
  -- every character of the text takes one pass, however long its escape is
  induction cs generalizing n with
  | nil =>
    -- one pass is left for the closing quote
    obtain ⟨n, rfl⟩ : ∃ k, n = k + 1 := ⟨n - 1, by omega⟩
    rfl
  | cons c cs ih =>
    obtain ⟨n, rfl⟩ : ∃ k, n = k + 1 := ⟨n - 1, by omega⟩
    rw [List.flatMap_cons, List.append_assoc, pieces, piece_escape]
    dsimp only
    rw [ih (Nat.lt_of_succ_lt_succ hn)]
    rfl

theorem length_le_flatMap_escape (cs : List Char) : cs.length ≤ (cs.flatMap escape).length := by
  -- an escape has one character at least
  have hescape (c : Char) : 1 ≤ (escape c).length := by
    unfold escape
    split_ifs <;> simp
  induction cs with
  | nil => exact Nat.le_refl 0
  | cons c cs ih =>
    have := hescape c
    rw [List.flatMap_cons, List.length_append, List.length_cons]
    omega

/-- **A text is read back** from between its quotes. -/
theorem stringTail_escape (s : String) (rest : List Char) :
    stringTail purpose (s.toList.flatMap escape ++ '"' :: rest) = .ok (s, rest) := by
  -- the bound is the length of the escaped text, which is enough
  have hle := length_le_flatMap_escape s.toList
  have hpieces : pieces purpose (s.toList.flatMap escape ++ '"' :: rest).length
      (s.toList.flatMap escape ++ '"' :: rest) = .ok (s.toList, rest) := by
    refine pieces_escape ?_ rest
    rw [List.length_append, List.length_cons]
    omega
  exact map_fst_eq_ok_iff.2 ⟨s.toList, hpieces, String.ofList_toList⟩

end RevisionRouting.Json.Reader
