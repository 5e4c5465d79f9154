import Mathlib.Tactic.SplitIfs
import RevisionRouting.Json.Printer

/-!
# The text of a value stays on one line

No compact text holds a line end: a text between quotes is escaped
(`lineEnd_not_mem_quoted`), the digits of a number are digits, and nothing else
that a value writes is text of the user's. `Value.lineEnd_not_mem_chars` is the
induction over values that puts these together.
-/

namespace RevisionRouting.Json

/-! ### Numbers -/

theorem lineEnd_not_mem_decimal (n : Nat) : '\n' ∉ Text.decimal n := by
  intro h
  have hd := Nat.isDigit_of_mem_toDigits (by decide) (by decide) h
  exact absurd hd (by decide)

theorem lineEnd_not_mem_intChars (n : Int) : '\n' ∉ intChars n := by
  cases n with
  | ofNat n => exact lineEnd_not_mem_decimal n
  | negSucc n =>
    rw [intChars, List.mem_cons, not_or]
    exact ⟨by decide, lineEnd_not_mem_decimal (n + 1)⟩

theorem lineEnd_not_mem_replicate (n : Nat) : '\n' ∉ List.replicate n '0' := by
  intro h
  exact absurd (List.eq_of_mem_replicate h) (by decide)

theorem lineEnd_not_mem_plainChars {ds : List Char} (h : '\n' ∉ ds) (e : Int) :
    '\n' ∉ plainChars ds e := by
  unfold plainChars
  split_ifs with he
  · -- without a point the digits have zeros behind them at most
    simp [h]
  · -- with one they are cut in two, and the first part may have zeros behind it
    have htake : '\n' ∉ ds.take (e.toNat + 1) := fun hm => h (List.mem_of_mem_take hm)
    have hdrop : '\n' ∉ ds.drop (e.toNat + 1) := fun hm => h (List.mem_of_mem_drop hm)
    simp only [List.mem_append, List.mem_cons, not_or]
    refine ⟨⟨htake, lineEnd_not_mem_replicate _⟩, by decide, ?_⟩
    split_ifs
    · decide
    · exact hdrop

theorem lineEnd_not_mem_scientificChars {ds : List Char} (h : '\n' ∉ ds) (e : Int) :
    '\n' ∉ scientificChars ds e := by
  unfold scientificChars
  simp only [List.mem_append, List.mem_cons, not_or]
  refine ⟨?_, by decide, ?_, lineEnd_not_mem_decimal _⟩
  · -- a point stands after the first digit if there are others
    split
    · simp only [List.mem_cons, not_or] at h ⊢
      exact ⟨h.1, by decide, h.2⟩
    · exact h
  · split_ifs <;> decide

theorem lineEnd_not_mem_magnitudeChars (x : Float) : '\n' ∉ magnitudeChars x := by
  unfold magnitudeChars
  split_ifs with h0
  · decide
  · -- the digits of the significand are those of a number, less the zeros at its end
    have hds : '\n' ∉ ((Text.decimal (Decimal.Binary.ofFloat x).shortest.digits).reverse.dropWhile
        (· == '0')).reverse := by
      intro h
      have hm := (List.dropWhile_suffix _).mem (List.mem_reverse.1 h)
      exact lineEnd_not_mem_decimal _ (List.mem_reverse.1 hm)
    dsimp only
    split_ifs
    · exact lineEnd_not_mem_plainChars hds _
    · exact lineEnd_not_mem_scientificChars hds _

theorem lineEnd_not_mem_floatChars (x : Float) : '\n' ∉ floatChars x := by
  unfold floatChars
  split_ifs
  · rw [List.mem_cons, not_or]
    exact ⟨by decide, lineEnd_not_mem_magnitudeChars x⟩
  · exact lineEnd_not_mem_magnitudeChars x
  · decide

theorem Number.lineEnd_not_mem_chars (n : Number) : '\n' ∉ n.chars := by
  cases n with
  | integer n fits => exact lineEnd_not_mem_intChars n
  | float x => exact lineEnd_not_mem_floatChars x

/-! ### Texts -/

theorem lineEnd_not_mem_hexByte {n : Nat} (h : n < 0x20) : '\n' ∉ hexByte n := by
  have hall : ∀ n < 0x20, '\n' ∉ hexByte n := by decide
  exact hall n h

/-- A line end is escaped, and no escape holds one. -/
theorem lineEnd_not_mem_escape (c : Char) : '\n' ∉ escape c := by
  unfold escape
  split_ifs with h1 h2 h3 h4 h5 h6 h7 h8
  -- the seven short escapes have no line end in them
  all_goals try decide
  · -- any other control character is written by its number
    simp only [List.mem_cons, not_or]
    exact ⟨by decide, by decide, by decide, by decide, lineEnd_not_mem_hexByte h8⟩
  · -- a character that stands for itself is no line end, as that has an escape
    rw [List.mem_singleton]
    exact fun h => h5 h.symm

theorem lineEnd_not_mem_quoted (cs : List Char) : '\n' ∉ quoted cs := by
  intro h
  rw [quoted, List.mem_append, List.mem_cons, List.mem_flatMap] at h
  -- the opening quote, an escape of a character, or the closing quote
  obtain (h | ⟨c, -, hc⟩) | h := h
  · exact absurd h (by decide)
  · exact lineEnd_not_mem_escape c hc
  · exact absurd h (by decide)

/-! ### Values -/

theorem mem_intercalate {c : Char} {sep : List Char} {texts : List (List Char)}
    (h : c ∈ List.intercalate sep texts) : c ∈ sep ∨ ∃ t ∈ texts, c ∈ t := by
  induction texts with
  | nil => exact absurd h List.not_mem_nil
  | cons t ts ih =>
    cases ts with
    | nil =>
      rw [List.intercalate_singleton] at h
      exact .inr ⟨t, List.mem_cons_self, h⟩
    | cons t' ts =>
      rw [List.intercalate_cons_cons, List.mem_append, List.mem_append] at h
      -- in the first text, in the separator after it, or in what follows
      obtain (h | h) | h := h
      · exact .inr ⟨t, List.mem_cons_self, h⟩
      · exact .inl h
      · obtain h | ⟨u, hu, hc⟩ := ih h
        · exact .inl h
        · exact .inr ⟨u, List.mem_cons_of_mem t hu, hc⟩

theorem lineEnd_not_mem_bracketed {opening closing : Char} {texts : List (List Char)}
    (ho : opening ≠ '\n') (hc : closing ≠ '\n') (h : ∀ t ∈ texts, '\n' ∉ t) :
    '\n' ∉ bracketed opening closing texts := by
  intro hm
  rw [bracketed, List.mem_cons, List.mem_append, List.mem_singleton] at hm
  -- a bracket, a comma between the texts, or a character of one of them
  obtain hm | hm | hm := hm
  · exact ho hm.symm
  · obtain hm | ⟨t, ht, hm⟩ := mem_intercalate hm
    · exact absurd hm (by decide)
    · exact h t ht hm
  · exact hc hm.symm

theorem lineEnd_not_mem_memberChars (name : String) {value : List Char} (h : '\n' ∉ value) :
    '\n' ∉ memberChars name value := by
  rw [memberChars, List.mem_append, List.mem_cons, not_or, not_or]
  exact ⟨lineEnd_not_mem_quoted _, by decide, h⟩

mutual

/-- **No text of a value holds a line end**, whatever its texts and names hold. -/
theorem Value.lineEnd_not_mem_chars : (v : Value) → '\n' ∉ v.chars
  | .null => by decide
  | .bool true => by decide
  | .bool false => by decide
  | .number n => n.lineEnd_not_mem_chars
  | .string s => lineEnd_not_mem_quoted s.toList
  | .array items =>
    lineEnd_not_mem_bracketed (by decide) (by decide) (lineEnd_not_mem_itemTexts items)
  | .object members =>
    lineEnd_not_mem_bracketed (by decide) (by decide) (lineEnd_not_mem_memberTexts members)

theorem lineEnd_not_mem_itemTexts : (vs : List Value) → ∀ t ∈ itemTexts vs, '\n' ∉ t
  | [] => fun _ h => absurd h List.not_mem_nil
  | v :: vs => by
    intro t ht
    rw [itemTexts] at ht
    obtain rfl | ht := List.mem_cons.1 ht
    · exact v.lineEnd_not_mem_chars
    · exact lineEnd_not_mem_itemTexts vs t ht

theorem lineEnd_not_mem_memberTexts :
    (ms : List (String × Value)) → ∀ t ∈ memberTexts ms, '\n' ∉ t
  | [] => fun _ h => absurd h List.not_mem_nil
  | (name, v) :: ms => by
    intro t ht
    rw [memberTexts] at ht
    obtain rfl | ht := List.mem_cons.1 ht
    · exact lineEnd_not_mem_memberChars name v.lineEnd_not_mem_chars
    · exact lineEnd_not_mem_memberTexts ms t ht

end

end RevisionRouting.Json
