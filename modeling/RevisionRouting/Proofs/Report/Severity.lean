import Mathlib.Data.List.Forall2
import Mathlib.Tactic.SplitIfs
import RevisionRouting.Report.Severity

/-!
# Names of severities

A severity is known by its names (`Severity.names`) in any mixture of cases: a name stands
for it if the two texts are the same up to the case of their letters (`SameUpToCase`). The
letters are those of ASCII, and any other character must be there as it is.
-/

namespace RevisionRouting

namespace Severity

/-- Two characters are the same letter, be it in lower case or in upper; the letters that have both
are those of ASCII. -/
def SameLetter (c d : Char) : Prop :=
  c = d ∨ (c.isUpper ∧ d.toNat = c.toNat + 32) ∨ (d.isUpper ∧ c.toNat = d.toNat + 32)

/-- Two texts are the same up to the case of their letters. -/
def SameUpToCase (s t : String) : Prop := List.Forall₂ SameLetter s.toList t.toList

/-- The names of severities. -/
def names : List (String × Severity) :=
  [("trace", trace), ("info", info), ("warn", warn), ("warning", warn), ("error", error)]

theorem isUpper_iff (c : Char) : c.isUpper ↔ 65 ≤ c.toNat ∧ c.toNat ≤ 90 := by
  change decide (c.val ≥ 'A'.val ∧ c.val ≤ 'Z'.val) = true ↔ _
  rw [decide_eq_true_iff, ge_iff_le, UInt32.le_iff_toNat_le, UInt32.le_iff_toNat_le]
  exact Iff.rfl

theorem toNat_toLower (c : Char) :
    c.toLower.toNat = if 65 ≤ c.toNat ∧ c.toNat ≤ 90 then c.toNat + 32 else c.toNat := by
  delta Char.toLower
  split
  · -- an upper case letter is moved up by 32
    next h =>
    have hc := (isUpper_iff c).1 (decide_eq_true h)
    have hadd : (c.val + ('a'.val - 'A'.val)).toNat = (c.val.toNat + 32) % 2 ^ 32 :=
      UInt32.toNat_add _ _
    rw [if_pos hc]
    have hlt : c.val.toNat + 32 < 2 ^ 32 :=
      Nat.lt_of_le_of_lt (Nat.add_le_add_right hc.2 32) (by decide)
    -- no letter is so far up that the sum would wrap
    exact hadd.trans (Nat.mod_eq_of_lt hlt)
  · -- any other character stays as it is
    next h =>
    rw [if_neg fun hc => h (of_decide_eq_true ((isUpper_iff c).2 hc))]

theorem toLower_eq_iff {c d : Char} : c.toLower = d.toLower ↔ SameLetter c d := by
  -- with numbers for characters what is left is arithmetic
  simp only [SameLetter, ← Char.toNat_inj, toNat_toLower, isUpper_iff]
  split_ifs <;> omega

/-- Two texts have the same letters in lower case if they are the same up to the case of their
letters. -/
theorem lowerCase_eq_iff {s t : String} : lowerCase s = lowerCase t ↔ SameUpToCase s t := by
  rw [lowerCase, lowerCase, String.ofList_inj, SameUpToCase, ← List.forall₂_eq_eq_eq,
    List.forall₂_map_left_iff, List.forall₂_map_right_iff]
  simp only [toLower_eq_iff]

theorem lowerCase_eq_of_mem_names {n : String × Severity} (h : n ∈ names) :
    lowerCase n.1 = n.1 := by
  have hall : ∀ n ∈ names, lowerCase n.1 = n.1 := by decide
  exact hall n h

/-- A name stands for the severity of which it is a name but for the case of its letters. -/
theorem ofName_of_mem_names {name : String} {n : String × Severity} (hn : n ∈ names)
    (h : SameUpToCase name n.1) : ofName name = .ok n.2 := by
  -- the lower case of the name is one of the five
  have hlower : lowerCase name = n.1 := by
    rw [lowerCase_eq_iff.2 h, lowerCase_eq_of_mem_names hn]
  rw [ofName, hlower]
  -- the cascade of tests, run on each of the five
  have hall : ∀ n ∈ names, (if n.1 = "trace" then .ok trace
      else if n.1 = "info" then .ok info
      else if n.1 = "warn" ∨ n.1 = "warning" then .ok warn
      else if n.1 = "error" then .ok error
      else .error ⟨n.1⟩ : Except UnknownSeverity Severity) = .ok n.2 := by decide
  exact hall n hn

/-- No other name stands for a severity. -/
theorem ofName_of_unknown {name : String} (h : ∀ n ∈ names, ¬ SameUpToCase name n.1) :
    ofName name = .error ⟨lowerCase name⟩ := by
  -- each test of the cascade would give a name that it is, but for case
  have hne (known : String) (severity : Severity) (hn : (known, severity) ∈ names) :
      lowerCase name ≠ known := by
    intro hlower
    refine h _ hn (lowerCase_eq_iff.1 ?_)
    rw [hlower, lowerCase_eq_of_mem_names hn]
  rw [ofName, if_neg (hne "trace" trace (by decide)), if_neg (hne "info" info (by decide)),
    if_neg (not_or.2 ⟨hne "warn" warn (by decide), hne "warning" warn (by decide)⟩),
    if_neg (hne "error" error (by decide))]

end Severity

end RevisionRouting
