import Mathlib.Algebra.Group.Nat.Defs
import Mathlib.Tactic.SplitIfs
import RevisionRouting.Json.Value

/-!
# Which numbers are zero

A number counts as zero if the float nearest to it does (`Number.toFloat`). An integer is held
as such, and for it this says that zero is the only one whose nearest float is a zero
(`Number.isZero_iff`). No integer is rounded away, however great it is.

A positive number in whole units is rounded in steps that each drop bits from its
mantissa. `InRange` is what holds on the way: there is a mantissa, and the exponent is one
that a float can have. A step never drops all bits (`shiftToTargetExponent_inRange`), and a
mantissa of at most 53 bits with such an exponent is not packed into the bits of a
zero (`unpack_pack_ne_zero`).
-/

namespace RevisionRouting.Json

open Float.Model Float.Model.UnpackedFloat

namespace Binary64

/-! ### Rounding -/

theorem mantissa_shiftRight (em : ExtendedMantissa) (n : Nat) :
    (em >>> n).mantissa = em.mantissa / 2 ^ n := by
  -- each shift by one is a division by two
  induction n with
  | zero => exact (Nat.div_one _).symm
  | succ n ih =>
    show (em >>> n).mantissa / 2 = _
    rw [ih, Nat.div_div_eq_div_mul, Nat.pow_succ]

theorem mantissa_ofMantissaAndAccuracy (m : Nat) (a : Accuracy) :
    (ExtendedMantissa.ofMantissaAndAccuracy m a).mantissa = m := by
  cases a with
  | exact => rfl
  | inexact o => cases o <;> rfl

/-- Rounding never goes down from what is left of the mantissa. -/
theorem le_roundedMantissa (em : ExtendedMantissa) : em.mantissa ≤ em.roundedMantissa := by
  rw [ExtendedMantissa.roundedMantissa]
  -- what was dropped decides whether one is added
  cases em.accuracy with
  | exact => exact Nat.le_refl _
  | inexact o =>
    cases o with
    | lt => exact Nat.le_refl _
    | eq => exact Nat.le_add_right _ _
    | gt => exact Nat.le_succ _

theorem targetExponent_eq (e : Int) :
    Format.binary64.targetExponent e = max (e - 53) (-1074) := rfl

/-- A mantissa that is not zero, and an exponent that is not below those of floats. -/
structure InRange (m : Nat) (e : Int) : Prop where
  mantissa_pos : 0 < m
  exponent_ge : -1074 ≤ e

/-- **A step of rounding drops no more bits than are too many.** -/
theorem shiftToTargetExponent_inRange {m : Nat} {e : Int} (h : InRange m e) (a : Accuracy) :
    InRange (shiftToTargetExponent .binary64 m e a).1.mantissa
        (shiftToTargetExponent .binary64 m e a).2 ∧
      (shiftToTargetExponent .binary64 m e a).1.mantissa < 2 ^ 53 := by
  obtain ⟨hm, he⟩ := h
  rw [shiftToTargetExponent, shiftToExponent, totalExponent, targetExponent_eq]
  dsimp only
  rw [mantissa_shiftRight, mantissa_ofMantissaAndAccuracy]
  generalize hk : (max ((m.log2 : Int) + 1 + e - 53) (-1074) - e).toNat = k
  -- as many bits go as there are beyond 53
  have hlog : m.log2 ≤ 52 + k ∧ k ≤ m.log2 := by omega
  refine ⟨⟨?_, by omega⟩, ?_⟩
  · -- no more bits go than the mantissa has, so one is left
    apply Nat.div_pos _ (Nat.two_pow_pos k)
    calc 2 ^ k ≤ 2 ^ m.log2 := Nat.pow_le_pow_right (by decide) hlog.2
      _ ≤ m := Nat.log2_self_le (Nat.ne_of_gt hm)
  · -- what is left of them is below the bound
    apply Nat.div_lt_of_lt_mul
    calc m < 2 ^ (m.log2 + 1) := Nat.lt_log2_self
      _ ≤ 2 ^ (k + 53) := Nat.pow_le_pow_right (by decide) (by omega)
      _ = 2 ^ k * 2 ^ 53 := Nat.pow_add 2 k 53

theorem roundWithAccuracy_eq {m : Nat} {e : Int} (h : InRange m e) (s : Sign) (a : Accuracy) :
    ∃ m' e' hm, roundWithAccuracy .binary64 s m e a = .finite s m' e' hm ∧
      m' < 2 ^ 53 ∧ -1074 ≤ e' := by
  rw [roundWithAccuracy]
  -- the first step leaves a mantissa, rounding makes it no smaller, and the second step drops what
  -- is too much
  obtain ⟨hfirst, -⟩ := shiftToTargetExponent_inRange h a
  generalize shiftToTargetExponent .binary64 m e a = first at hfirst
  obtain ⟨em, e₁⟩ := first
  have hrounded : InRange em.roundedMantissa e₁ :=
    ⟨Nat.lt_of_lt_of_le hfirst.mantissa_pos (le_roundedMantissa em), hfirst.exponent_ge⟩
  obtain ⟨hsecond, hlt⟩ := shiftToTargetExponent_inRange hrounded .exact
  dsimp only
  rw [dif_neg (Nat.ne_of_gt hsecond.mantissa_pos)]
  exact ⟨_, _, _, rfl, hlt, hsecond.exponent_ge⟩

/-- A number of whole units is rounded to a float that is not zero, unless it is. -/
theorem round_eq {n : Nat} (h : 0 < n) (s : Sign) : ∃ m e hm,
    UnpackedFloat.round .binary64 s n 0 = .finite s m e hm ∧ m < 2 ^ 53 ∧ -1074 ≤ e := by
  rw [UnpackedFloat.round, decreaseExponent, totalExponent, targetExponent_eq]
  dsimp only
  refine roundWithAccuracy_eq ⟨?_, by omega⟩ s .exact
  rw [Nat.shiftLeft_eq]
  exact Nat.mul_pos h (Nat.two_pow_pos _)

/-! ### Packing -/

/-- A zero has neither an exponent nor a mantissa. -/
theorem eq_zero_of_unpack {b : BitVec Format.binary64.numBits} {s : Sign}
    (h : UnpackedFloat.unpack .binary64 b = .zero s) :
    unpackExponent b = 0#11 ∧ unpackMantissa b = 0#52 := by
  unfold UnpackedFloat.unpack at h
  -- the exponent tells zeros and subnormal numbers from all others
  by_cases hones : unpackExponent b = -1#11
  · -- infinity and what is no number have an exponent of ones
    have h := (if_pos hones).symm.trans h
    by_cases hmantissa : unpackMantissa b = 0#52
    · cases (if_pos hmantissa).symm.trans h
    · cases (if_neg hmantissa).symm.trans h
  · have h := (if_neg hones).symm.trans h
    by_cases hexponent : unpackExponent b = 0#11
    · have h := (if_pos hexponent).symm.trans h
      by_cases hmantissa : unpackMantissa b = 0#52
      · exact ⟨hexponent, hmantissa⟩
      · cases (dif_neg hmantissa).symm.trans h
    · cases (if_neg hexponent).symm.trans h

theorem pack_finite (s : Sign) (m : Nat) (e : Int) (hm : 0 < m) :
    UnpackedFloat.pack .binary64 (.finite s m e hm) =
      if 2 ^ 11 ≤ (e + 1023 + 52).toNat + 1 then packedInfinity .binary64 s
      else if m.log2 + 1 = 53 then
        packComponents .binary64 s (BitVec.ofNat 11 (e + 1023 + 52).toNat) (BitVec.ofNat 52 m)
      else packComponents .binary64 s 0#11 (BitVec.ofNat 52 m) := rfl

/-- With 53 bits the exponent is not zero, and with less the bits of the mantissa are not. -/
theorem unpack_pack_ne_zero {m : Nat} {e : Int} (h : m < 2 ^ 53) (he : -1074 ≤ e) (hm : 0 < m)
    (s s' : Sign) : (Float.Model.pack (.finite s m e hm)).unpack ≠ .zero s' := by
  intro hzero
  -- both parts of the bits are zero, which the three forms of packing contradict
  obtain ⟨hexponent, hmantissa⟩ := eq_zero_of_unpack hzero
  have hbits : (Float.Model.pack (.finite s m e hm)).toBits.toBitVec =
      UnpackedFloat.pack .binary64 (.finite s m e hm) := rfl
  rw [hbits, pack_finite] at hexponent hmantissa
  split_ifs at hexponent hmantissa with hlarge hnormal
  · -- an exponent that is too great makes the float infinite, and its bits are ones
    rw [packedInfinity, unpackExponent_packComponents] at hexponent
    exact absurd hexponent (by decide)
  · -- a normal number has an exponent that is not zero
    rw [unpackExponent_packComponents] at hexponent
    have hmod : (e + 1023 + 52).toNat % 2 ^ 11 = 0 := congrArg BitVec.toNat hexponent
    omega
  · -- a subnormal number keeps all bits of its mantissa
    rw [unpackMantissa_packComponents] at hmantissa
    have hmod : m % 2 ^ 52 = 0 := congrArg BitVec.toNat hmantissa
    have hlog : m.log2 < 53 := (Nat.log2_lt (Nat.ne_of_gt hm)).2 h
    have hlt : m < 2 ^ 52 := (Nat.log2_lt (Nat.ne_of_gt hm)).1 (by omega)
    omega

/-- What is rounded to a float that is not zero is packed as one. -/
theorem unpack_pack_round_ne_zero {n : Nat} (h : 0 < n) (s s' : Sign) :
    (Float.Model.pack (UnpackedFloat.round .binary64 s n 0)).unpack ≠ .zero s' := by
  obtain ⟨m, e, hm, hround, hlt, hge⟩ := round_eq h s
  rw [hround]
  exact unpack_pack_ne_zero hlt hge hm s s'

/-! ### Comparing with zero -/

theorem compare_zero_eq_iff {u : UnpackedFloat} {s : Sign} :
    u.compare (.zero s) = some .eq ↔ ∃ s', u = .zero s' := by
  constructor
  · -- only a zero compares as equal with a zero
    intro h
    cases u with
    | zero s' => exact ⟨s', rfl⟩
    | notANumber => cases h
    | infinity s' => cases s' <;> cases h
    | finite s' m e hm => cases s' <;> cases h
  · rintro ⟨s', rfl⟩
    rfl

theorem beq_zero_iff {x : Float} : x == 0.0 ↔ ∃ s, x.toModel.unpack = .zero s := by
  have hbeq : (x == 0.0) = (x.toModel.unpack.compare (.zero .positive) == some .eq) := rfl
  rw [hbeq, beq_iff_eq, compare_zero_eq_iff]

end Binary64

namespace Number

/-- The float that is nearest to a number. -/
def toFloat : Number → Float
  | integer n _ => .ofModel (.ofInt n)
  | float x => x

/-- **A number is zero if its float is.** -/
theorem isZero_iff {n : Number} : n.isZero = true ↔ (n.toFloat == 0.0) = true := by
  -- a float is its own, and an integer is rounded to one
  cases n with
  | float x => exact Iff.rfl
  | integer n fits =>
    have hunpack : (integer n fits).toFloat.toModel.unpack =
        (Float.Model.pack (UnpackedFloat.normalize .binary64 n 0 .positive)).unpack := rfl
    rw [Binary64.beq_zero_iff, isZero, beq_iff_eq, hunpack]
    constructor
    · rintro rfl
      exact ⟨.positive, rfl⟩
    · rintro ⟨s, hzero⟩
      -- an integer is rounded without its sign, unless it is zero
      rw [UnpackedFloat.normalize] at hzero
      split at hzero
      · next hneg =>
        have hpos : 0 < (-n).toNat := by
          have := Int.compare_eq_lt.1 hneg
          omega
        exact absurd hzero (Binary64.unpack_pack_round_ne_zero hpos .negative s)
      · next heq => exact Int.compare_eq_eq.1 heq
      · next hgt =>
        have hpos : 0 < n.toNat := by
          have := Int.compare_eq_gt.1 hgt
          omega
        exact absurd hzero (Binary64.unpack_pack_round_ne_zero hpos .positive s)

end Number

end RevisionRouting.Json
