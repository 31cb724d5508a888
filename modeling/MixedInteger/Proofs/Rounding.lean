import Mathlib.Algebra.Order.Field.Power
import Mathlib.Data.Rat.Cast.Order
import Mathlib.Tactic.Linarith
import Mathlib.Tactic.NormNum
import Mathlib.Tactic.Ring

/-!
# Rounding of binary64 values

Arithmetic on binary64 values computes a mantissa of enough bits, together with two further
bits that say how far above it the exact result lies, and rounds that.  The mantissa and
its two bits are determined by the exact result, and so is the exponent that they are
shifted to: what is rounded is a number, in whichever way it was computed.
-/

namespace MixedInteger.Rounding

open Float.Model (Format totalExponent)
open Float.Model.UnpackedFloat

/-! ## Mantissas with two further bits -/

/-- The mantissa is the whole part of a number, and its bits tell the rest from zero and a half. -/
structure Locates (em : ExtendedMantissa) (t : ℚ) : Prop where
  le : (em.mantissa : ℚ) ≤ t
  lt : t < em.mantissa + 1
  roundBit : em.roundBit = true ↔ (em.mantissa : ℚ) + 1 / 2 ≤ t
  stickyBit : em.stickyBit = true ↔ t ≠ em.mantissa ∧ t ≠ em.mantissa + 1 / 2

/-- The number determines the mantissa and its bits. -/
theorem Locates.unique {first second : ExtendedMantissa} {t : ℚ} (one : Locates first t)
    (other : Locates second t) : first = second := by
  obtain ⟨m, round, sticky⟩ := first
  obtain ⟨n, round', sticky'⟩ := second
  have below : (m : ℚ) < n + 1 := lt_of_le_of_lt one.le other.lt
  have above : (n : ℚ) < m + 1 := lt_of_le_of_lt other.le one.lt
  have same : m = n := by
    have below : m < n + 1 := by exact_mod_cast below
    have above : n < m + 1 := by exact_mod_cast above
    omega
  subst same
  have rounds : round = round' := Bool.eq_iff_iff.mpr (one.roundBit.trans other.roundBit.symm)
  have sticks : sticky = sticky' := Bool.eq_iff_iff.mpr (one.stickyBit.trans other.stickyBit.symm)
  rw [rounds, sticks]

/-- Shifting by one bit halves the number. -/
theorem Locates.shiftRightOne {em : ExtendedMantissa} {t : ℚ} (located : Locates em t) :
    Locates em.shiftRightOne (t / 2) := by
  obtain ⟨m, round, sticky⟩ := em
  obtain ⟨le, lt, roundBit, stickyBit⟩ := located
  dsimp only at le lt roundBit stickyBit
  have halves : (m : ℚ) = 2 * (m / 2 : ℕ) + (m % 2 : ℕ) := by
    exact_mod_cast (Nat.div_add_mod m 2).symm
  -- Some bit below the mantissa is set exactly if the number is not the mantissa.
  have rest : (round || sticky) = true ↔ t ≠ m := by
    rw [Bool.or_eq_true, roundBit, stickyBit]
    constructor
    · rintro (above | ⟨other, -⟩)
      · exact fun equal => by linarith
      · exact other
    · intro other
      by_cases half : t = m + 1 / 2
      · exact .inl half.ge
      · exact .inr ⟨other, half⟩
  unfold ExtendedMantissa.shiftRightOne
  rcases Nat.mod_two_eq_zero_or_one m with even | odd
  · rw [even, Nat.cast_zero, add_zero] at halves
    refine ⟨by dsimp only; linarith, by dsimp only; linarith, ?_, ?_⟩
    · dsimp only
      rw [even]
      exact ⟨fun impossible => by simp at impossible, fun above => by linarith⟩
    · dsimp only
      rw [rest]
      constructor
      · exact fun other => ⟨fun equal => other (by linarith), fun equal => by linarith⟩
      · exact fun other equal => other.1 (by linarith)
  · rw [odd, Nat.cast_one] at halves
    refine ⟨by dsimp only; linarith, by dsimp only; linarith, ?_, ?_⟩
    · dsimp only
      rw [odd]
      exact ⟨fun _ => by linarith, fun _ => rfl⟩
    · dsimp only
      rw [rest]
      constructor
      · exact fun other => ⟨fun equal => by linarith, fun equal => other (by linarith)⟩
      · exact fun other equal => other.2 (by linarith)

theorem Locates.shiftRight {em : ExtendedMantissa} {t : ℚ} (located : Locates em t) (n : ℕ) :
    Locates (em >>> n) (t / 2 ^ n) := by
  change Locates (n.repeat ExtendedMantissa.shiftRightOne em) _
  induction n with
  | zero =>
      rw [pow_zero, div_one]
      exact located
  | succ n ih =>
      rw [pow_succ, ← div_div]
      exact ih.shiftRightOne

/-- An exact mantissa is the number itself. -/
theorem locates_exact (m : ℕ) : Locates ⟨m, false, false⟩ m := by
  refine ⟨le_refl _, lt_add_one _, ?_, ?_⟩
  · exact ⟨nofun, fun above => by linarith⟩
  · exact ⟨nofun, fun other => absurd rfl other.1⟩

theorem locates_below_half {m : ℕ} {t : ℚ} (above : (m : ℚ) < t) (below : t < m + 1 / 2) :
    Locates ⟨m, false, true⟩ t := by
  refine ⟨above.le, by dsimp only; linarith, ?_, ?_⟩
  · exact ⟨nofun, fun half => absurd below (not_lt.mpr half)⟩
  · exact ⟨fun _ => ⟨above.ne', below.ne⟩, fun _ => rfl⟩

theorem locates_half (m : ℕ) : Locates ⟨m, true, false⟩ (m + 1 / 2) := by
  refine ⟨by dsimp only; linarith, by dsimp only; linarith, ?_, ?_⟩
  · exact ⟨fun _ => le_refl _, fun _ => rfl⟩
  · exact ⟨nofun, fun other => absurd rfl other.2⟩

theorem locates_above_half {m : ℕ} {t : ℚ} (above : (m : ℚ) + 1 / 2 < t) (below : t < m + 1) :
    Locates ⟨m, true, true⟩ t := by
  refine ⟨by dsimp only; linarith, below, ?_, ?_⟩
  · exact ⟨fun _ => above.le, fun _ => rfl⟩
  · exact ⟨fun _ => ⟨by dsimp only; linarith, above.ne'⟩, fun _ => rfl⟩

/-- The whole part of a quotient is a mantissa, and the remainder gives the further bits. -/
theorem locates_quotient (n : ℕ) {d : ℕ} (positive : 0 < d) :
    Locates (.ofMantissaAndAccuracy (n / d) (accuracyOfFraction (n % d) d)) (n / d : ℚ) := by
  have divisor : (0 : ℚ) < d := by exact_mod_cast positive
  have split : (n : ℚ) = d * (n / d : ℕ) + (n % d : ℕ) := by
    exact_mod_cast (Nat.div_add_mod n d).symm
  have quotient : (n / d : ℚ) = (n / d : ℕ) + ((n % d : ℕ) : ℚ) / d := by
    rw [eq_comm, add_div' _ _ _ divisor.ne', mul_comm, ← split]
  have small : n % d < d := Nat.mod_lt n positive
  rw [quotient]
  generalize n / d = m
  generalize n % d = r at small
  unfold accuracyOfFraction
  split
  case isTrue none =>
    rw [none, Nat.cast_zero, zero_div, add_zero]
    exact locates_exact m
  case isFalse some =>
    have fraction : (0 : ℚ) < r / d := div_pos (by exact_mod_cast Nat.pos_of_ne_zero some) divisor
    have fractionLt : (r : ℚ) / d < 1 := (div_lt_one₀ divisor).mpr (by exact_mod_cast small)
    rcases lt_trichotomy (2 * r) d with below | equal | above
    · have half : (r : ℚ) / d < 1 / 2 := by
        rw [div_lt_div_iff₀ divisor two_pos]
        exact_mod_cast (by omega : r * 2 < 1 * d)
      rw [compare_lt_iff_lt.mpr below]
      exact locates_below_half (by linarith) (by linarith)
    · have half : (r : ℚ) / d = 1 / 2 := by
        rw [div_eq_div_iff divisor.ne' two_ne_zero]
        exact_mod_cast (by omega : r * 2 = 1 * d)
      rw [compare_eq_iff_eq.mpr equal, half]
      exact locates_half m
    · have half : (1 : ℚ) / 2 < r / d := by
        rw [div_lt_div_iff₀ two_pos divisor]
        exact_mod_cast (by omega : 1 * d < r * 2)
      rw [compare_gt_iff_gt.mpr above]
      exact locates_above_half (by linarith) (by linarith)

/-! ## Numbers that are rounded -/

/-- A mantissa, its exponent and its accuracy describe a number, in enough bits to round it. -/
structure Describes (m : ℕ) (e : ℤ) (a : Accuracy) (q : ℚ) : Prop where
  located : Locates (.ofMantissaAndAccuracy m a) (q / 2 ^ e)
  enough : 2 ^ 52 ≤ m ∨ e ≤ -1074

variable {m n : ℕ} {e f : ℤ} {a b : Accuracy} {q : ℚ}

theorem targetExponent_eq (m : ℕ) (e : ℤ) :
    Format.binary64.targetExponent (totalExponent m e) = max (m.log2 + e - 52) (-1074) := by
  have width : (Format.binary64.mantissaBits : ℤ) = 53 := rfl
  have least : Format.binary64.minExponent = -1074 := rfl
  rw [Format.targetExponent, totalExponent, width, least]
  omega

theorem mantissa_ofMantissaAndAccuracy (m : ℕ) (a : Accuracy) :
    (ExtendedMantissa.ofMantissaAndAccuracy m a).mantissa = m := by
  rcases a with _ | _ | _ | _ <;> rfl

theorem Describes.le (described : Describes m e a q) : m * 2 ^ e ≤ q := by
  have le := described.located.le
  rw [mantissa_ofMantissaAndAccuracy] at le
  exact (le_div_iff₀ (by positivity)).mp le

theorem Describes.lt (described : Describes m e a q) : q < (m + 1) * 2 ^ e := by
  have lt := described.located.lt
  rw [mantissa_ofMantissaAndAccuracy] at lt
  exact (div_lt_iff₀ (by positivity)).mp lt

/-- The target exponent is the least one at which the mantissa has no more than 53 bits. -/
theorem Describes.target_isLeast (described : Describes m e a q) :
    IsLeast {t : ℤ | -1074 ≤ t ∧ q < 2 ^ (t + 53)}
      (Format.binary64.targetExponent (totalExponent m e)) := by
  rw [targetExponent_eq]
  constructor
  · refine ⟨le_max_right _ _, ?_⟩
    calc q < (m + 1) * 2 ^ e := described.lt
      _ ≤ 2 ^ (m.log2 + 1) * 2 ^ e := by
          gcongr
          exact_mod_cast Nat.lt_log2_self
      _ = 2 ^ ((m.log2 : ℤ) + 1 + e) := by
          rw [zpow_add₀ two_ne_zero]
          norm_cast
      _ ≤ 2 ^ (max (m.log2 + e - 52) (-1074) + 53 : ℤ) :=
          zpow_le_zpow_right₀ one_le_two (by omega)
  · rintro t ⟨least, small⟩
    refine max_le ?_ least
    rcases Nat.eq_zero_or_pos m with rfl | positive
    · have low : e ≤ -1074 := described.enough.resolve_left (by norm_num)
      change ((0 : ℕ) : ℤ) + e - 52 ≤ t
      omega
    · have power : (2 : ℚ) ^ ((m.log2 : ℤ) + e) < 2 ^ (t + 53) := by
        calc (2 : ℚ) ^ ((m.log2 : ℤ) + e) = 2 ^ m.log2 * 2 ^ e := by
              rw [zpow_add₀ two_ne_zero]
              norm_cast
          _ ≤ m * 2 ^ e := by
              gcongr
              exact_mod_cast Nat.log2_self_le positive.ne'
          _ ≤ q := described.le
          _ < 2 ^ (t + 53) := small
      have := (zpow_lt_zpow_iff_right₀ one_lt_two).mp power
      omega

/-- In enough bits, the mantissa is only ever shifted to the right. -/
theorem Describes.exponent_le (described : Describes m e a q) :
    e ≤ Format.binary64.targetExponent (totalExponent m e) := by
  rw [targetExponent_eq]
  rcases described.enough with high | low
  · have : 52 ≤ m.log2 := (Nat.le_log2 (by omega)).mpr high
    omega
  · omega

/-- The shifted mantissa and its exponent are determined by the number. -/
theorem Describes.shift_eq (one : Describes m e a q) (other : Describes n f b q) :
    shiftToTargetExponent .binary64 m e a = shiftToTargetExponent .binary64 n f b := by
  have target := one.target_isLeast.unique other.target_isLeast
  have located : ∀ {m : ℕ} {e : ℤ} {a : Accuracy} {t : ℤ}, Describes m e a q → e ≤ t →
      Locates (ExtendedMantissa.ofMantissaAndAccuracy m a >>> (t - e).toNat) (q / 2 ^ t) := by
    intro m e a t described below
    have shifted := described.located.shiftRight (t - e).toNat
    have power : (2 : ℚ) ^ e * 2 ^ (t - e).toNat = 2 ^ t := by
      rw [← zpow_natCast, ← zpow_add₀ two_ne_zero]
      congr 1
      omega
    rwa [div_div, power] at shifted
  have below := one.exponent_le
  have below' := other.exponent_le
  simp only [shiftToTargetExponent, shiftToExponent]
  rw [← target] at below' ⊢
  generalize Format.binary64.targetExponent (totalExponent m e) = t at below below'
  rw [(located one below).unique (located other below')]
  congr 1
  omega

/-- What is rounded is a number, in whichever way it is described. -/
theorem Describes.round_eq (one : Describes m e a q) (other : Describes n f b q) (sign : Sign) :
    roundWithAccuracy .binary64 sign m e a = roundWithAccuracy .binary64 sign n f b := by
  rw [roundWithAccuracy, one.shift_eq other, roundWithAccuracy]

theorem describes_exact (m : ℕ) (e : ℤ) (enough : 2 ^ 52 ≤ m ∨ e ≤ -1074) :
    Describes m e .exact (m * 2 ^ e) := by
  refine ⟨?_, enough⟩
  rw [mul_div_cancel_right₀ _ (by positivity)]
  exact locates_exact m

/-! ## Values that are already rounded -/

/-- The mantissa and the exponent of a finite value other than zero. -/
structure Canonical (m : ℕ) (e : ℤ) : Prop where
  positive : 0 < m
  lt : m < 2 ^ 53
  least : -1074 ≤ e
  full : 2 ^ 52 ≤ m ∨ e = -1074
  bounded : e ≤ 971

theorem Canonical.enough (canonical : Canonical m e) : 2 ^ 52 ≤ m ∨ e ≤ -1074 :=
  canonical.full.imp_right fun least => least.le

theorem Canonical.shift_eq (canonical : Canonical m e) :
    shiftToTargetExponent .binary64 m e .exact = (⟨m, false, false⟩, e) := by
  have short : m.log2 < 53 := (Nat.log2_lt canonical.positive.ne').mpr canonical.lt
  have target : max ((m.log2 : ℤ) + e - 52) (-1074) = e := by
    rcases canonical.full with full | least
    · have : 52 ≤ m.log2 := (Nat.le_log2 canonical.positive.ne').mpr full
      have := canonical.least
      omega
    · omega
  simp only [shiftToTargetExponent, shiftToExponent, targetExponent_eq]
  rw [target, Int.sub_self, Int.toNat_zero]
  simp only [Int.ofNat_zero, add_zero]
  rfl

/-- Rounding leaves a canonical value as it is. -/
theorem Canonical.round_eq (canonical : Canonical m e) (sign : Sign) :
    roundWithAccuracy .binary64 sign m e .exact = .finite sign m e canonical.positive := by
  have rounded : (⟨m, false, false⟩ : ExtendedMantissa).roundedMantissa = m := rfl
  rw [roundWithAccuracy, canonical.shift_eq]
  dsimp only
  rw [rounded, canonical.shift_eq]
  exact dif_neg canonical.positive.ne'

end MixedInteger.Rounding
