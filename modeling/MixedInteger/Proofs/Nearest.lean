import Mathlib.Tactic.FieldSimp
import MixedInteger.Decimal.Shortest
import MixedInteger.Proofs.Packing

/-!
# Values of decimals

The binary64 value of a decimal is computed in several ways, by the size of its digits and
of its power of ten, and each of them rounds the number that the decimal stands for.  So
the value depends on this number only, and a number that is a binary64 value is its own.
-/

namespace MixedInteger.Rounding

open Float.Model (Format totalExponent)
open Float.Model.UnpackedFloat

variable {m n : ℕ} {e f : ℤ} {q : ℚ}

/-- The positive value that a description is rounded to. -/
def rounded (m : ℕ) (e : ℤ) (a : Accuracy) : Float :=
  Float.ofModel (.pack (roundWithAccuracy .binary64 .positive m e a))

/-- The positive value is what a number is rounded to. -/
def RoundsTo (q : ℚ) (x : Float) : Prop :=
  ∃ m e a, Describes m e a q ∧ x = rounded m e a

theorem RoundsTo.unique {x y : Float} (one : RoundsTo q x) (other : RoundsTo q y) : x = y := by
  obtain ⟨m, e, a, described, rfl⟩ := one
  obtain ⟨n, f, b, describedToo, rfl⟩ := other
  rw [rounded, described.round_eq describedToo, rounded]

/-! ## Products and quotients -/

theorem roundsTo_mul {x y : Float} {positive : 0 < m} {positiveToo : 0 < n}
    (left : x.toModel.unpack = .finite .positive m e positive)
    (right : y.toModel.unpack = .finite .positive n f positiveToo) (full : 2 ^ 52 ≤ m * n) :
    RoundsTo (m * 2 ^ e * (n * 2 ^ f)) (x * y) := by
  refine ⟨m * n, e + f, .exact, ?_, ?_⟩
  · have exact := describes_exact (m * n) (e + f) (.inl full)
    have same : ((m * n : ℕ) : ℚ) * 2 ^ (e + f) = m * 2 ^ e * (n * 2 ^ f) := by
      rw [zpow_add₀ two_ne_zero]
      push_cast
      ring
    rwa [same] at exact
  · change Float.ofModel (.pack (mul .binary64 x.toModel.unpack y.toModel.unpack)) = _
    rw [left, right]
    rfl

/-- A quotient is computed with enough bits to be rounded. -/
theorem describes_divCore (positive : 0 < m) (positiveToo : 0 < n) (e f : ℤ) :
    Describes (divCore .binary64 m e n f).1 (divCore .binary64 m e n f).2.1
      (divCore .binary64 m e n f).2.2 (m * 2 ^ e / (n * 2 ^ f)) := by
  have width : (Format.binary64.mantissaBits : ℤ) = 53 := rfl
  have least : Format.binary64.minExponent = -1074 := rfl
  unfold divCore
  simp only [Format.targetExponent, totalExponent, width, least]
  generalize low : min (e - f) _ = t
  have below : t ≤ e - f := low ▸ min_le_left _ _
  have wide : t ≤ -1074 ∨ t + 53 ≤ m.log2 + e - (n.log2 + f) := by
    rw [← low]
    omega
  generalize amount : (e - f - t).toNat = shift
  have shifted : ((m <<< shift : ℕ) : ℚ) = m * 2 ^ (e - f - t) := by
    rw [Nat.shiftLeft_eq, ← amount]
    push_cast
    rw [← zpow_natCast, Int.toNat_of_nonneg (by omega)]
  have quotient : (m * 2 ^ e / (n * 2 ^ f) / 2 ^ t : ℚ) = (m <<< shift : ℕ) / n := by
    rw [shifted, zpow_sub₀ two_ne_zero, zpow_sub₀ two_ne_zero]
    field_simp
  refine ⟨?_, ?_⟩
  · rw [quotient]
    exact locates_quotient (m <<< shift) positiveToo
  · refine wide.symm.imp_left fun wide => ?_
    rw [Nat.le_div_iff_mul_le positiveToo, Nat.shiftLeft_eq]
    calc 2 ^ 52 * n ≤ 2 ^ 52 * 2 ^ (n.log2 + 1) := by
          gcongr
          exact Nat.lt_log2_self.le
      _ = 2 ^ (n.log2 + 53) := by ring
      _ ≤ 2 ^ (m.log2 + shift) := Nat.pow_le_pow_right two_pos (by omega)
      _ = 2 ^ m.log2 * 2 ^ shift := pow_add _ _ _
      _ ≤ m * 2 ^ shift := by
          gcongr
          exact Nat.log2_self_le positive.ne'

theorem roundsTo_div {x y : Float} {positive : 0 < m} {positiveToo : 0 < n}
    (left : x.toModel.unpack = .finite .positive m e positive)
    (right : y.toModel.unpack = .finite .positive n f positiveToo) :
    RoundsTo (m * 2 ^ e / (n * 2 ^ f)) (x / y) := by
  refine ⟨_, _, _, describes_divCore positive positiveToo e f, ?_⟩
  change Float.ofModel (.pack (div .binary64 x.toModel.unpack y.toModel.unpack)) = _
  rw [left, right]
  rfl

/-! ## Whole numbers and powers of ten -/

/-- A number of at most 53 bits, shifted to have just as many, is canonical. -/
theorem canonical_shiftLeft (positive : 0 < n) (short : n < 2 ^ 53) :
    Canonical (n <<< (52 - n.log2)) (n.log2 - 52) ∧ 2 ^ 52 ≤ n <<< (52 - n.log2) := by
  have log : n.log2 < 53 := (Nat.log2_lt positive.ne').mpr short
  have full : 2 ^ 52 ≤ n <<< (52 - n.log2) := by
    calc 2 ^ 52 = 2 ^ n.log2 * 2 ^ (52 - n.log2) := by
          rw [← pow_add]
          congr 1
          omega
      _ ≤ n * 2 ^ (52 - n.log2) := by
          gcongr
          exact Nat.log2_self_le positive.ne'
      _ = n <<< (52 - n.log2) := (Nat.shiftLeft_eq _ _).symm
  have lt : n <<< (52 - n.log2) < 2 ^ 53 := by
    calc n <<< (52 - n.log2) = n * 2 ^ (52 - n.log2) := Nat.shiftLeft_eq _ _
      _ < 2 ^ (n.log2 + 1) * 2 ^ (52 - n.log2) := by
          gcongr
          exact Nat.lt_log2_self
      _ = 2 ^ 53 := by
          rw [← pow_add]
          congr 1
          omega
  exact ⟨⟨by omega, lt, by omega, .inl full, by omega⟩, full⟩

theorem shiftLeft_value (short : n < 2 ^ 53) :
    ((n <<< (52 - n.log2) : ℕ) : ℚ) * 2 ^ ((n.log2 : ℤ) - 52) = n := by
  have log : n.log2 ≤ 52 := by
    rcases Nat.eq_zero_or_pos n with rfl | positive
    · decide
    · exact Nat.lt_succ_iff.mp ((Nat.log2_lt positive.ne').mpr short)
  have whole : (2 : ℚ) ^ (52 - n.log2) * 2 ^ ((n.log2 : ℤ) - 52) = 1 := by
    rw [← zpow_natCast, ← zpow_add₀ two_ne_zero, ← zpow_zero (2 : ℚ)]
    congr 1
    omega
  rw [Nat.shiftLeft_eq]
  push_cast
  rw [mul_assoc, whole, mul_one]

/-- A whole number of at most 53 bits is its own binary64 value. -/
theorem unpack_toFloat (positive : 0 < n) (short : n < 2 ^ 53) :
    n.toUInt64.toFloat.toModel.unpack =
      .finite .positive (n <<< (52 - n.log2)) (n.log2 - 52)
        (canonical_shiftLeft positive short).1.positive := by
  obtain ⟨canonical, -⟩ := canonical_shiftLeft positive short
  have log : n.log2 < 53 := (Nat.log2_lt positive.ne').mpr short
  have target : Format.binary64.targetExponent (totalExponent n 0) = n.log2 - 52 := by
    rw [targetExponent_eq]
    omega
  have amount : (0 - ((n.log2 : ℤ) - 52)).toNat = 52 - n.log2 := by omega
  have exponent : (0 : ℤ) - (52 - n.log2 : ℕ) = n.log2 - 52 := by omega
  have rounded : Float.Model.UnpackedFloat.round .binary64 .positive n 0 =
      .finite .positive (n <<< (52 - n.log2)) (n.log2 - 52) canonical.positive := by
    unfold Float.Model.UnpackedFloat.round decreaseExponent
    dsimp only
    rw [target, amount, exponent]
    exact canonical.round_eq .positive
  have same : n.toUInt64.toNat = n := by
    rw [Nat.toUInt64, UInt64.toNat_ofNat']
    omega
  have converted : ofUInt64 .binary64 n.toUInt64 =
      .finite .positive (n <<< (52 - n.log2)) (n.log2 - 52) canonical.positive := by
    rw [ofUInt64, same, ofNat, ofInt, Float.Model.UnpackedFloat.normalize]
    have sign : compare (n : ℤ) 0 = .gt := compare_gt_iff_gt.mpr (by omega)
    rw [sign]
    exact rounded
  change (Float.Model.pack (ofUInt64 .binary64 n.toUInt64)).unpack = _
  rw [converted]
  exact unpack_pack canonical

/-- The value is a power of ten, with a mantissa of 53 bits. -/
def isPowerOfTen (k : ℕ) : Float.Model.UnpackedFloat → Bool
  | .finite .positive m e _ => 2 ^ 52 ≤ m && m * 2 ^ e.toNat == 10 ^ k * 2 ^ (-e).toNat
  | _ => false

theorem all_isPowerOfTen : ∀ k : Fin Float.exactlyRepresentablePowersOfTen.size,
    isPowerOfTen k Float.exactlyRepresentablePowersOfTen[k].toModel.unpack := by
  decide +kernel

/-- The small powers of ten are binary64 values. -/
theorem exists_unpack_powerOfTen {k : ℕ} (small : k < Float.exactlyRepresentablePowersOfTen.size) :
    ∃ m e, ∃ positive : 0 < m, Float.exactlyRepresentablePowersOfTen[k].toModel.unpack =
      .finite .positive m e positive ∧ 2 ^ 52 ≤ m ∧ (m * 2 ^ e : ℚ) = 10 ^ k := by
  have power := all_isPowerOfTen ⟨k, small⟩
  dsimp only at power
  generalize Float.exactlyRepresentablePowersOfTen[k].toModel.unpack = u at power
  cases u with
  | finite s m e positive =>
      cases s with
      | negative => cases power
      | positive =>
          change (2 ^ 52 ≤ m && m * 2 ^ e.toNat == 10 ^ k * 2 ^ (-e).toNat) = true at power
          rw [Bool.and_eq_true, decide_eq_true_eq, beq_iff_eq] at power
          obtain ⟨full, same⟩ := power
          refine ⟨m, e, positive, rfl, full, ?_⟩
          have same : (m : ℚ) * 2 ^ e.toNat = 10 ^ k * 2 ^ (-e).toNat := by exact_mod_cast same
          have split : (2 : ℚ) ^ e * 2 ^ (-e).toNat = 2 ^ e.toNat := by
            rw [← zpow_natCast, ← zpow_natCast, ← zpow_add₀ two_ne_zero]
            congr 1
            omega
          rw [← split, ← mul_assoc] at same
          exact mul_right_cancel₀ (by positivity) same
  | _ => cases power

/-! ## Scientific notation -/

theorem zpow_eq_of_nonneg {k : ℕ} (sign : 0 ≤ e) (same : e.natAbs = k) :
    (10 : ℚ) ^ e = 10 ^ k := by
  rw [← zpow_natCast, ← same, Int.natAbs_of_nonneg sign]

theorem zpow_eq_of_neg {k : ℕ} (sign : e < 0) (same : e.natAbs = k) :
    (10 : ℚ) ^ e = 1 / 10 ^ k := by
  rw [one_div, ← zpow_natCast, ← zpow_neg, ← same, Int.ofNat_natAbs_of_nonpos sign.le, neg_neg]

/-- Few digits and a small power of ten are multiplied or divided as binary64 values. -/
theorem roundsTo_fast (positive : 0 < n) (short : n < 2 ^ 53) {k : ℕ}
    (small : k < Float.exactlyRepresentablePowersOfTen.size) :
    RoundsTo (n * 10 ^ k) (n.toUInt64.toFloat * Float.exactlyRepresentablePowersOfTen[k]) ∧
      RoundsTo (n * (1 / 10 ^ k))
        (n.toUInt64.toFloat / Float.exactlyRepresentablePowersOfTen[k]) := by
  obtain ⟨canonical, full⟩ := canonical_shiftLeft positive short
  obtain ⟨m, e, positiveToo, power, fullToo, value⟩ := exists_unpack_powerOfTen small
  have digits := unpack_toFloat positive short
  constructor
  · have product := roundsTo_mul digits power (full.trans (Nat.le_mul_of_pos_right _ positiveToo))
    rwa [shiftLeft_value short, value] at product
  · have quotient := roundsTo_div digits power
    rwa [shiftLeft_value short, value, div_eq_mul_one_div] at quotient

/-- Other digits and powers of ten are multiplied or divided as numbers. -/
theorem roundsTo_slow (positive : 0 < n) (low : -2048 - n.log2 ≤ e) (high : e ≤ 2048) :
    RoundsTo (n * 10 ^ e) (Float.ofModel (Float.Model.ofScientific n e)) := by
  unfold Float.Model.ofScientific ofScientific
  rw [dif_neg positive.ne', if_neg (by norm_num; omega), if_neg (by norm_num; omega)]
  by_cases sign : 0 ≤ e
  case pos =>
    rw [if_pos sign]
    have full : 2 ^ 52 ≤ (n <<< 53) * 10 ^ e.toNat := by
      rw [Nat.shiftLeft_eq]
      have := Nat.one_le_pow e.toNat 10 (by decide)
      calc 2 ^ 52 ≤ 1 * 2 ^ 53 * 1 := by decide
        _ ≤ n * 2 ^ 53 * 10 ^ e.toNat := by gcongr; exact positive
    have exact := describes_exact ((n <<< 53) * 10 ^ e.toNat) (-53) (.inl full)
    have value : (((n <<< 53) * 10 ^ e.toNat : ℕ) : ℚ) * 2 ^ (-53 : ℤ) = n * 10 ^ e := by
      rw [Nat.shiftLeft_eq, zpow_eq_of_nonneg sign (show e.natAbs = e.toNat by omega)]
      push_cast
      norm_num
      ring
    rw [value] at exact
    exact ⟨_, _, _, exact, rfl⟩
  case neg =>
    rw [if_neg sign]
    have described := describes_divCore positive (show 0 < 10 ^ (-e).toNat by positivity) 0 0
    have value : ((n : ℚ) * 2 ^ (0 : ℤ) / ((10 ^ (-e).toNat : ℕ) * 2 ^ (0 : ℤ))) = n * 10 ^ e := by
      rw [zpow_eq_of_neg (not_le.mp sign) (show e.natAbs = (-e).toNat by omega)]
      push_cast
      rw [mul_one, mul_one, div_eq_mul_one_div]
    rw [value] at described
    exact ⟨_, _, _, described, rfl⟩

/-- Digits and a power of ten that are in range are rounded to the nearest value. -/
theorem roundsTo_ofScientific (positive : 0 < n) (low : -2048 - n.log2 ≤ e) (high : e ≤ 2048) :
    RoundsTo (n * 10 ^ e) (Float.ofScientific n (decide (e < 0)) e.natAbs) := by
  unfold Float.ofScientific
  by_cases fast : n < 2 ^ 53 ∧ e.natAbs ≤ 22
  case pos =>
    rw [dif_pos fast]
    obtain ⟨short, small⟩ := fast
    have small : e.natAbs < Float.exactlyRepresentablePowersOfTen.size := Nat.lt_succ_of_le small
    obtain ⟨product, quotient⟩ := roundsTo_fast positive short small
    by_cases sign : e < 0
    · rw [zpow_eq_of_neg sign rfl]
      dsimp only
      rw [if_pos (decide_eq_true sign)]
      exact quotient
    · rw [zpow_eq_of_nonneg (not_lt.mp sign) rfl]
      dsimp only
      rw [if_neg fun below => sign (of_decide_eq_true below)]
      exact product
  case neg =>
    rw [dif_neg fast]
    have same : (if decide (e < 0) then Int.negOfNat e.natAbs else Int.ofNat e.natAbs) = e := by
      by_cases sign : e < 0
      · simp only [sign, decide_true, if_true, Int.negOfNat_eq, Int.ofNat_eq_natCast]
        omega
      · simp only [sign, decide_false, Bool.false_eq_true, if_false, Int.ofNat_eq_natCast]
        omega
    dsimp only
    rw [same]
    exact roundsTo_slow positive low high

theorem Canonical.le_value (canonical : Canonical m e) : (10 : ℚ) ^ (-324 : ℤ) ≤ m * 2 ^ e := by
  have powers : (2 : ℕ) ^ 1074 ≤ 10 ^ 324 := by decide +kernel
  have powers : ((10 : ℚ) ^ 324)⁻¹ ≤ (2 ^ 1074)⁻¹ :=
    inv_anti₀ (pow_pos two_pos _) (by exact_mod_cast powers)
  calc (10 : ℚ) ^ (-324 : ℤ) ≤ 1 * 2 ^ (-1074 : ℤ) := by
        rw [one_mul]
        exact powers
    _ ≤ m * 2 ^ e := by
        gcongr
        · exact_mod_cast canonical.positive
        · exact one_le_two
        · exact canonical.least

theorem Canonical.value_lt (canonical : Canonical m e) : (m * 2 ^ e : ℚ) < 10 ^ (309 : ℤ) := by
  have powers : (2 : ℕ) ^ 53 * 2 ^ 971 ≤ 10 ^ 309 := by decide +kernel
  calc (m * 2 ^ e : ℚ) < 2 ^ 53 * 2 ^ e := by
        gcongr
        exact_mod_cast canonical.lt
    _ ≤ 2 ^ 53 * 2 ^ (971 : ℤ) := by
        gcongr
        · exact one_le_two
        · exact canonical.bounded
    _ ≤ 10 ^ (309 : ℤ) := by exact_mod_cast powers

/-- A canonical value is what it is rounded to. -/
theorem roundsTo_canonical (canonical : Canonical m e) :
    RoundsTo (m * 2 ^ e) (Float.ofModel (.pack (.finite .positive m e canonical.positive))) := by
  refine ⟨m, e, .exact, describes_exact m e canonical.enough, ?_⟩
  rw [rounded, canonical.round_eq]

end MixedInteger.Rounding

namespace MixedInteger.Decimal

open Rounding

variable {n k : ℕ} {e f : ℤ}

/-! ## Ranges of decimals -/

theorem width_pos (n : ℕ) : 0 < width n :=
  Nat.length_toDigits_pos

theorem lt_pow_width (n : ℕ) : n < 10 ^ width n :=
  (Nat.length_toDigits_le_iff (by decide) (width_pos n)).mp (le_refl _)

theorem pow_width_le (positive : 0 < n) : 10 ^ (width n - 1) ≤ n := by
  rcases Nat.eq_zero_or_pos (width n - 1) with one | more
  · rw [one]
    exact positive
  · by_contra below
    have short : width n ≤ width n - 1 :=
      (Nat.length_toDigits_le_iff (by decide) more).mpr (not_le.mp below)
    omega

/-- A number has no more decimal than binary digits. -/
theorem width_le_log2 (n : ℕ) : width n ≤ n.log2 + 1 := by
  refine (Nat.length_toDigits_le_iff (by decide) (Nat.succ_pos _)).mpr ?_
  calc n < 2 ^ (n.log2 + 1) := Nat.lt_log2_self
    _ ≤ 10 ^ (n.log2 + 1) := Nat.pow_le_pow_left (by decide) _

theorem scientific_lt (n : ℕ) (e : ℤ) : (n * 10 ^ e : ℚ) < 10 ^ ((width n : ℤ) + e) := by
  rw [zpow_add₀ (by norm_num)]
  gcongr
  exact_mod_cast lt_pow_width n

theorem le_scientific (positive : 0 < n) (e : ℤ) :
    (10 : ℚ) ^ ((width n : ℤ) - 1 + e) ≤ n * 10 ^ e := by
  have whole : (10 : ℚ) ^ ((width n : ℤ) - 1) = ((10 ^ (width n - 1) : ℕ) : ℚ) := by
    rw [show (width n : ℤ) - 1 = (width n - 1 : ℕ) by have := width_pos n; omega]
    norm_cast
  rw [zpow_add₀ (by norm_num), whole]
  gcongr
  exact pow_width_le positive

/-- The place of the first digit is determined by the number. -/
theorem width_add_le (positive : 0 < n) {top : ℤ} (below : (n * 10 ^ e : ℚ) < 10 ^ top) :
    (width n : ℤ) + e ≤ top := by
  have power := (le_scientific positive e).trans_lt below
  have := (zpow_lt_zpow_iff_right₀ (by norm_num)).mp power
  omega

theorem lt_width_add {bottom : ℤ} (above : (10 : ℚ) ^ bottom ≤ n * 10 ^ e) :
    bottom < (width n : ℤ) + e :=
  (zpow_lt_zpow_iff_right₀ (by norm_num)).mp (above.trans_lt (scientific_lt n e))

theorem width_add_eq (positive : 0 < n) (positiveToo : 0 < k)
    (same : (n * 10 ^ e : ℚ) = k * 10 ^ f) : (width n : ℤ) + e = width k + f := by
  refine le_antisymm ?_ ?_
  · exact width_add_le positive (same ▸ scientific_lt k f)
  · exact width_add_le positiveToo (same ▸ scientific_lt n e)

/-! ## The value of a decimal -/

/-- Within its range, the magnitude of a decimal is the nearest value. -/
theorem roundsTo_magnitude (positive : 0 < n) (low : -323 ≤ width n + e)
    (high : width n + e ≤ 309) : RoundsTo (n * 10 ^ e) (magnitude n e) := by
  have := width_pos n
  have := width_le_log2 n
  unfold magnitude
  rw [if_neg positive.ne', if_neg (by omega), if_neg (by omega)]
  exact roundsTo_ofScientific positive (by omega) (by omega)

/-- The magnitude of a decimal depends on the number that it stands for only. -/
theorem magnitude_congr (same : (n * 10 ^ e : ℚ) = k * 10 ^ f) : magnitude n e = magnitude k f := by
  have power (e : ℤ) : (10 : ℚ) ^ e ≠ 0 := by positivity
  rcases Nat.eq_zero_or_pos n with rfl | positive
  · rw [Nat.cast_zero, zero_mul, eq_comm, mul_eq_zero_iff_right (power f)] at same
    obtain rfl : k = 0 := by exact_mod_cast same
    rfl
  · have positiveToo : 0 < k := by
      rcases Nat.eq_zero_or_pos k with rfl | positiveToo
      · rw [Nat.cast_zero, zero_mul, mul_eq_zero_iff_right (power e)] at same
        exact absurd (by exact_mod_cast same) positive.ne'
      · exact positiveToo
    have place := width_add_eq positive positiveToo same
    by_cases range : -323 ≤ width n + e ∧ width n + e ≤ 309
    · have one := roundsTo_magnitude positive range.1 range.2
      have other := roundsTo_magnitude positiveToo (place ▸ range.1) (place ▸ range.2)
      rw [same] at one
      exact one.unique other
    · unfold magnitude
      rw [if_neg positive.ne', if_neg positiveToo.ne', ← place]
      by_cases high : 309 < (width n : ℤ) + e
      · rw [if_pos high, if_pos high]
      · have low : (width n : ℤ) + e < -323 := by omega
        rw [if_neg high, if_neg high, if_pos low, if_pos low]

/-- A decimal that stands for a binary64 value has this value. -/
theorem magnitude_canonical {m : ℕ} {b : ℤ} (canonical : Canonical m b)
    (same : (n * 10 ^ e : ℚ) = m * 2 ^ b) :
    magnitude n e = Float.ofModel (.pack (.finite .positive m b canonical.positive)) := by
  have positive : 0 < n := by
    rcases Nat.eq_zero_or_pos n with rfl | positive
    · rw [Nat.cast_zero, zero_mul, eq_comm, mul_eq_zero_iff_right (by positivity)] at same
      exact absurd (by exact_mod_cast same) canonical.positive.ne'
    · exact positive
  have above : (10 : ℚ) ^ (-324 : ℤ) ≤ n * 10 ^ e := same ▸ canonical.le_value
  have below : (n * 10 ^ e : ℚ) < 10 ^ (309 : ℤ) := same ▸ canonical.value_lt
  have nearest := roundsTo_magnitude positive (lt_width_add above) (width_add_le positive below)
  rw [same] at nearest
  exact nearest.unique (roundsTo_canonical canonical)

end MixedInteger.Decimal
