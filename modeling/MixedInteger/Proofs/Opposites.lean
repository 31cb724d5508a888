import MixedInteger.Proofs.Zeros

/-!
# Opposite values

Rounding treats opposite numbers alike, so that the opposite of a sum is the sum of the
opposites, up to the sign of a zero.  Negation itself is exact, and so are the product with
one and the doubling of a value.
-/

namespace MixedInteger

open Float.Model (Format UnpackedFloat)
open Float.Model.UnpackedFloat

namespace Rounding

/-! ## Unpacked values -/

theorem sign_neg_neg (s : Sign) : - -s = s := by
  cases s <;> rfl

theorem sign_apply_neg (s : Sign) (n : ℤ) : (-s).apply n = -s.apply n := by
  cases s with
  | negative => exact (neg_neg n).symm
  | positive => rfl

theorem sign_mul_neg (s t : Sign) : s * -t = -(s * t) := by
  cases s <;> cases t <;> rfl

theorem unpacked_neg_neg (a : UnpackedFloat) : a.neg.neg = a := by
  cases a with
  | notANumber => rfl
  | infinity s => exact congrArg UnpackedFloat.infinity (sign_neg_neg s)
  | zero s => exact congrArg UnpackedFloat.zero (sign_neg_neg s)
  | finite s m e positive =>
      exact congrArg (fun s => UnpackedFloat.finite s m e positive) (sign_neg_neg s)

/-- The sign takes no part in the rounding of a mantissa. -/
theorem roundWithAccuracy_neg (s : Sign) (m : ℕ) (e : ℤ) (a : Accuracy) :
    roundWithAccuracy .binary64 (-s) m e a = (roundWithAccuracy .binary64 s m e a).neg := by
  unfold roundWithAccuracy
  dsimp only
  generalize (shiftToTargetExponent .binary64
    (shiftToTargetExponent .binary64 m e a).1.roundedMantissa
    (shiftToTargetExponent .binary64 m e a).2 .exact) = shifted
  by_cases nothing : shifted.1.mantissa = 0
  · rw [dif_pos nothing, dif_pos nothing]
    rfl
  · rw [dif_neg nothing, dif_neg nothing]
    rfl

/-- Opposite mantissas are rounded to opposite values; only zero has one sign for both. -/
theorem normalize_neg (m e : ℤ) :
    ZeroAlike (normalize .binary64 (-m) e .positive) (normalize .binary64 m e .positive).neg := by
  unfold UnpackedFloat.normalize
  rcases lt_trichotomy m 0 with below | rfl | above
  · rw [compare_lt_iff_lt.mpr below, compare_gt_iff_gt.mpr (neg_pos.mpr below)]
    dsimp only
    rw [UnpackedFloat.round, UnpackedFloat.round, ← roundWithAccuracy_neg]
    exact .refl _
  · exact .zeros _ _
  · rw [compare_gt_iff_gt.mpr above, compare_lt_iff_lt.mpr (neg_neg_of_pos above), neg_neg]
    dsimp only
    rw [UnpackedFloat.round, UnpackedFloat.round, ← roundWithAccuracy_neg]
    exact .refl _

/-- The sum of opposite values is the opposite of the sum. -/
theorem ZeroAlike.add_neg (a b : UnpackedFloat) :
    ZeroAlike (.add .binary64 a.neg b.neg) (UnpackedFloat.add .binary64 a b).neg := by
  cases a with
  | notANumber => cases b <;> exact .refl _
  | infinity s =>
      cases b with
      | infinity t => cases s <;> cases t <;> exact .refl _
      | _ => exact .refl _
  | zero s =>
      cases b with
      | zero t => cases s <;> cases t <;> constructor
      | _ => exact .refl _
  | finite s m e positive =>
      cases b with
      | finite t n f positive' =>
          dsimp only [UnpackedFloat.add, neg]
          rw [sign_apply_neg, sign_apply_neg, ← neg_add]
          exact normalize_neg _ _
      | _ => exact .refl _

theorem unpacked_sub_eq (a b : UnpackedFloat) :
    sub .binary64 a b = add .binary64 a b.neg := by
  cases a with
  | notANumber => cases b <;> rfl
  | infinity s => cases b <;> rfl
  | zero s => cases b <;> rfl
  | finite s m e positive =>
      cases b with
      | finite t n f positive' =>
          dsimp only [sub, add, neg]
          rw [sign_apply_neg, sub_eq_add_neg]
      | _ => rfl

theorem unpacked_mul_neg (a b : UnpackedFloat) :
    mul .binary64 a b.neg = (mul .binary64 a b).neg := by
  cases a with
  | notANumber => cases b <;> rfl
  | infinity s =>
      cases b with
      | infinity t => exact congrArg UnpackedFloat.infinity (sign_mul_neg s t)
      | finite t => exact congrArg UnpackedFloat.infinity (sign_mul_neg s t)
      | _ => rfl
  | zero s =>
      cases b with
      | zero t => exact congrArg UnpackedFloat.zero (sign_mul_neg s t)
      | finite t => exact congrArg UnpackedFloat.zero (sign_mul_neg s t)
      | _ => rfl
  | finite s m e positive =>
      cases b with
      | notANumber => rfl
      | infinity t => exact congrArg UnpackedFloat.infinity (sign_mul_neg s t)
      | zero t => exact congrArg UnpackedFloat.zero (sign_mul_neg s t)
      | finite t n f positive' =>
          change roundWithAccuracy .binary64 (s * -t) (m * n) (e + f) .exact = _
          rw [sign_mul_neg, roundWithAccuracy_neg]
          rfl

theorem unpacked_mul_one {a : UnpackedFloat} (canonical : IsCanonical a) :
    mul .binary64 a unpackedMinusOne.neg = a := by
  rw [unpacked_mul_neg, unpacked_mul_minusOne canonical, unpacked_neg_neg]

theorem leading_pos : 0 < 2 ^ 52 := by decide

/-- The value two. -/
def unpackedTwo : UnpackedFloat := .finite .positive (2 ^ 52) (-51) leading_pos

/-- A mantissa that needs no shift to the left is rounded as it is. -/
theorem Describes.normalize_eq {m : ℕ} {e : ℤ} {q : ℚ} (described : Describes m e .exact q)
    (s : Sign) (positive : 0 < m) :
    normalize .binary64 (s.apply m) e .positive = roundWithAccuracy .binary64 s m e .exact := by
  have still : (e - Format.binary64.targetExponent (Float.Model.totalExponent m e)).toNat = 0 :=
    Int.toNat_of_nonpos (sub_nonpos.mpr described.exponent_le)
  have rounded :
      UnpackedFloat.round .binary64 s m e = roundWithAccuracy .binary64 s m e .exact := by
    simp only [UnpackedFloat.round, decreaseExponent, still, Nat.shiftLeft_zero, Nat.cast_zero,
      sub_zero]
  rw [← rounded]
  unfold UnpackedFloat.normalize
  cases s with
  | negative =>
      have below : -(m : ℤ) < 0 := by omega
      simp only [Sign.apply, compare_lt_iff_lt.mpr below, neg_neg, Int.toNat_natCast]
  | positive =>
      have above : (m : ℤ) > 0 := by omega
      simp only [Sign.apply, compare_gt_iff_gt.mpr above, Int.toNat_natCast]

/-- The sum of a canonical value with itself and its product with two describe one number. -/
theorem unpacked_add_self {a : UnpackedFloat} (canonical : IsCanonical a) :
    add .binary64 a a = mul .binary64 a unpackedTwo := by
  cases a with
  | notANumber => rfl
  | infinity s => cases s <;> rfl
  | zero s => cases s <;> rfl
  | finite s m e positive =>
      have sign : s * .positive = s := by cases s <;> rfl
      have twice : s.apply m + s.apply m = s.apply (m + m : ℕ) := by
        cases s with
        | negative => exact (neg_add _ _).symm.trans (congrArg _ (Nat.cast_add m m).symm)
        | positive => exact (Nat.cast_add m m).symm
      have same : ((m + m : ℕ) * 2 ^ e : ℚ) = (m * 2 ^ 52 : ℕ) * 2 ^ (e + -51) := by
        rw [zpow_add₀ two_ne_zero]
        push_cast
        norm_num
        ring
      have sum : Describes (m + m) e .exact ((m + m : ℕ) * 2 ^ e) :=
        describes_exact _ _ ((Canonical.enough canonical).imp_left fun full => by omega)
      have product : Describes (m * 2 ^ 52) (e + -51) .exact ((m + m : ℕ) * 2 ^ e) := by
        rw [same]
        exact describes_exact _ _ (.inl (Nat.le_mul_of_pos_left _ positive))
      dsimp only [add, mul, unpackedTwo, decreaseExponent]
      rw [min_self, sub_self, Int.toNat_zero, Nat.shiftLeft_zero, sign, twice,
        sum.normalize_eq s (by omega), sum.round_eq product]

/-! ## Laws -/

theorem float_neg_neg (x : Float) : - -x = x := by
  rw [eq_of_unpack (x := x) rfl, float_neg_pack, float_neg_pack, unpacked_neg_neg]

theorem float_sub_eq_add_neg (x y : Float) : x - y = x + -y := by
  change Float.ofModel (.pack (sub .binary64 x.toModel.unpack y.toModel.unpack)) =
    Float.ofModel (.pack (add .binary64 x.toModel.unpack (-y).toModel.unpack))
  rw [unpack_neg, unpacked_sub_eq]

theorem float_mul_one (x : Float) : x * 1 = x :=
  (congrArg (fun u => Float.ofModel (.pack u)) (unpacked_mul_one (canonical_unpack _))).trans
    (congrArg Float.ofModel (pack_unpack x.toModel))

/-- Doubling is exact, unless it overflows. -/
theorem float_add_self (x : Float) : x + x = x * 2 :=
  congrArg (fun u => Float.ofModel (.pack u)) (unpacked_add_self (canonical_unpack _))

end Rounding

namespace SameNumber

open Rounding

theorem neg_add (x y : Float) : SameNumber (-x + -y) (-(x + y)) := by
  have alike := of_zeroAlike (ZeroAlike.add_neg x.toModel.unpack y.toModel.unpack)
  rw [← unpack_neg, ← unpack_neg, ← float_neg_pack] at alike
  exact alike

/-- Differences taken the other way round are opposite. -/
theorem neg_sub (x y : Float) : SameNumber (-(x + -y)) (y + -x) := by
  have opposite := (neg_add x (-y)).symm
  rwa [float_neg_neg, float_add_comm (-x)] at opposite

theorem add_zero (x : Float) : SameNumber (x + 0) x :=
  float_add_comm 0 x ▸ zero_add x

end SameNumber

end MixedInteger
