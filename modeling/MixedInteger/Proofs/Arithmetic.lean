import MixedInteger.Proofs.Packing

/-!
# Laws of binary64 arithmetic

Sums and products of binary64 values do not depend on the order of their operands, and the
product with minus one is the negated value.  The laws hold for all values, infinite ones
and zeros with either sign included, and for the one value that is no number.
-/

namespace MixedInteger.Rounding

open Float.Model (Format UnpackedFloat)
open Float.Model.UnpackedFloat

theorem unpacked_add_comm (a b : UnpackedFloat) : add .binary64 a b = add .binary64 b a := by
  cases a with
  | notANumber => cases b <;> rfl
  | infinity s =>
      cases b with
      | infinity t => cases s <;> cases t <;> rfl
      | _ => rfl
  | zero s =>
      cases b with
      | zero t => cases s <;> cases t <;> rfl
      | _ => rfl
  | finite s m e positive =>
      cases b with
      | finite t n f positive' =>
          dsimp only [add]
          rw [min_comm f e, add_comm (t.apply _)]
      | _ => rfl

theorem sign_mul_comm (s t : Sign) : s * t = t * s := by
  cases s <;> cases t <;> rfl

theorem unpacked_mul_comm (a b : UnpackedFloat) : mul .binary64 a b = mul .binary64 b a := by
  cases a with
  | notANumber => cases b <;> rfl
  | infinity s =>
      cases b with
      | infinity t => exact congrArg UnpackedFloat.infinity (sign_mul_comm s t)
      | finite t => exact congrArg UnpackedFloat.infinity (sign_mul_comm s t)
      | _ => rfl
  | zero s =>
      cases b with
      | zero t => exact congrArg UnpackedFloat.zero (sign_mul_comm s t)
      | finite t => exact congrArg UnpackedFloat.zero (sign_mul_comm s t)
      | _ => rfl
  | finite s m e positive =>
      cases b with
      | notANumber => rfl
      | infinity t => exact congrArg UnpackedFloat.infinity (sign_mul_comm s t)
      | zero t => exact congrArg UnpackedFloat.zero (sign_mul_comm s t)
      | finite t n f positive' =>
          dsimp only [mul]
          rw [sign_mul_comm, mul_comm, add_comm]

/-- The value minus one. -/
def unpackedMinusOne : UnpackedFloat := .finite .negative (2 ^ 52) (-52) (by decide)

theorem sign_mul_negative (s : Sign) : s * .negative = -s := by
  cases s <;> rfl

/-- The product of a canonical value with minus one is exact, and rounded to itself. -/
theorem unpacked_mul_minusOne {a : UnpackedFloat} (canonical : IsCanonical a) :
    mul .binary64 a unpackedMinusOne = a.neg := by
  cases a with
  | notANumber => rfl
  | infinity s => exact congrArg _ (sign_mul_negative s)
  | zero s => exact congrArg _ (sign_mul_negative s)
  | finite s m e positive =>
      have same : (m * 2 ^ e : ℚ) = (m * 2 ^ 52 : ℕ) * 2 ^ (e + -52) := by
        rw [zpow_add₀ two_ne_zero]
        push_cast
        norm_num
        ring
      have product : Describes (m * 2 ^ 52) (e + -52) .exact (m * 2 ^ e) := by
        rw [same]
        exact describes_exact _ _ (.inl (Nat.le_mul_of_pos_left _ positive))
      have exact := describes_exact m e (Canonical.enough canonical)
      dsimp only [mul, unpackedMinusOne, neg]
      rw [sign_mul_negative, product.round_eq exact, Canonical.round_eq canonical]

theorem float_add_comm (x y : Float) : x + y = y + x :=
  congrArg (fun u => Float.ofModel (.pack u)) (unpacked_add_comm _ _)

theorem float_mul_comm (x y : Float) : x * y = y * x :=
  congrArg (fun u => Float.ofModel (.pack u)) (unpacked_mul_comm _ _)

theorem float_mul_minusOne (x : Float) : x * (-1) = -x :=
  congrArg (fun u => Float.ofModel (.pack u)) (unpacked_mul_minusOne (canonical_unpack _))

end MixedInteger.Rounding
