import MixedInteger.Expression.Text
import MixedInteger.Proofs.Numerals
import MixedInteger.Proofs.Zeros

/-!
# Signs and magnitudes

A binary64 value is known from its sign and its magnitude, unless it is no number or a
negative zero.  In a written expression the two stand apart, and the magnitude is read back
from its text.
-/

namespace MixedInteger

open Float.Model (UnpackedFloat)
open Rounding (IsCanonical)

namespace Rounding

variable {x : Float} {u : UnpackedFloat}

theorem lt_zero_iff (unpacked : x.toModel.unpack = u) :
    x < 0.0 ↔ u.lt (.zero .positive) = true := by
  subst unpacked
  exact decide_eq_true_iff

theorem zero_lt_iff (unpacked : x.toModel.unpack = u) :
    0.0 < x ↔ (UnpackedFloat.zero .positive).lt u = true := by
  subst unpacked
  exact decide_eq_true_iff

theorem unpack_abs (x : Float) : x.abs.toModel.unpack = x.toModel.unpack.abs := by
  have canonical := canonical_unpack x.toModel
  apply unpack_pack
  cases unpacked : x.toModel.unpack with
  | finite s m e positive => rw [unpacked] at canonical; exact canonical
  | _ => trivial

theorem abs_abs (x : Float) : x.abs.abs = x.abs := by
  have same : x.toModel.unpack.abs.abs = x.toModel.unpack.abs := by
    cases x.toModel.unpack <;> rfl
  rw [Decimal.abs_of_unpack (unpack_abs x), same]
  rfl

theorem isNaN_abs (x : Float) : x.abs.isNaN = x.isNaN := by
  have same : x.toModel.unpack.abs.isNaN = x.toModel.unpack.isNaN := by
    cases x.toModel.unpack <;> rfl
  exact (congrArg UnpackedFloat.isNaN (unpack_abs x)).trans same

/-- A number is zero, or it is below or above zero and is its magnitude with that sign. -/
theorem number_cases (number : x.isNaN = false) :
    x = 0.0 ∨ x = -0.0 ∨ (x < 0.0 ∧ ¬0.0 < x ∧ x = -x.abs) ∨ (0.0 < x ∧ ¬x < 0.0 ∧ x = x.abs) := by
  cases unpacked : x.toModel.unpack with
  | notANumber =>
      cases number.symm.trans (congrArg UnpackedFloat.isNaN unpacked)
  | zero s =>
      have same := eq_of_unpack unpacked
      cases s with
      | positive => exact .inl same
      | negative => exact .inr (.inl same)
  | infinity s =>
      have same := eq_of_unpack unpacked
      cases s with
      | negative => rw [same]; exact .inr (.inr (.inl ⟨rfl, nofun, rfl⟩))
      | positive => rw [same]; exact .inr (.inr (.inr ⟨rfl, nofun, rfl⟩))
  | finite s m e positive =>
      rw [lt_zero_iff unpacked, zero_lt_iff unpacked, Decimal.abs_of_unpack unpacked]
      have same := eq_of_unpack unpacked
      cases s with
      | negative =>
          refine .inr (.inr (.inl ⟨rfl, nofun, same.trans ?_⟩))
          exact (float_neg_pack (.finite .positive m e positive)).symm
      | positive => exact .inr (.inr (.inr ⟨rfl, nofun, same⟩))

end Rounding

open Rounding

namespace Tolerance

variable {x : Float}

/-- A number that does not count as zero is below zero or above it. -/
theorem sign_of_significant (number : x.isNaN = false) (significant : isNearZero x = false) :
    (x < 0.0 ∧ ¬0.0 < x ∧ x = -x.abs) ∨ (0.0 < x ∧ ¬x < 0.0 ∧ x = x.abs) := by
  rcases number_cases number with rfl | rfl | sign
  · cases significant
  · cases significant
  · exact sign

/-- Whether a number counts as one depends on its magnitude. -/
theorem isNearUnit_of_abs_eq_one (unit : x.abs = 1.0) : isNearUnit x = true := by
  rw [isNearUnit, unit]
  rfl

end Tolerance

namespace Expression

/-- A value with a given sign and magnitude. -/
def signed (negative : Bool) (magnitude : Float) : Float :=
  if negative then -magnitude else magnitude

/-- The magnitude that a word is the text of. -/
def magnitude? (word : List Char) : Option Float :=
  match Decimal.strict? word with
  | some d =>
    if (numberText d.toFloat.abs).toList = word then some d.toFloat.abs else none
  | none => if word = "inf".toList then some (Float.ofBits 0x7FF0000000000000) else none

variable {x : Float}

/-- A number is its sign and its magnitude, unless it is a negative zero. -/
theorem signed_abs (number : x.isNaN = false) (signless : x ≠ -0.0) :
    signed (decide (x < 0.0)) x.abs = x := by
  rcases number_cases number with rfl | zero | ⟨below, -, same⟩ | ⟨-, notBelow, same⟩
  · rfl
  · exact absurd zero signless
  · rw [signed, decide_eq_true below, if_pos rfl, ← same]
  · rw [signed, decide_eq_false notBelow]
    exact same.symm

theorem abs_of_not_isFinite (number : x.isNaN = false) (infinite : x.isFinite = false) :
    x.abs = Float.ofBits 0x7FF0000000000000 := by
  cases unpacked : x.toModel.unpack with
  | notANumber => cases number.symm.trans (congrArg UnpackedFloat.isNaN unpacked)
  | infinity s => rw [Decimal.abs_of_unpack unpacked]; rfl
  | zero s => cases infinite.symm.trans (congrArg UnpackedFloat.isFinite unpacked)
  | finite s m e positive =>
      cases infinite.symm.trans (congrArg UnpackedFloat.isFinite unpacked)

/-- A magnitude is read back from its text. -/
theorem magnitude?_numberText (number : x.isNaN = false) :
    magnitude? (numberText x.abs).toList = some x.abs := by
  cases finite : x.abs.isFinite with
  | true =>
      obtain ⟨d, found, same⟩ := Decimal.strict?_write numberStyle finite
      rw [magnitude?, numberText, found]
      dsimp only
      rw [same, abs_abs]
      exact if_pos rfl
  | false =>
      have infinite := abs_of_not_isFinite ((isNaN_abs x).trans number) finite
      rw [abs_abs] at infinite
      rw [infinite]
      decide +kernel

/-- Only texts of magnitudes are read as magnitudes. -/
theorem exists_of_magnitude? {word : List Char} {y : Float} (read : magnitude? word = some y) :
    ∃ x : Float, x.isNaN = false ∧ word = (numberText x.abs).toList := by
  unfold magnitude? at read
  cases strict : Decimal.strict? word with
  | none =>
      rw [strict] at read
      dsimp only at read
      split at read
      case isTrue infinite =>
        refine ⟨Float.ofBits 0x7FF0000000000000, rfl, infinite.trans ?_⟩
        decide +kernel
      case isFalse => cases read
  | some d =>
      rw [strict] at read
      dsimp only at read
      split at read
      case isTrue written =>
        refine ⟨d.toFloat, ?_, written.symm⟩
        cases nothing : d.toFloat.isNaN with
        | false => rfl
        | true =>
            -- What is no number is written as a word that is no numeral.
            rw [numberText, Decimal.Style.write, isNaN_abs, nothing, if_pos rfl] at written
            rw [← written] at strict
            cases strict
      case isFalse => cases read

end Expression

end MixedInteger
