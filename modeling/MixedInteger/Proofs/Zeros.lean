import MixedInteger.Proofs.Arithmetic
import MixedInteger.Tolerance

/-!
# Zeros of either sign

Two binary64 values are the same number if they differ in the sign of a zero at most.
Sums, products and negations of the same numbers are the same numbers, and a sign of zero
is lost as soon as the magnitude of a number is taken or a positive zero is added.
-/

namespace MixedInteger

open Float.Model (UnpackedFloat)
open Float.Model.UnpackedFloat (Sign)

/-- Values that are equal, or are zeros with different signs. -/
def SameNumber (x y : Float) : Prop := x = y ∨ (x == y) = true

namespace Rounding

/-- Unpacked values that differ in the sign of a zero at most. -/
inductive ZeroAlike : UnpackedFloat → UnpackedFloat → Prop where
  | refl (a : UnpackedFloat) : ZeroAlike a a
  | zeros (s t : Sign) : ZeroAlike (.zero s) (.zero t)

theorem ZeroAlike.of_beq {a b : UnpackedFloat} (equal : a.beq b = true) : ZeroAlike a b := by
  have compared : a.compare b = some .eq := eq_of_beq equal
  cases a with
  | notANumber => cases compared
  | infinity s =>
      cases b with
      | infinity t =>
          cases s <;> cases t
          case negative.negative => exact .refl _
          case positive.positive => exact .refl _
          all_goals cases compared
      | _ => cases s <;> cases compared
  | zero s =>
      cases b with
      | zero t => exact .zeros s t
      | notANumber => cases compared
      | infinity t => cases t <;> cases compared
      | finite t n f some => cases t <;> cases compared
  | finite s m e positive =>
      cases b with
      | notANumber => cases s <;> cases compared
      | infinity t => cases s <;> cases t <;> cases compared
      | zero t => cases s <;> cases compared
      | finite t n f positive' =>
          have parts (swapped : (compare e f).then (compare m n) = .eq) : e = f ∧ m = n := by
            rw [Ordering.then_eq_eq, compare_eq_iff_eq, compare_eq_iff_eq] at swapped
            exact swapped
          cases s <;> cases t
          case negative.negative =>
            have swapped := Option.some.inj compared
            rw [Ordering.swap_eq_eq] at swapped
            obtain ⟨rfl, rfl⟩ := parts swapped
            exact .refl _
          case positive.positive =>
            obtain ⟨rfl, rfl⟩ := parts (Option.some.inj compared)
            exact .refl _
          all_goals cases compared

theorem ZeroAlike.add {a b c d : UnpackedFloat} (left : ZeroAlike a b) (right : ZeroAlike c d) :
    ZeroAlike (.add .binary64 a c) (.add .binary64 b d) := by
  cases left with
  | refl a =>
      cases right with
      | refl c => exact .refl _
      | zeros s t =>
          cases a with
          | zero r => cases r <;> cases s <;> cases t <;> constructor
          | _ => exact .refl _
  | zeros s t =>
      cases right with
      | refl c =>
          cases c with
          | zero r => cases r <;> cases s <;> cases t <;> constructor
          | _ => exact .refl _
      | zeros p q => cases s <;> cases t <;> cases p <;> cases q <;> constructor

theorem ZeroAlike.mul {a b c d : UnpackedFloat} (left : ZeroAlike a b) (right : ZeroAlike c d) :
    ZeroAlike (.mul .binary64 a c) (.mul .binary64 b d) := by
  cases left with
  | refl a =>
      cases right with
      | refl c => exact .refl _
      | zeros s t => cases a <;> constructor
  | zeros s t =>
      cases right with
      | refl c => cases c <;> constructor
      | zeros p q => exact .zeros _ _

theorem ZeroAlike.zero_add (a : UnpackedFloat) :
    ZeroAlike (.add .binary64 (.zero .positive) a) a := by
  cases a with
  | zero s => cases s <;> constructor
  | _ => exact .refl _

theorem ZeroAlike.symm {a b : UnpackedFloat} (alike : ZeroAlike a b) : ZeroAlike b a := by
  cases alike with
  | refl a => exact .refl a
  | zeros s t => exact .zeros t s

theorem ZeroAlike.trans {a b c : UnpackedFloat} (first : ZeroAlike a b) (second : ZeroAlike b c) :
    ZeroAlike a c := by
  cases first with
  | refl a => exact second
  | zeros s t => cases second <;> constructor

end Rounding

namespace SameNumber

open Rounding (ZeroAlike)

/-- The zero with a given sign. -/
def signedZero (s : Sign) : Float := .ofModel (.pack (.zero s))

/-- Packing unpacked values that are alike gives the same number. -/
theorem of_zeroAlike {a b : UnpackedFloat} (alike : ZeroAlike a b) :
    SameNumber (.ofModel (.pack a)) (.ofModel (.pack b)) := by
  cases alike with
  | refl a => exact .inl rfl
  | zeros s t =>
      right
      cases s <;> cases t <;> rfl

theorem iff_zeroAlike {x y : Float} :
    SameNumber x y ↔ ZeroAlike x.toModel.unpack y.toModel.unpack := by
  constructor
  · rintro (rfl | equal)
    · exact .refl _
    · exact .of_beq equal
  · intro alike
    have packed := of_zeroAlike alike
    rwa [Rounding.pack_unpack, Rounding.pack_unpack] at packed

/-- The same number is the same value, unless it is zero. -/
theorem eq_or_zeros {x y : Float} (same : SameNumber x y) :
    x = y ∨ ∃ s t, x = signedZero s ∧ y = signedZero t := by
  have alike := iff_zeroAlike.mp same
  rw [Rounding.eq_of_unpack (x := x) rfl, Rounding.eq_of_unpack (x := y) rfl]
  generalize x.toModel.unpack = a at alike ⊢
  generalize y.toModel.unpack = b at alike ⊢
  cases alike with
  | refl a => exact .inl rfl
  | zeros s t => exact .inr ⟨s, t, rfl, rfl⟩

theorem refl (x : Float) : SameNumber x x := .inl rfl

theorem symm {x y : Float} (same : SameNumber x y) : SameNumber y x :=
  iff_zeroAlike.mpr (iff_zeroAlike.mp same).symm

theorem trans {x y z : Float} (first : SameNumber x y) (second : SameNumber y z) :
    SameNumber x z :=
  iff_zeroAlike.mpr ((iff_zeroAlike.mp first).trans (iff_zeroAlike.mp second))

theorem add {x y z w : Float} (left : SameNumber x y) (right : SameNumber z w) :
    SameNumber (x + z) (y + w) :=
  of_zeroAlike ((iff_zeroAlike.mp left).add (iff_zeroAlike.mp right))

theorem mul {x y z w : Float} (left : SameNumber x y) (right : SameNumber z w) :
    SameNumber (x * z) (y * w) :=
  of_zeroAlike ((iff_zeroAlike.mp left).mul (iff_zeroAlike.mp right))

theorem neg {x y : Float} (same : SameNumber x y) : SameNumber (-x) (-y) := by
  have scaled := same.mul (refl (-1))
  rwa [Rounding.float_mul_minusOne, Rounding.float_mul_minusOne] at scaled

theorem zero_add (x : Float) : SameNumber (0 + x) x := by
  have packed : SameNumber (0 + x) (.ofModel (.pack x.toModel.unpack)) :=
    of_zeroAlike (ZeroAlike.zero_add x.toModel.unpack)
  rwa [Rounding.pack_unpack] at packed

/-- The sign of a negated zero does not survive the addition of zero. -/
theorem neg_add_zero {x y : Float} (same : SameNumber x y) : -x + 0 = -y + 0 := by
  rcases same.eq_or_zeros with rfl | ⟨s, t, rfl, rfl⟩
  · rfl
  · cases s <;> cases t <;> rfl

theorem isNearZero_eq {x y : Float} (same : SameNumber x y) :
    Tolerance.isNearZero x = Tolerance.isNearZero y := by
  rcases same.eq_or_zeros with rfl | ⟨s, t, rfl, rfl⟩
  · rfl
  · cases s <;> cases t <;> rfl

/-- Zeros count as zero, so the same number is the same value if it does not. -/
theorem eq_of_isNearZero_eq_false {x y : Float} (same : SameNumber x y)
    (significant : Tolerance.isNearZero x = false) : x = y := by
  rcases same.eq_or_zeros with rfl | ⟨s, t, rfl, rfl⟩
  · rfl
  · cases s <;> cases significant

end SameNumber

end MixedInteger
