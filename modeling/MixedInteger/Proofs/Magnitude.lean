import MixedInteger.Report

/-!
# Magnitudes

Binary64 values are compared after they are unpacked, and the comparison goes both ways
unless one of them is no number.  The magnitude of a finite value is a number, so that it
is below the tolerance or at least as great: a value that was snapped is zero or far
enough from zero.
-/

namespace MixedInteger

namespace Tolerance

open Float.Model (Format UnpackedFloat)

/-! ## Unpacked values -/

/-- The two sides of a comparison can be exchanged. -/
theorem compare_swap (a b : UnpackedFloat) : b.compare a = (a.compare b).map Ordering.swap := by
  cases a with
  | notANumber => cases b <;> rfl
  | infinity sign => cases sign <;> rcases b with (_ | _) | _ | _ | ⟨_ | _, _⟩ <;> rfl
  | zero sign => rcases b with (_ | _) | _ | _ | ⟨_ | _, _⟩ <;> rfl
  | finite sign mantissa exponent positive =>
      cases b with
      | notANumber => cases sign <;> rfl
      | infinity other => cases sign <;> cases other <;> rfl
      | zero other => cases sign <;> rfl
      | finite other mantissa' exponent' positive' =>
          -- Exponents are compared first; both comparisons can be exchanged.
          have exponents : compare exponent' exponent = (compare exponent exponent').swap :=
            Std.OrientedCmp.eq_swap
          have mantissas : compare mantissa' mantissa = (compare mantissa mantissa').swap :=
            Std.OrientedCmp.eq_swap
          have both : (compare exponent' exponent).then (compare mantissa' mantissa) =
              ((compare exponent exponent').then (compare mantissa mantissa')).swap := by
            rw [Ordering.swap_then, exponents, mantissas]
          cases sign with
          | negative =>
              cases other with
              | negative => exact congrArg (fun order => some order.swap) both
              | positive => rfl
          | positive =>
              cases other with
              | negative => rfl
              | positive => exact congrArg some both

/-- Only a value that is no number compares with nothing. -/
theorem exists_compare {a b : UnpackedFloat} (first : a ≠ .notANumber) (second : b ≠ .notANumber) :
    ∃ order, a.compare b = some order := by
  cases a with
  | notANumber => exact absurd rfl first
  | infinity sign =>
      cases sign <;> rcases b with (_ | _) | _ | _ | ⟨_ | _, _⟩ <;>
        first | exact ⟨_, rfl⟩ | exact absurd rfl second
  | zero sign =>
      rcases b with (_ | _) | _ | _ | ⟨_ | _, _⟩ <;>
        first | exact ⟨_, rfl⟩ | exact absurd rfl second
  | finite sign =>
      cases sign <;> rcases b with (_ | _) | _ | _ | ⟨_ | _, _⟩ <;>
        first | exact ⟨_, rfl⟩ | exact absurd rfl second

theorem lt_or_le {a b : UnpackedFloat} (first : a ≠ .notANumber) (second : b ≠ .notANumber) :
    a.lt b = true ∨ b.le a = true := by
  obtain ⟨order, compared⟩ := exists_compare first second
  rw [UnpackedFloat.lt, UnpackedFloat.le, compare_swap a b, compared]
  cases order with
  | lt => exact .inl rfl
  | eq => exact .inr rfl
  | gt => exact .inr rfl

/-! ## Packing -/

section

variable {spec : Format}

/-- Bits unpack to a number unless the exponent is full and the mantissa is not zero. -/
theorem unpack_packComponents_ne {sign : UnpackedFloat.Sign} {exponent : BitVec spec.exponentBits}
    {mantissa : BitVec spec.mantissaBitsWithoutImplicit}
    (number : exponent = -1#_ → mantissa = 0#_) :
    UnpackedFloat.unpack spec (UnpackedFloat.packComponents spec sign exponent mantissa) ≠
      .notANumber := by
  have kept : UnpackedFloat.unpackMantissa
      (UnpackedFloat.packComponents spec sign exponent mantissa) = mantissa :=
    UnpackedFloat.unpackMantissa_packComponents
  delta UnpackedFloat.unpack
  dsimp only
  rw [UnpackedFloat.unpackExponent_packComponents]
  by_cases full : exponent = -1#_
  · rw [if_pos full, if_pos (kept.trans (number full))]
    intro equal
    cases equal
  · rw [if_neg full]
    by_cases least : exponent = 0#_
    · rw [if_pos least]
      by_cases zero : mantissa = 0#_
      · rw [dif_pos (kept.trans zero)]
        intro equal
        cases equal
      · rw [dif_neg fun equal => zero (kept.symm.trans equal)]
        intro equal
        cases equal
    · rw [if_neg least]
      intro equal
      cases equal

/-- Packing does not turn a number into something else. -/
theorem unpack_pack_ne {f : UnpackedFloat} (number : f ≠ .notANumber) :
    UnpackedFloat.unpack spec (UnpackedFloat.pack spec f) ≠ .notANumber := by
  cases f with
  | notANumber => exact absurd rfl number
  | infinity sign => exact unpack_packComponents_ne fun _ => rfl
  | zero sign => exact unpack_packComponents_ne fun _ => rfl
  | finite sign mantissa exponent positive =>
      have room : 2 ^ 1 ≤ 2 ^ spec.exponentBits := Nat.pow_le_pow_right Nat.two_pos spec.he
      have full : (-1#_ : BitVec spec.exponentBits).toNat = 2 ^ spec.exponentBits - 1 := by
        rw [BitVec.neg_one_eq_allOnes, BitVec.toNat_allOnes]
      delta UnpackedFloat.pack
      dsimp only
      split
      case isTrue => exact unpack_packComponents_ne fun _ => rfl
      case isFalse small =>
          -- The exponent that is packed is below the full one.
          split
          case isTrue =>
              refine unpack_packComponents_ne fun equal => ?_
              have same := congrArg BitVec.toNat equal
              rw [full, BitVec.toNat_ofNat, Nat.mod_eq_of_lt (by omega)] at same
              omega
          case isFalse =>
              refine unpack_packComponents_ne fun equal => ?_
              have same := congrArg BitVec.toNat equal
              rw [full, BitVec.toNat_zero] at same
              omega

end

/-! ## Snapped values -/

variable {x : Float}

theorem abs_number (finite : x.isFinite = true) : x.abs.toModel.unpack ≠ .notANumber := by
  refine unpack_pack_ne fun nothing => ?_
  change x.toModel.unpack.isFinite = true at finite
  cases unpacked : x.toModel.unpack with
  | notANumber => rw [unpacked] at finite; cases finite
  | infinity sign => rw [unpacked] at nothing; cases nothing
  | zero sign => rw [unpacked] at nothing; cases nothing
  | finite sign => rw [unpacked] at nothing; cases nothing

/-- The magnitude of a finite value is below the tolerance or at least as great. -/
theorem epsilon_le_abs (finite : x.isFinite = true) (notBelow : ¬ x.abs < epsilon) :
    epsilon ≤ x.abs := by
  have number : epsilon.toModel.unpack ≠ .notANumber := nofun
  rcases lt_or_le (abs_number finite) number with below | above
  · exact absurd (decide_eq_true below) notBelow
  · exact decide_eq_true above

theorem snapped_finite (finite : x.isFinite = true) : (snapped x).isFinite = true := by
  unfold snapped
  split
  case isTrue => rfl
  case isFalse => exact finite

/-- A finite value that was snapped is zero or at least the tolerance in magnitude. -/
theorem snapped_eq_zero_or (finite : x.isFinite = true) :
    snapped x = 0.0 ∨ epsilon ≤ (snapped x).abs := by
  unfold snapped
  split
  case isTrue => exact .inl rfl
  case isFalse notBelow => exact .inr (epsilon_le_abs finite notBelow)

end Tolerance

/-- A number in a report is finite. -/
theorem Report.isFinite_of_finite? {token : List Char} {value : Float}
    (read : finite? token = some value) : value.isFinite = true := by
  unfold finite? at read
  cases literal : Decimal.literal? (Text.trimmed token) with
  | none => rw [literal] at read; cases read
  | some number =>
      rw [literal] at read
      dsimp only at read
      split at read
      case isTrue finite => exact Option.some.inj read ▸ finite
      case isFalse => cases read

end MixedInteger
