import MixedInteger.Proofs.Nearest

/-!
# Decimals that are written

The decimal that is written for a finite value has this value, with the sign of a zero as
well: the search accepts a decimal only for its value, and where it finds none the exact
decimal is written.
-/

namespace MixedInteger.Rounding

open Float.Model (Format UnpackedFloat)
open Float.Model.UnpackedFloat

variable {m : ℕ} {e : ℤ}

/-! ## Bit patterns as numbers -/

theorem toNat_packComponents (s : Sign) (exponent : BitVec 11) (mantissa : BitVec 52) :
    (packComponents .binary64 s exponent mantissa).toNat =
      s.toBitVec.toNat * 2 ^ 63 + exponent.toNat * 2 ^ 52 + mantissa.toNat := by
  change ((s.toBitVec ++ exponent) ++ mantissa).toNat = _
  rw [BitVec.toNat_append, ← Nat.shiftLeft_add_eq_or_of_lt mantissa.isLt, BitVec.toNat_append,
    ← Nat.shiftLeft_add_eq_or_of_lt exponent.isLt, Nat.shiftLeft_eq, Nat.shiftLeft_eq]
  ring

/-- A canonical value is stored as a sign bit, a biased exponent and the rest of a mantissa. -/
theorem toNat_pack (s : Sign) (positive : 0 < m) (canonical : Canonical m e) :
    (UnpackedFloat.pack .binary64 (.finite s m e positive)).toNat =
      s.toBitVec.toNat * 2 ^ 63 +
        if 2 ^ 52 ≤ m then (e + 1075).toNat * 2 ^ 52 + (m - 2 ^ 52) else m := by
  by_cases full : 2 ^ 52 ≤ m
  · obtain ⟨-, lt, least, -, bounded⟩ := id canonical
    rw [pack_full s positive canonical full, toNat_packComponents, if_pos full,
      BitVec.toNat_ofNat, BitVec.toNat_ofNat, Nat.mod_eq_of_lt (by omega)]
    omega
  · have lt : m < 2 ^ 52 := not_le.mp full
    obtain rfl : e = -1074 := canonical.full.resolve_left full
    rw [pack_short s positive lt, toNat_packComponents, if_neg full, BitVec.toNat_ofNat,
      BitVec.toNat_ofNat, Nat.mod_eq_of_lt lt]
    omega

theorem toNat_sign_le (s : Sign) : s.toBitVec.toNat ≤ 1 :=
  Nat.le_of_lt_succ s.toBitVec.isLt

end MixedInteger.Rounding

namespace MixedInteger.Decimal

open Rounding
open Float.Model (UnpackedFloat)
open Float.Model.UnpackedFloat (Sign)

variable {m : ℕ} {e : ℤ} {x : Float} {s : Sign}

/-! ## The parts of a value -/

theorem toBits_of_unpack {u : UnpackedFloat} (unpacked : x.toModel.unpack = u) :
    x.toBits.toNat = (UnpackedFloat.pack .binary64 u).toNat := by
  have packed := pack_unpack x.toModel
  rw [unpacked] at packed
  exact congrArg (fun model => model.toBits.toNat) packed.symm

theorem canonical_of_unpack {positive : 0 < m}
    (unpacked : x.toModel.unpack = .finite s m e positive) : Canonical m e := by
  have canonical := canonical_unpack x.toModel
  rwa [unpacked] at canonical

theorem ofFloat_finite {positive : 0 < m}
    (unpacked : x.toModel.unpack = .finite s m e positive) : Binary.ofFloat x = ⟨m, e⟩ := by
  have canonical := canonical_of_unpack unpacked
  have sign := toNat_sign_le s
  obtain ⟨-, lt, least, full, bounded⟩ := id canonical
  have bits := toBits_of_unpack unpacked
  rw [toNat_pack s positive canonical] at bits
  unfold Binary.ofFloat
  by_cases full : 2 ^ 52 ≤ m
  · rw [if_pos full] at bits
    have biased : x.toBits.toNat / 0x10000000000000 % 0x800 = (e + 1075).toNat := by omega
    have stored : x.toBits.toNat % 0x10000000000000 = m - 2 ^ 52 := by omega
    simp only [biased, stored]
    rw [if_neg (by omega), Binary.mk.injEq]
    omega
  · rw [if_neg full] at bits
    have biased : x.toBits.toNat / 0x10000000000000 % 0x800 = 0 := by omega
    have stored : x.toBits.toNat % 0x10000000000000 = m := by omega
    simp only [biased, stored]
    rw [if_pos trivial, Binary.mk.injEq]
    omega

theorem ofFloat_zero (unpacked : x.toModel.unpack = .zero s) :
    (Binary.ofFloat x).significand = 0 := by
  have bits := toBits_of_unpack unpacked
  have zero : (UnpackedFloat.pack .binary64 (.zero s)).toNat = s.toBitVec.toNat * 2 ^ 63 := by
    cases s <;> rfl
  have sign := toNat_sign_le s
  unfold Binary.ofFloat
  have biased : x.toBits.toNat / 0x10000000000000 % 0x800 = 0 := by omega
  have stored : x.toBits.toNat % 0x10000000000000 = 0 := by omega
  simp only [biased, stored]
  rfl

/-- A finite value with a sign, unpacked. -/
theorem unpack_of_isFinite (finite : x.isFinite = true) :
    ∃ s, x.toModel.unpack = .zero s ∨
      ∃ m e positive, x.toModel.unpack = .finite s m e positive := by
  change x.toModel.unpack.isFinite = true at finite
  cases unpacked : x.toModel.unpack with
  | notANumber => rw [unpacked] at finite; cases finite
  | infinity s => rw [unpacked] at finite; cases finite
  | zero s => exact ⟨s, .inl rfl⟩
  | finite s m e positive => exact ⟨s, .inr ⟨m, e, positive, rfl⟩⟩

theorem isNegative_eq {rest : ℕ} (below : rest < 2 ^ 63)
    (bits : x.toBits.toNat = s.toBitVec.toNat * 2 ^ 63 + rest) :
    isNegative x = decide (s.toBitVec.toNat = 1) := by
  have sign := toNat_sign_le s
  rw [isNegative, decide_eq_decide, bits]
  omega

theorem abs_of_unpack {u : UnpackedFloat} (unpacked : x.toModel.unpack = u) :
    x.abs = .ofModel (.pack u.abs) :=
  congrArg (fun u => Float.ofModel (.pack (UnpackedFloat.abs u))) unpacked

/-- A finite value is its magnitude with its sign. -/
theorem signed_abs (finite : x.isFinite = true) :
    (if isNegative x then -x.abs else x.abs) = x := by
  have same : x = .ofModel (.pack x.toModel.unpack) := by rw [pack_unpack]
  obtain ⟨s, unpacked | ⟨m, e, positive, unpacked⟩⟩ := unpack_of_isFinite finite
  · have pattern : (UnpackedFloat.pack .binary64 (.zero s)).toNat =
        s.toBitVec.toNat * 2 ^ 63 + 0 := by
      cases s <;> rfl
    have abs : x.abs = .ofModel (.pack (.zero .positive)) := abs_of_unpack unpacked
    rw [isNegative_eq (by decide) ((toBits_of_unpack unpacked).trans pattern), abs,
      float_neg_pack, same, unpacked]
    cases s <;> rfl
  · have canonical := canonical_of_unpack unpacked
    have pattern := toNat_pack s positive canonical
    have abs : x.abs = .ofModel (.pack (.finite .positive m e positive)) := abs_of_unpack unpacked
    obtain ⟨-, lt, least, full, bounded⟩ := id canonical
    rw [isNegative_eq (by split <;> omega) ((toBits_of_unpack unpacked).trans pattern), abs,
      float_neg_pack, same, unpacked]
    cases s <;> rfl

/-! ## The decimal of a value -/

theorem magnitude_withoutZeros (count : ℕ) (d : Decimal) :
    magnitude (withoutZeros count d).digits (withoutZeros count d).exponent =
      magnitude d.digits d.exponent := by
  induction count generalizing d with
  | zero => rfl
  | succ count ih =>
      rw [withoutZeros]
      split
      case isTrue zeros =>
        rw [ih]
        have tens : d.digits = 10 * (d.digits / 10) := by
          simp only [Bool.and_eq_true, decide_eq_true_eq] at zeros
          omega
        refine magnitude_congr ?_
        dsimp only
        rw [zpow_add_one₀ (by norm_num)]
        conv_rhs => rw [tens]
        push_cast
        ring
      case isFalse => rfl

theorem magnitude_exactly (canonical : Canonical m e) :
    magnitude (Binary.exactly ⟨m, e⟩).digits (Binary.exactly ⟨m, e⟩).exponent =
      .ofModel (.pack (.finite .positive m e canonical.positive)) := by
  refine magnitude_canonical canonical ?_
  unfold Binary.exactly
  split
  case isTrue whole =>
    dsimp only at whole ⊢
    rw [zpow_zero, mul_one, Nat.cast_mul, Nat.pow_eq, Nat.cast_pow, ← zpow_natCast,
      Int.toNat_of_nonneg whole]
    rfl
  case isFalse fraction =>
    dsimp only at fraction ⊢
    have power : (10 : ℚ) ^ e * 5 ^ (-e).toNat = 2 ^ e := by
      rw [← zpow_natCast, Int.toNat_of_nonneg (by omega), zpow_neg, ← div_eq_mul_inv,
        ← div_zpow]
      norm_num
    rw [← power, Nat.cast_mul, Nat.pow_eq, Nat.cast_pow]
    push_cast
    ring

theorem negative_of_mem_neighbours {b : Binary} {unit : ℤ} {tie : Tie} {d : Decimal}
    (present : d ∈ b.neighbours unit tie) : d.negative = false := by
  unfold Binary.neighbours at present
  have pair {l u : Decimal} (lower : l.negative = false) (upper : u.negative = false)
      (present : d ∈ [l, u]) : d.negative = false := by
    rcases List.mem_pair.mp present with rfl | rfl
    · exact lower
    · exact upper
  dsimp only at present
  split at present
  · exact pair rfl rfl present
  · exact pair rfl rfl present
  · split at present
    · exact pair rfl rfl present
    · exact pair rfl rfl present

theorem magnitude_shortestMagnitude (tie : Tie) (finite : x.isFinite = true) :
    magnitude (shortestMagnitude tie x).digits (shortestMagnitude tie x).exponent = x.abs := by
  obtain ⟨s, unpacked | ⟨m, e, positive, unpacked⟩⟩ := unpack_of_isFinite finite
  · rw [abs_of_unpack unpacked, shortestMagnitude]
    simp only [ofFloat_zero unpacked, if_true]
    rfl
  · have canonical := canonical_of_unpack unpacked
    rw [shortestMagnitude]
    simp only [ofFloat_finite unpacked, positive.ne', if_false, magnitude_withoutZeros]
    cases found : (List.range 17).findSome? fun extra =>
        ((Binary.mk m e).neighbours ((Binary.mk m e).scale - (extra + 1 : ℕ)) tie).find? fun d =>
          d.toFloat.toBits == x.abs.toBits with
    | none =>
        rw [Option.getD_none, magnitude_exactly canonical, abs_of_unpack unpacked]
        rfl
    | some d =>
        obtain ⟨extra, -, accepted⟩ := List.exists_of_findSome?_eq_some found
        have accepts := List.find?_some accepted
        have same : d.toFloat = x.abs := Rounding.eq_of_toBits (eq_of_beq accepts)
        rw [toFloat, negative_of_mem_neighbours (List.mem_of_find?_eq_some accepted)] at same
        exact same

/-- The decimal that is written for a finite value has this value. -/
theorem toFloat_shortest (tie : Tie) (finite : x.isFinite = true) :
    (shortest tie x).toFloat = x := by
  unfold shortest toFloat
  dsimp only
  rw [magnitude_shortestMagnitude tie finite, signed_abs finite]

end MixedInteger.Decimal
