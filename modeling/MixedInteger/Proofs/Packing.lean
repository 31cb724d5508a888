import MixedInteger.Proofs.Rounding

/-!
# Bit patterns of binary64 values

A binary64 value is stored as a sign, an exponent and a mantissa without its leading bit.
Every pattern packs a canonical value, and unpacking the pattern gives that value back; so
the values of binary64 numbers are the canonical ones.  What is unpacked depends on the
three fields of a pattern alone, so that all of this is proved of fields.
-/

namespace MixedInteger.Rounding

open Float.Model (Format UnpackedFloat)
open Float.Model.UnpackedFloat

variable {m : ℕ} {e : ℤ}

/-- A finite value other than zero has a canonical mantissa and exponent. -/
def IsCanonical : UnpackedFloat → Prop
  | .finite _ m e _ => Canonical m e
  | _ => True

/-! ## The fields of a pattern -/

/-- The sign is what the first bit says. -/
theorem sign_packComponents (s : Sign) (exponent : BitVec 11) (mantissa : BitVec 52) :
    Sign.ofBitVec (unpackSign (packComponents .binary64 s exponent mantissa)) = s := by
  have stored : unpackSign (packComponents .binary64 s exponent mantissa) = s.toBitVec := by
    change (s.toBitVec ++ exponent ++ mantissa).extractLsb' 63 1 = _
    rw [BitVec.extractLsb'_append_eq_of_le (by decide),
      BitVec.extractLsb'_append_eq_of_le (by decide)]
    exact BitVec.extractLsb'_eq_self
  rw [stored]
  cases s <;> rfl

/-- A pattern is nothing but its three fields. -/
theorem packComponents_fields (bits : BitVec 64) :
    packComponents .binary64 (Sign.ofBitVec (@unpackSign .binary64 bits))
      (@unpackExponent .binary64 bits) (@unpackMantissa .binary64 bits) = bits := by
  have sign (bit : BitVec 1) : (Sign.ofBitVec bit).toBitVec = bit := by
    decide +revert
  have upper : bits.extractLsb' 63 1 ++ bits.extractLsb' 52 11 = bits.extractLsb' 52 12 :=
    BitVec.extractLsb'_append_extractLsb'_eq_extractLsb' rfl
  have whole : bits.extractLsb' 52 12 ++ bits.extractLsb' 0 52 = bits.extractLsb' 0 64 :=
    BitVec.extractLsb'_append_extractLsb'_eq_extractLsb' rfl
  change (Sign.ofBitVec (bits.extractLsb' 63 1)).toBitVec ++ bits.extractLsb' 52 11 ++
    bits.extractLsb' 0 52 = bits
  rw [sign, upper, whole]
  exact BitVec.extractLsb'_eq_self

theorem toNat_leading_append (mantissa : BitVec 52) :
    (1#1 ++ mantissa).toNat = 2 ^ 52 + mantissa.toNat := by
  rw [BitVec.toNat_append, ← Nat.shiftLeft_add_eq_or_of_lt mantissa.isLt]
  rfl

theorem leading_append_pos (mantissa : BitVec 52) : 0 < (1#1 ++ mantissa).toNat := by
  have leading := toNat_leading_append mantissa
  omega

theorem toNat_pos {mantissa : BitVec 52} (some : mantissa ≠ 0#52) : 0 < mantissa.toNat :=
  Nat.pos_of_ne_zero fun equal => some (BitVec.eq_of_toNat_eq equal)

/-- The value that three fields stand for. -/
def ofFields (s : Sign) (exponent : BitVec 11) (mantissa : BitVec 52) : UnpackedFloat :=
  if exponent = -1#11 then
    if mantissa = 0#52 then .infinity s else .notANumber
  else if exponent = 0#11 then
    if some : mantissa = 0#52 then .zero s
    else .finite s mantissa.toNat (exponent.toNat - 1075 + 1) (toNat_pos some)
  else .finite s (1#1 ++ mantissa).toNat (exponent.toNat - 1075) (leading_append_pos mantissa)

section

variable {s : Sign} {exponent : BitVec 11} {mantissa : BitVec 52}

theorem ofFields_ones : ofFields s (-1#11) mantissa =
    if mantissa = 0#52 then .infinity s else .notANumber := rfl

theorem ofFields_zero : ofFields s 0#11 0#52 = .zero s := rfl

theorem ofFields_least (some : mantissa ≠ 0#52) :
    ofFields s 0#11 mantissa = .finite s mantissa.toNat (-1074) (toNat_pos some) := by
  rw [ofFields, if_neg (by decide), if_pos rfl, dif_neg some]
  rfl

theorem ofFields_leading (ones : exponent ≠ -1#11) (zeros : exponent ≠ 0#11) :
    ofFields s exponent mantissa = .finite s (1#1 ++ mantissa).toNat (exponent.toNat - 1075)
      (leading_append_pos mantissa) := by
  rw [ofFields, if_neg ones, if_neg zeros]

end

theorem unpack_eq_ofFields (bits : BitVec 64) :
    unpack .binary64 bits = ofFields (Sign.ofBitVec (@unpackSign .binary64 bits))
      (@unpackExponent .binary64 bits) (@unpackMantissa .binary64 bits) := rfl

theorem unpack_packComponents (s : Sign) (exponent : BitVec 11) (mantissa : BitVec 52) :
    unpack .binary64 (packComponents .binary64 s exponent mantissa) =
      ofFields s exponent mantissa := by
  rw [unpack_eq_ofFields, sign_packComponents, unpackExponent_packComponents,
    unpackMantissa_packComponents]

/-! ## Packing canonical values -/

/-- A finite value is packed with its exponent, unless that is too large or the mantissa short. -/
theorem pack_finite (s : Sign) (positive : 0 < m) :
    UnpackedFloat.pack .binary64 (.finite s m e positive) =
      if 2 ^ 11 ≤ (e + 1075).toNat + 1 then packedInfinity .binary64 s
      else if m.log2 + 1 = 53 then
        packComponents .binary64 s (BitVec.ofNat 11 (e + 1075).toNat) (BitVec.ofNat 52 m)
      else packComponents .binary64 s 0#11 (BitVec.ofNat 52 m) := by
  have biased : e + 1075 = e + (1023 : ℕ) + (52 : ℕ) := by omega
  rw [biased]
  rfl

/-- A full mantissa is stored without its leading bit, and its exponent shifted. -/
theorem pack_full (s : Sign) (positive : 0 < m) (canonical : Canonical m e) (full : 2 ^ 52 ≤ m) :
    UnpackedFloat.pack .binary64 (.finite s m e positive) =
      packComponents .binary64 s (BitVec.ofNat 11 (e + 1075).toNat) (BitVec.ofNat 52 m) := by
  have log : m.log2 = 52 := (Nat.log2_eq_iff positive.ne').mpr ⟨full, canonical.lt⟩
  have bounded := canonical.bounded
  rw [pack_finite, if_neg (by omega), if_pos (by omega)]

/-- A short mantissa is stored as it is, with the exponent zero. -/
theorem pack_short (s : Sign) (positive : 0 < m) (short : m < 2 ^ 52) :
    UnpackedFloat.pack .binary64 (.finite s m (-1074) positive) =
      packComponents .binary64 s 0#11 (BitVec.ofNat 52 m) := by
  have log : m.log2 < 52 := (Nat.log2_lt positive.ne').mpr short
  rw [pack_finite, if_neg (by decide), if_neg (by omega)]

theorem ofFields_full (s : Sign) (positive : 0 < m) (canonical : Canonical m e)
    (full : 2 ^ 52 ≤ m) :
    ofFields s (BitVec.ofNat 11 (e + 1075).toNat) (BitVec.ofNat 52 m) = .finite s m e positive := by
  obtain ⟨-, lt, least, -, bounded⟩ := canonical
  have stored : (BitVec.ofNat 11 (e + 1075).toNat).toNat = (e + 1075).toNat := by
    rw [BitVec.toNat_ofNat, Nat.mod_eq_of_lt (by omega)]
  have mantissa : (1#1 ++ BitVec.ofNat 52 m).toNat = m := by
    rw [toNat_leading_append, BitVec.toNat_ofNat]
    omega
  have special : BitVec.ofNat 11 (e + 1075).toNat ≠ -1#11 := by
    intro equal
    rw [equal] at stored
    change 2047 = _ at stored
    omega
  have zero : BitVec.ofNat 11 (e + 1075).toNat ≠ 0#11 := by
    intro equal
    rw [equal] at stored
    change 0 = _ at stored
    omega
  rw [ofFields_leading special zero, UnpackedFloat.finite.injEq]
  exact ⟨rfl, mantissa, by omega⟩

theorem ofFields_short (s : Sign) (positive : 0 < m) (short : m < 2 ^ 52) :
    ofFields s 0#11 (BitVec.ofNat 52 m) = .finite s m (-1074) positive := by
  have mantissa : (BitVec.ofNat 52 m).toNat = m := by
    rw [BitVec.toNat_ofNat, Nat.mod_eq_of_lt short]
  have some : BitVec.ofNat 52 m ≠ 0#52 := by
    intro equal
    rw [equal] at mantissa
    exact positive.ne mantissa
  rw [ofFields_least some, UnpackedFloat.finite.injEq]
  exact ⟨rfl, mantissa, rfl⟩

/-- Packing a canonical value loses nothing. -/
theorem unpack_pack {u : UnpackedFloat} (canonical : IsCanonical u) :
    (Float.Model.pack u).unpack = u := by
  change unpack .binary64 (UnpackedFloat.pack .binary64 u) = u
  cases u with
  | infinity s => cases s <;> rfl
  | notANumber => rfl
  | zero s => cases s <;> rfl
  | finite s m e positive =>
      by_cases full : 2 ^ 52 ≤ m
      · rw [pack_full s positive canonical full, unpack_packComponents,
          ofFields_full s positive canonical full]
      · obtain rfl : e = -1074 := canonical.full.resolve_left full
        rw [pack_short s positive (not_le.mp full), unpack_packComponents,
          ofFields_short s positive (not_le.mp full)]

/-! ## Unpacking patterns -/

/-- Fields stand for a canonical value. -/
theorem canonical_ofFields (s : Sign) (exponent : BitVec 11) (mantissa : BitVec 52) :
    IsCanonical (ofFields s exponent mantissa) := by
  have below := mantissa.isLt
  have stored := exponent.isLt
  by_cases ones : exponent = -1#11
  · rw [ones, ofFields_ones]
    split <;> trivial
  by_cases zeros : exponent = 0#11
  · rw [zeros]
    by_cases none : mantissa = 0#52
    · rw [none, ofFields_zero]
      trivial
    · rw [ofFields_least none]
      exact ⟨toNat_pos none, by omega, le_refl _, .inr rfl, by decide⟩
  · have high : exponent.toNat ≠ 2047 := fun equal => ones (BitVec.eq_of_toNat_eq equal)
    have low : exponent.toNat ≠ 0 := fun equal => zeros (BitVec.eq_of_toNat_eq equal)
    have value := toNat_leading_append mantissa
    rw [ofFields_leading ones zeros]
    exact ⟨by omega, by omega, by omega, .inl (by omega), by omega⟩

/-- Every pattern is unpacked to a canonical value. -/
theorem canonical_unpack (x : Float.Model) : IsCanonical x.unpack := by
  change IsCanonical (unpack .binary64 x.toBits.toBitVec)
  rw [unpack_eq_ofFields]
  exact canonical_ofFields ..

/-- Fields are packed again from what they stand for, but for the many patterns of NaN. -/
theorem pack_ofFields {s : Sign} {exponent : BitVec 11} {mantissa : BitVec 52}
    (number : exponent = -1#11 → mantissa = 0#52) :
    UnpackedFloat.pack .binary64 (ofFields s exponent mantissa) =
      packComponents .binary64 s exponent mantissa := by
  have canonical := canonical_ofFields s exponent mantissa
  by_cases ones : exponent = -1#11
  · rw [number ones, ones]
    rfl
  by_cases zeros : exponent = 0#11
  · rw [zeros]
    by_cases none : mantissa = 0#52
    · rw [none]
      rfl
    · rw [ofFields_least none, pack_short s _ mantissa.isLt, BitVec.ofNat_toNat,
        BitVec.setWidth_eq]
  · have leading := toNat_leading_append mantissa
    have shifted : BitVec.ofNat 11 ((exponent.toNat : ℤ) - 1075 + 1075).toNat = exponent := by
      rw [Int.sub_add_cancel, Int.toNat_natCast, BitVec.ofNat_toNat, BitVec.setWidth_eq]
    have dropped : BitVec.ofNat 52 (1#1 ++ mantissa).toNat = mantissa := by
      apply BitVec.eq_of_toNat_eq
      rw [BitVec.toNat_ofNat, leading, Nat.add_mod_left, Nat.mod_eq_of_lt mantissa.isLt]
    rw [ofFields_leading ones zeros] at canonical ⊢
    rw [pack_full s _ canonical (by omega), shifted, dropped]

theorem eq_of_model_toBits {x y : Float.Model} (same : x.toBits = y.toBits) : x = y := by
  cases x
  cases y
  cases same
  rfl

/-- A number is packed again from what it is unpacked to, NaN being the pattern it should be. -/
theorem pack_unpack (x : Float.Model) : Float.Model.pack x.unpack = x := by
  have same : UnpackedFloat.pack .binary64 (unpack .binary64 x.toBits.toBitVec) =
      x.toBits.toBitVec := by
    by_cases number : @unpackExponent .binary64 x.toBits.toBitVec = -1#11 →
        @unpackMantissa .binary64 x.toBits.toBitVec = 0#52
    · rw [unpack_eq_ofFields, pack_ofFields number, packComponents_fields]
    · obtain ⟨ones, some⟩ := Classical.not_imp.mp number
      rw [x.valid.eq_packedNaN ones some]
      rfl
  apply eq_of_model_toBits
  change UInt64.ofBitVec (UnpackedFloat.pack .binary64 (unpack .binary64 x.toBits.toBitVec)) = _
  rw [same, UInt64.ofBitVec_toBitVec]

/-- A binary64 number is determined by its pattern. -/
theorem eq_of_toBits {x y : Float} (same : x.toBits = y.toBits) : x = y :=
  congrArg Float.ofModel (eq_of_model_toBits same)

theorem eq_of_unpack {x : Float} {u : UnpackedFloat} (unpacked : x.toModel.unpack = u) :
    x = .ofModel (.pack u) := by
  rw [← unpacked, pack_unpack]

/-! ## Opposite patterns -/

theorem unpack_packComponents_neg (s : Sign) (exponent : BitVec 11) (mantissa : BitVec 52) :
    unpack .binary64 (packComponents .binary64 (-s) exponent mantissa) =
      (unpack .binary64 (packComponents .binary64 s exponent mantissa)).neg := by
  rw [unpack_packComponents, unpack_packComponents]
  by_cases ones : exponent = -1#11
  · rw [ones, ofFields_ones, ofFields_ones]
    split <;> rfl
  by_cases zeros : exponent = 0#11
  · rw [zeros]
    by_cases none : mantissa = 0#52
    · rw [none]
      rfl
    · rw [ofFields_least none, ofFields_least none]
      rfl
  · rw [ofFields_leading ones zeros, ofFields_leading ones zeros]
    rfl

/-- Packing keeps opposite values opposite, also those that are packed as infinite. -/
theorem unpack_pack_neg (u : UnpackedFloat) :
    (Float.Model.pack u.neg).unpack = (Float.Model.pack u).unpack.neg := by
  change unpack .binary64 (UnpackedFloat.pack .binary64 u.neg) =
    (unpack .binary64 (UnpackedFloat.pack .binary64 u)).neg
  cases u with
  | notANumber => rfl
  | infinity s => exact unpack_packComponents_neg s _ _
  | zero s => exact unpack_packComponents_neg s _ _
  | finite s m e positive =>
      change unpack .binary64 (UnpackedFloat.pack .binary64 (.finite (-s) m e positive)) = _
      rw [pack_finite, pack_finite]
      split
      · exact unpack_packComponents_neg s _ _
      · split
        · exact unpack_packComponents_neg s _ _
        · exact unpack_packComponents_neg s _ _

theorem float_neg_pack (u : UnpackedFloat) :
    -Float.ofModel (.pack u) = .ofModel (.pack u.neg) := by
  change Float.ofModel (.pack (Float.Model.pack u).unpack.neg) = _
  rw [← unpack_pack_neg, pack_unpack]

theorem unpack_neg (x : Float) : (-x).toModel.unpack = x.toModel.unpack.neg := by
  change (Float.Model.pack x.toModel.unpack.neg).unpack = _
  rw [unpack_pack_neg, pack_unpack]

end MixedInteger.Rounding
