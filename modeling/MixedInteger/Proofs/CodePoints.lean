import Mathlib.Algebra.Group.Nat.Defs
import MixedInteger.Variable

/-!
# Order of encoded texts

Texts are ordered by their characters, and characters by their code points.  In UTF-8 the first
byte of a character is greater the more bytes follow it, and those that follow are the digits
of the code point in base 64.  Hence the order of the encoded bytes is that of the texts.
-/

namespace MixedInteger.Text

open Std (ReflOrd OrientedCmp OrientedOrd LawfulEqOrd)

variable {β : Type} [Ord β]

/-- A code that is nowhere empty, and in which a smaller character decides what comes first. -/
structure Ascending (code : Char → List β) : Prop where
  nonempty : ∀ c, code c ≠ []
  below : ∀ {c d : Char}, c < d → ∀ rest other : List β,
    compare (code c ++ rest) (code d ++ other) = .lt

theorem compare_append_left [ReflOrd β] (front first second : List β) :
    compare (front ++ first) (front ++ second) = compare first second := by
  induction front with
  | nil => rfl
  | cons b rest ih =>
      rw [List.cons_append, List.cons_append, List.compare_cons_cons, ReflOrd.compare_self, ih]
      rfl

/-- What comes first in the order of characters comes first in code. -/
theorem Ascending.compare_eq_lt [ReflOrd β] {code : Char → List β} (ascending : Ascending code)
    {first second : List Char} (before : first < second) :
    compare (first.flatMap code) (second.flatMap code) = .lt := by
  induction first generalizing second with
  | nil =>
      cases second with
      | nil => exact absurd before (List.lt_irrefl _)
      | cons d later =>
          obtain ⟨b, bs, coded⟩ := List.exists_cons_of_ne_nil (ascending.nonempty d)
          rw [List.flatMap_cons, coded]
          rfl
  | cons c rest ih =>
      cases second with
      | nil => exact absurd before (List.not_lt_nil _)
      | cons d later =>
          rw [List.flatMap_cons, List.flatMap_cons]
          rcases List.cons_lt_cons_iff.mp before with smaller | ⟨rfl, smaller⟩
          · exact ascending.below smaller _ _
          · rw [compare_append_left]
            exact ih smaller

/-- Texts are ordered in code as they are by their characters. -/
theorem Ascending.compare_eq [OrientedOrd β]
    {code : Char → List β} (ascending : Ascending code) (s t : String) :
    compare (s.toList.flatMap code) (t.toList.flatMap code) = compare s t := by
  have earlier {s t : String} (less : compare s t = .lt) :
      compare (s.toList.flatMap code) (t.toList.flatMap code) = .lt :=
    ascending.compare_eq_lt (String.lt_iff.mp (compareOfLessAndEq_eq_lt.mp less))
  cases order : compare s t with
  | lt => exact earlier order
  | eq => rw [LawfulEqOrd.eq_of_compare order, ReflOrd.compare_self]
  | gt =>
      rw [OrientedOrd.eq_swap, earlier (OrientedCmp.lt_of_gt order)]
      rfl

/-! ## Code points -/

/-- The code points of a text. -/
def codePoints (s : String) : List Nat :=
  s.toList.map Char.toNat

theorem compare_codePoints (s t : String) :
    compare (codePoints s) (codePoints t) = compare s t := by
  have ascending : Ascending fun c : Char => [c.toNat] := by
    refine ⟨fun c => List.cons_ne_nil _ _, fun {c d} smaller rest other => ?_⟩
    have numbers : compare c.toNat d.toNat = .lt := Nat.compare_eq_lt.mpr smaller
    rw [List.singleton_append, List.singleton_append, List.compare_cons_cons, numbers]
    rfl
  rw [codePoints, codePoints, List.map_eq_flatMap, List.map_eq_flatMap]
  exact ascending.compare_eq s t

/-! ## Bytes -/

/-- The last digits of a number in base 64, each in a byte that marks it as one that follows. -/
def followers : Nat → Nat → List UInt8
  | 0, _ => []
  | count + 1, n => .ofNat (n / 64 ^ count % 64 + 0x80) :: followers count n

/-- How many bytes follow the first one of a code point. -/
def followerCount (n : Nat) : Nat :=
  if n ≤ 0x7f then 0 else if n ≤ 0x7ff then 1 else if n ≤ 0xffff then 2 else 3

/-- The first byte of a code point: how many bytes follow it, and the digits before theirs. -/
def leader (n : Nat) : Nat :=
  n / 64 ^ followerCount n +
    match followerCount n with
    | 0 => 0
    | 1 => 0xc0
    | 2 => 0xe0
    | _ => 0xf0

/-- There are as many bytes as the code point needs digits. -/
theorem leader_cases (n : Nat) :
    (n ≤ 0x7f ∧ followerCount n = 0 ∧ leader n = n) ∨
    (0x7f < n ∧ n ≤ 0x7ff ∧ followerCount n = 1 ∧ leader n = n / 64 + 0xc0) ∨
    (0x7ff < n ∧ n ≤ 0xffff ∧ followerCount n = 2 ∧ leader n = n / 4096 + 0xe0) ∨
    (0xffff < n ∧ followerCount n = 3 ∧ leader n = n / 262144 + 0xf0) := by
  unfold leader followerCount
  split
  case isTrue one => exact .inl ⟨one, rfl, Nat.div_one n⟩
  case isFalse =>
    split
    case isTrue two => exact .inr (.inl ⟨by omega, two, rfl, rfl⟩)
    case isFalse =>
      split
      case isTrue three => exact .inr (.inr (.inl ⟨by omega, three, rfl, rfl⟩))
      case isFalse => exact .inr (.inr (.inr ⟨by omega, rfl, rfl⟩))

theorem toNat_lt (c : Char) : c.toNat < 0x110000 := by
  have valid : c.toNat < 0xd800 ∨ (0xdfff < c.toNat ∧ c.toNat < 0x110000) := c.valid
  omega

theorem utf8EncodeChar_eq (c : Char) :
    String.utf8EncodeChar c =
      .ofNat (leader c.toNat) :: followers (followerCount c.toNat) c.toNat := by
  have bounded := toNat_lt c
  have value : c.val.toNat = c.toNat := rfl
  unfold String.utf8EncodeChar
  rw [value]
  generalize c.toNat = n at bounded
  rcases leader_cases n with ⟨few, count, first⟩ | ⟨many, few, count, first⟩ |
    ⟨many, few, count, first⟩ | ⟨many, count, first⟩
  · simp [followers, count, first, few]
  · have short : n / 64 % 0x20 = n / 64 := Nat.mod_eq_of_lt (by omega)
    simp [followers, count, first, few, many, short]
  · have short : n / 4096 % 0x10 = n / 4096 := Nat.mod_eq_of_lt (by omega)
    have more : ¬ n ≤ 0x7f := by omega
    simp [followers, count, first, few, many, more, short]
  · have short : n / 262144 % 0x08 = n / 262144 := Nat.mod_eq_of_lt (by omega)
    have more : ¬ n ≤ 0x7f ∧ ¬ n ≤ 0x7ff := by omega
    simp [followers, count, first, many, more, short]

theorem compare_ofNat {a b : Nat} (bounded : b < 256) (below : a < b) :
    compare (UInt8.ofNat a) (UInt8.ofNat b) = .lt := by
  rw [Std.compare_eq_lt, UInt8.lt_iff_toNat_lt, UInt8.toNat_ofNat', UInt8.toNat_ofNat']
  omega

/-- Of two numbers that agree in front, the last digits of the smaller come first. -/
theorem compare_followers {count n m : Nat} (same : n / 64 ^ count = m / 64 ^ count)
    (below : n < m) (rest other : List UInt8) :
    compare (followers count n ++ rest) (followers count m ++ other) = .lt := by
  induction count with
  | zero =>
      rw [Nat.pow_zero, Nat.div_one, Nat.div_one] at same
      exact absurd below (same ▸ Nat.lt_irrefl n)
  | succ count ih =>
      rw [followers, followers, List.cons_append, List.cons_append, List.compare_cons_cons]
      rw [Nat.pow_succ, ← Nat.div_div_eq_div_mul, ← Nat.div_div_eq_div_mul] at same
      -- Unless this digit decides, the numbers agree in it as well, and the next digit is compared.
      have ordered : n / 64 ^ count ≤ m / 64 ^ count := Nat.div_le_div_right (Nat.le_of_lt below)
      rcases Nat.lt_or_eq_of_le ordered with less | equal
      · rw [compare_ofNat (by omega) (by omega)]
        rfl
      · rw [equal, ReflOrd.compare_self]
        exact ih equal

/-- The first bytes decide, unless they agree in all that they say. -/
theorem leader_lt_or_eq {n m : Nat} (bounded : m < 0x110000) (below : n < m) :
    leader m < 256 ∧ (leader n < leader m ∨
      (leader n = leader m ∧ followerCount n = followerCount m ∧
        n / 64 ^ followerCount m = m / 64 ^ followerCount m)) := by
  rcases leader_cases n with ⟨few, count, first⟩ | ⟨many, few, count, first⟩ |
    ⟨many, few, count, first⟩ | ⟨many, count, first⟩ <;>
  rcases leader_cases m with ⟨few', count', first'⟩ | ⟨many', few', count', first'⟩ |
    ⟨many', few', count', first'⟩ | ⟨many', count', first'⟩ <;>
  · rw [count, count', first, first']
    omega

theorem ascending_utf8EncodeChar : Ascending String.utf8EncodeChar := by
  refine ⟨fun c => String.utf8EncodeChar_ne_nil, fun {c d} smaller rest other => ?_⟩
  rw [utf8EncodeChar_eq, utf8EncodeChar_eq, List.cons_append, List.cons_append,
    List.compare_cons_cons]
  have smaller : c.toNat < d.toNat := smaller
  obtain ⟨bounded, less | ⟨same, counts, digits⟩⟩ := leader_lt_or_eq (toNat_lt d) smaller
  · rw [compare_ofNat bounded less]
    rfl
  · rw [same, ReflOrd.compare_self, counts]
    exact compare_followers digits smaller rest other

/-- The bytes of a text in UTF-8. -/
def bytes (s : String) : List UInt8 :=
  s.toUTF8.data.toList

theorem bytes_eq (s : String) : bytes s = s.toList.flatMap String.utf8EncodeChar := by
  have encoded : s.toUTF8 = s.toList.utf8Encode := by
    rw [String.toUTF8_eq_toByteArray, ← String.toByteArray_ofList, String.ofList_toList]
  rw [bytes, encoded, List.utf8Encode, List.toList_data_toByteArray]

/-- The order of the bytes of texts is the order of their code points. -/
theorem compare_bytes (s t : String) : compare (bytes s) (bytes t) = compare s t := by
  rw [bytes_eq, bytes_eq]
  exact ascending_utf8EncodeChar.compare_eq s t

end MixedInteger.Text
