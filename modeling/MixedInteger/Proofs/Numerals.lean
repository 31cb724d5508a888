import Mathlib.Tactic.IntervalCases
import MixedInteger.Decimal.Style
import MixedInteger.Proofs.Shortest

/-!
# Numerals

In every style a decimal is written as a numeral of the strict grammar.  What is read from
the numeral stands for the same number, with the same sign, so that a finite value is read
back from its text.
-/

namespace MixedInteger.Decimal

variable {n : ℕ} {e : ℤ} {q : ℚ} {whole rest : List Char}

/-! ## Numbers of digits -/

theorem ofDigits_toDigits (n : ℕ) : ofDigits (Nat.toDigits 10 n) = n :=
  Nat.ofDigitChars_ten_toDigits

theorem ofDigits_zeros_append (count : ℕ) (digits : List Char) :
    ofDigits (List.replicate count '0' ++ digits) = ofDigits digits := by
  change Nat.ofDigitChars 10 _ 0 = Nat.ofDigitChars 10 _ 0
  rw [Nat.ofDigitChars_append, Nat.ofDigitChars_replicate_zero, mul_zero]

theorem ofDigits_append_zeros (digits : List Char) (count : ℕ) :
    ofDigits (digits ++ List.replicate count '0') = 10 ^ count * ofDigits digits := by
  change Nat.ofDigitChars 10 _ 0 = _ * Nat.ofDigitChars 10 _ 0
  rw [Nat.ofDigitChars_append, Nat.ofDigitChars_replicate_zero]

theorem isDigit_toDigits : ∀ c ∈ Nat.toDigits 10 n, c.isDigit = true :=
  fun _ => Nat.isDigit_of_mem_toDigits (by decide) (by decide)

theorem isDigit_zeros (count : ℕ) : ∀ c ∈ List.replicate count '0', c.isDigit = true := by
  intro c present
  rw [List.eq_of_mem_replicate present]
  rfl

/-- No number other than zero is written with a leading zero. -/
theorem head?_toDigits_ne (positive : 0 < n) : (Nat.toDigits 10 n).head? ≠ some '0' := by
  induction n using Nat.strong_induction_on with
  | _ n ih =>
      rw [Nat.toDigits_eq_if (by decide)]
      split
      case isTrue small =>
        interval_cases n <;> decide
      case isFalse large =>
        rw [List.head?_append_of_ne_nil _ Nat.toDigits_ne_nil]
        exact ih (n / 10) (by omega) (by omega)

namespace Parts

/-- Digits that may stand before the point of a numeral. -/
def Leads (whole : List Char) : Prop :=
  whole = ['0'] ∨ whole ≠ [] ∧ whole.head? ≠ some '0'

theorem leads_append (positive : 0 < n) (more : List Char) :
    Leads (Nat.toDigits 10 n ++ more) := by
  refine .inr ⟨List.append_ne_nil_of_left_ne_nil Nat.toDigits_ne_nil _, ?_⟩
  rw [List.head?_append_of_ne_nil _ Nat.toDigits_ne_nil]
  exact head?_toDigits_ne positive

theorem leads_take (n : ℕ) {count : ℕ} (some : 0 < count) :
    Leads ((Nat.toDigits 10 n).take count) := by
  obtain ⟨count, rfl⟩ := Nat.exists_eq_add_one.mpr some
  rcases Nat.eq_zero_or_pos n with rfl | positive
  · exact .inl (by rw [Nat.toDigits_zero, List.take_succ_cons, List.take_nil])
  · have head := head?_toDigits_ne positive
    cases digits : Nat.toDigits 10 n with
    | nil => exact absurd digits Nat.toDigits_ne_nil
    | cons c rest =>
        rw [digits] at head
        exact .inr ⟨nofun, head⟩

/-! ## Numerals for numbers -/

/-- A text is an unsigned numeral of the strict grammar for a number. -/
def Spells (text : List Char) (q : ℚ) : Prop :=
  ∃ parts, ofText? text = some parts ∧ parts.isStrict = true ∧
    (ofDigits (parts.whole ++ parts.fraction.getD []) : ℚ) *
      10 ^ (parts.exponent - (parts.fraction.getD []).length) = q

/-- Digits end in front of a power of ten, and in front of nothing. -/
theorem takeWhile_tail (tail : tail? rest = some e) (digits : ∀ c ∈ whole, c.isDigit = true) :
    (whole ++ rest).takeWhile Char.isDigit = whole ∧
      (whole ++ rest).dropWhile Char.isDigit = rest := by
  rw [List.takeWhile_append_of_pos digits, List.dropWhile_append_of_pos digits]
  cases rest with
  | nil => exact ⟨List.append_nil _, rfl⟩
  | cons c later =>
      have mark : c.isDigit = false := by
        rw [tail?] at tail
        split at tail
        case isTrue mark =>
          simp only [Bool.or_eq_true, decide_eq_true_eq] at mark
          rcases mark with rfl | rfl <;> rfl
        case isFalse => cases tail
      rw [List.takeWhile_cons_of_neg (by simp [mark]), List.dropWhile_cons_of_neg (by simp [mark])]
      exact ⟨List.append_nil _, rfl⟩

theorem isStrict_of_leads (leads : Leads whole) {fraction : Option (List Char)}
    (pointed : fraction ≠ some []) (e : ℤ) : isStrict ⟨whole, fraction, e⟩ = true := by
  have lead : (whole == ['0'] || (!whole.isEmpty && whole.head? != some '0')) = true := by
    rcases leads with rfl | ⟨some, head⟩
    · rfl
    · simp [some, head]
  rw [isStrict, lead, Bool.true_and]
  exact bne_iff_ne.mpr pointed

theorem spells_whole (leads : Leads whole) (digits : ∀ c ∈ whole, c.isDigit = true)
    (tail : tail? rest = some e) : Spells (whole ++ rest) (ofDigits whole * 10 ^ e) := by
  obtain ⟨taken, dropped⟩ := takeWhile_tail tail digits
  refine ⟨⟨whole, none, e⟩, ?_, isStrict_of_leads leads (by simp) e, ?_⟩
  · unfold ofText?
    simp only [taken, dropped]
    split
    case h_1 =>
      cases tail
    case h_2 => rw [tail, Option.map_some]
  · simp

theorem spells_pointed (whole fraction : List Char) (leads : Leads whole)
    (digits : ∀ c ∈ whole ++ fraction, c.isDigit = true) (pointed : fraction ≠ [])
    (tail : tail? rest = some e) :
    Spells (whole ++ '.' :: (fraction ++ rest))
      (ofDigits (whole ++ fraction) * 10 ^ (e - fraction.length)) := by
  rw [List.forall_mem_append] at digits
  obtain ⟨taken, dropped⟩ := takeWhile_tail tail digits.2
  refine ⟨⟨whole, some fraction, e⟩, ?_, isStrict_of_leads leads (by simpa using pointed) e, rfl⟩
  unfold ofText?
  rw [List.takeWhile_append_of_pos digits.1, List.dropWhile_append_of_pos digits.1]
  rw [List.takeWhile_cons_of_neg (by decide), List.dropWhile_cons_of_neg (by decide)]
  simp only [taken, dropped, tail, Option.map_some, List.append_nil]

/-! ## Powers of ten -/

theorem exponent?_toDigits (n : ℕ) :
    exponent? (Nat.toDigits 10 n) = some (n : ℤ) ∧
      exponent? ('+' :: Nat.toDigits 10 n) = some (n : ℤ) ∧
      exponent? ('-' :: Nat.toDigits 10 n) = some (-n : ℤ) := by
  have empty : (Nat.toDigits 10 n).isEmpty = false :=
    List.isEmpty_eq_false_iff.mpr Nat.toDigits_ne_nil
  have digits : (Nat.toDigits 10 n).all Char.isDigit = true := List.all_eq_true.mpr isDigit_toDigits
  refine ⟨?_, ?_, ?_⟩
  · rw [exponent?]
    · simp [empty, digits, ofDigits_toDigits]
    · intro rest same
      cases isDigit_toDigits (n := n) '-' (same ▸ List.mem_cons_self)
    · intro rest same
      cases isDigit_toDigits (n := n) '+' (same ▸ List.mem_cons_self)
  · simp [exponent?, empty, digits, ofDigits_toDigits]
  · simp [exponent?, empty, digits, ofDigits_toDigits]

theorem tail?_nil : tail? [] = some 0 := rfl

end Parts

namespace Style

open Parts

variable (style : Style)

/-! ## Layouts of digits -/

theorem tail?_signed (e : ℤ) :
    tail? ('e' :: (if e < 0 then ['-'] else if style.plus then ['+'] else []) ++
      Nat.toDigits 10 e.natAbs) = some e := by
  obtain ⟨bare, plus, minus⟩ := exponent?_toDigits e.natAbs
  by_cases negative : e < 0
  · have value : (-e.natAbs : ℤ) = e := by omega
    rw [if_pos negative, ← value, Int.natAbs_neg, Int.natAbs_natCast]
    exact minus
  · have value : (e.natAbs : ℤ) = e := by omega
    rw [if_neg negative]
    split
    · rw [← value, Int.natAbs_natCast]
      exact plus
    · rw [← value, Int.natAbs_natCast]
      exact bare

/-- The digits of a number with the point somewhere between them. -/
theorem spells_split (n : ℕ) {count : ℕ} (begun : 0 < count) (inside : count < width n)
    (tail : tail? rest = some e) :
    Spells ((Nat.toDigits 10 n).take count ++ '.' :: ((Nat.toDigits 10 n).drop count ++ rest))
      (n * 10 ^ (e + count - width n)) := by
  have split := List.take_append_drop count (Nat.toDigits 10 n)
  have length : ((Nat.toDigits 10 n).drop count).length = width n - count := List.length_drop
  have pointed : (Nat.toDigits 10 n).drop count ≠ [] := by
    rw [← List.length_pos_iff, length]
    exact Nat.sub_pos_of_lt inside
  have spelled := spells_pointed _ _ (leads_take n begun) (split.symm ▸ isDigit_toDigits) pointed tail
  have power : e - ((width n - count : ℕ) : ℤ) = e + count - width n := by omega
  rw [split, ofDigits_toDigits, length, power] at spelled
  exact spelled

theorem spells_exponentText (n : ℕ) (e : ℤ) :
    Spells (style.exponentText (Nat.toDigits 10 n) e) (n * 10 ^ (e - (width n - 1))) := by
  have tail := style.tail?_signed e
  unfold exponentText
  by_cases single : (Nat.toDigits 10 n).length ≤ 1
  · have one : width n = 1 := le_antisymm single (width_pos n)
    have spelled := spells_whole (leads_take n Nat.one_pos)
      (fun c present => isDigit_toDigits c (List.mem_of_mem_take present)) tail
    rw [List.take_of_length_le single, ofDigits_toDigits] at spelled
    rw [if_pos single, List.take_of_length_le single, one]
    simpa using spelled
  · have spelled := spells_split n Nat.one_pos (not_le.mp single) tail
    have power : e + (1 : ℕ) - width n = e - (width n - 1) := by omega
    rw [power] at spelled
    rw [if_neg single]
    simpa using spelled

/-- Below one the digits follow a zero, the point and further zeros. -/
theorem spells_below (n count : ℕ) :
    Spells ('0' :: '.' :: (List.replicate count '0' ++ Nat.toDigits 10 n))
      (n * 10 ^ (-count - width n : ℤ)) := by
  have fraction : ∀ c ∈ List.replicate count '0' ++ Nat.toDigits 10 n, c.isDigit = true :=
    List.forall_mem_append.mpr ⟨isDigit_zeros _, isDigit_toDigits⟩
  have spelled := spells_pointed ['0'] (List.replicate count '0' ++ Nat.toDigits 10 n)
    (.inl rfl) (List.forall_mem_cons.mpr ⟨rfl, fraction⟩)
    (List.append_ne_nil_of_right_ne_nil _ Nat.toDigits_ne_nil) tail?_nil
  have power : (0 : ℤ) - (List.replicate count '0' ++ Nat.toDigits 10 n).length =
      -count - width n := by
    rw [List.length_append, List.length_replicate, ← width]
    omega
  rw [List.append_nil, ← List.replicate_one, ofDigits_zeros_append, ofDigits_zeros_append,
    ofDigits_toDigits, power] at spelled
  exact spelled

/-- A whole number is its digits, zeros, and in some styles a point with a last zero. -/
theorem spells_above (n count : ℕ) (zero : n = 0 → count = 0) :
    Spells (Nat.toDigits 10 n ++ List.replicate count '0' ++
      (if style.pointed then ['.', '0'] else [])) (n * 10 ^ count) := by
  have leads : Leads (Nat.toDigits 10 n ++ List.replicate count '0') := by
    rcases Nat.eq_zero_or_pos n with rfl | positive
    · rw [zero rfl]
      exact .inl rfl
    · exact leads_append positive _
  have whole : ∀ c ∈ Nat.toDigits 10 n ++ List.replicate count '0', c.isDigit = true :=
    List.forall_mem_append.mpr ⟨isDigit_toDigits, isDigit_zeros _⟩
  have value : ((10 ^ count * n : ℕ) : ℚ) = n * 10 ^ count := by
    push_cast
    ring
  split
  · have spelled := spells_pointed _ ['0'] leads
      (List.forall_mem_append.mpr ⟨whole, isDigit_zeros 1⟩) nofun tail?_nil
    have tenfold := ofDigits_append_zeros (Nat.toDigits 10 n ++ List.replicate count '0') 1
    rw [List.replicate_one, ofDigits_append_zeros, ofDigits_toDigits] at tenfold
    have power : (10 : ℚ) ^ (0 - (['0'].length : ℤ)) = 10⁻¹ := zpow_neg_one 10
    have tenth : ((10 ^ 1 : ℕ) : ℚ) * (n * 10 ^ count) * 10⁻¹ = n * 10 ^ count := by
      push_cast
      ring
    rw [tenfold, power, List.append_nil, Nat.cast_mul, value, tenth] at spelled
    exact spelled
  · have spelled := spells_whole leads whole tail?_nil
    rw [ofDigits_append_zeros, ofDigits_toDigits, zpow_zero, mul_one, value] at spelled
    exact spelled

theorem spells_positionalText (n : ℕ) (place : ℤ) (zero : n = 0 → place = 1) :
    Spells (style.positionalText (Nat.toDigits 10 n) place) (n * 10 ^ (place - width n)) := by
  unfold positionalText
  split
  case isTrue low =>
    have count : -((-place).toNat : ℤ) = place := by omega
    have spelled := spells_below n (-place).toNat
    rwa [count] at spelled
  case isFalse high =>
    have count : (place.toNat : ℤ) = place := by omega
    dsimp only
    split
    case isTrue inside =>
      have spelled := spells_split n (by omega : 0 < place.toNat) inside tail?_nil
      rwa [List.append_nil, zero_add, count] at spelled
    case isFalse outside =>
      have outside : width n ≤ place.toNat := not_lt.mp outside
      have power : (place - width n : ℤ) = (place.toNat - width n : ℕ) := by omega
      rw [power, zpow_natCast]
      refine style.spells_above n (place.toNat - width n) fun none => ?_
      have some := width_pos n
      rw [zero none]
      exact Nat.sub_eq_zero_of_le some

theorem spells_layout (d : Decimal) (place : ℤ)
    (placed : place = if d.digits = 0 then 1 else d.exponent + width d.digits) :
    Spells (if style.positional (place - 1) then
        style.positionalText (Nat.toDigits 10 d.digits) place
      else style.exponentText (Nat.toDigits 10 d.digits) (place - 1))
      (d.digits * 10 ^ d.exponent) := by
  have value : (d.digits * 10 ^ (place - width d.digits) : ℚ) = d.digits * 10 ^ d.exponent := by
    rw [placed]
    split
    case isTrue zero => rw [zero, Nat.cast_zero, zero_mul, zero_mul]
    case isFalse => rw [add_sub_cancel_right]
  split
  · rw [← value]
    refine style.spells_positionalText d.digits place fun zero => ?_
    rw [placed, if_pos zero]
  · have spelled := style.spells_exponentText d.digits (place - 1)
    rwa [sub_sub_sub_cancel_right, value] at spelled

end Style

/-! ## Reading what is written -/

/-- A numeral begins with a digit. -/
theorem Parts.Spells.unsigned {text : List Char} (spelled : Spells text q) :
    ∀ rest, text ≠ '-' :: rest := by
  rintro rest rfl
  obtain ⟨parts, found, strict, -⟩ := spelled
  have whole : parts.whole = [] := by
    unfold ofText? at found
    have nothing : ('-' :: rest).dropWhile Char.isDigit = '-' :: rest := rfl
    simp only [nothing] at found
    obtain ⟨e, -, rfl⟩ := Option.map_eq_some_iff.mp found
    rfl
  rw [isStrict, whole] at strict
  cases strict

theorem strict?_signed {text : List Char} {parts : Parts} (found : Parts.ofText? text = some parts)
    (strict : parts.isStrict = true) (unsigned : ∀ rest, text ≠ '-' :: rest) (negative : Bool) :
    strict? (if negative then '-' :: text else text) = some (parts.toDecimal negative) := by
  cases negative with
  | true => simp only [if_true, strict?, found, strict]
  | false =>
      simp only [Bool.false_eq_true, if_false]
      rw [strict?]
      · simp only [found, strict, if_true]
      · exact fun rest same => unsigned rest same

theorem strict?_textOf (style : Style) (d : Decimal) :
    ∃ read, strict? (style.textOf d) = some read ∧ read.toFloat = d.toFloat := by
  have spelled := style.spells_layout d _ rfl
  have unsigned := spelled.unsigned
  obtain ⟨parts, found, strict, value⟩ := spelled
  refine ⟨parts.toDecimal d.negative, ?_, ?_⟩
  · exact strict?_signed found strict unsigned d.negative
  · have same : magnitude (parts.toDecimal d.negative).digits
        (parts.toDecimal d.negative).exponent = magnitude d.digits d.exponent :=
      magnitude_congr value
    rw [toFloat, toFloat, same]
    rfl

/-- A finite value is read back from its text. -/
theorem strict?_write (style : Style) {x : Float} (finite : x.isFinite = true) :
    ∃ read, strict? (style.write x).toList = some read ∧ read.toFloat = x := by
  obtain ⟨read, found, same⟩ := strict?_textOf style (shortest style.tie x)
  refine ⟨read, ?_, same.trans (toFloat_shortest style.tie finite)⟩
  have regular : x.isNaN = false ∧ x.isInf = false := by
    obtain ⟨s, unpacked | ⟨m, e, positive, unpacked⟩⟩ := unpack_of_isFinite finite
    · exact ⟨congrArg Float.Model.UnpackedFloat.isNaN unpacked,
        congrArg Float.Model.UnpackedFloat.isInf unpacked⟩
    · exact ⟨congrArg Float.Model.UnpackedFloat.isNaN unpacked,
        congrArg Float.Model.UnpackedFloat.isInf unpacked⟩
  rw [Style.write, regular.1, regular.2]
  simp only [Bool.false_eq_true, if_false, String.toList_ofList]
  exact found

end MixedInteger.Decimal
