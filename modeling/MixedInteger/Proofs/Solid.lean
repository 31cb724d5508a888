import MixedInteger.Expression.Text
import MixedInteger.Variable.Naming

/-!
# Texts without blanks

A solid text holds no blank, so that it stays one word wherever it is written.
Names are solid by construction; here the same is shown of digits, of generated
names and of every written number.
-/

namespace MixedInteger

namespace Text

/-- No character of the text is blank. -/
def Solid (text : List Char) : Prop :=
  ∀ c ∈ text, isBlank c = false

@[simp] theorem solid_nil : Solid [] := by
  intro c present
  cases present

@[simp] theorem solid_cons {c : Char} {rest : List Char} :
    Solid (c :: rest) ↔ isBlank c = false ∧ Solid rest :=
  List.forall_mem_cons

@[simp] theorem solid_append {first second : List Char} :
    Solid (first ++ second) ↔ Solid first ∧ Solid second :=
  List.forall_mem_append

theorem Solid.mono {part text : List Char} (solid : Solid text) (within : part ⊆ text) :
    Solid part :=
  fun c present => solid c (within present)

theorem isBlank_of_isDigit {c : Char} (digit : c.isDigit) : isBlank c = false := by
  have bounds : 48 ≤ c.toNat ∧ c.toNat ≤ 57 := by
    simp only [Char.isDigit, Bool.and_eq_true, decide_eq_true_eq] at digit
    exact ⟨UInt32.le_iff_toNat_le.mp digit.1, UInt32.le_iff_toNat_le.mp digit.2⟩
  simp only [isBlank, Bool.or_eq_false_iff, Bool.and_eq_false_iff, beq_eq_false_iff_ne,
    decide_eq_false_iff_not]
  omega

theorem solid_toDigits (n : Nat) : Solid (Nat.toDigits 10 n) := by
  intro c present
  exact isBlank_of_isDigit (Nat.isDigit_of_mem_toDigits (by decide) (by decide) present)

theorem toDigits_injective {first second : Nat}
    (same : Nat.toDigits 10 first = Nat.toDigits 10 second) : first = second := by
  have values := congrArg (fun digits => Nat.ofDigitChars 10 digits 0) same
  simpa only [Nat.ofDigitChars_ten_toDigits] using values

/-- The digits of a number end where something else follows. -/
theorem digits_append (n : Nat) {c : Char} (apart : c.isDigit = false) (rest : List Char) :
    (Nat.toDigits 10 n ++ c :: rest).takeWhile Char.isDigit = Nat.toDigits 10 n ∧
      (Nat.toDigits 10 n ++ c :: rest).dropWhile Char.isDigit = c :: rest := by
  have digits : ∀ d ∈ Nat.toDigits 10 n, d.isDigit = true := fun d present =>
    Nat.isDigit_of_mem_toDigits (by decide) (by decide) present
  have other : ¬c.isDigit = true := by simp [apart]
  rw [List.takeWhile_append_of_pos digits, List.dropWhile_append_of_pos digits,
    List.takeWhile_cons_of_neg other, List.dropWhile_cons_of_neg other, List.append_nil]
  exact ⟨rfl, rfl⟩

end Text

open Text (Solid solid_toDigits)

namespace Naming

theorem solid_generatedName (kind : Kind) (count : Nat) :
    Solid (generatedName kind count).toList := by
  rw [generatedName, String.toList_ofList]
  cases kind <;> simp [Kind.letter, Text.isBlank, solid_toDigits]

theorem nameOf_generatedName (kind : Kind) (count : Nat) :
    Variable.nameOf (generatedName kind count) = generatedName kind count := by
  rw [Variable.nameOf, Text.unspaced_eq_self (solid_generatedName kind count),
    String.ofList_toList]

end Naming

namespace Decimal.Style

variable {style : Style} {digits : List Char}

theorem solid_replicate_zero (count : Nat) : Solid (List.replicate count '0') := by
  intro c present
  rw [List.eq_of_mem_replicate present]
  decide

theorem solid_positionalText (solid : Solid digits) (place : Int) :
    Solid (style.positionalText digits place) := by
  have point : Text.isBlank '.' = false := by decide
  have zero : Text.isBlank '0' = false := by decide
  unfold positionalText
  split
  · simp [point, zero, solid, solid_replicate_zero]
  · dsimp only
    split
    · simp [point, solid.mono (List.take_subset _ _), solid.mono (List.drop_subset _ _)]
    · split <;> simp [point, zero, solid, solid_replicate_zero]

theorem solid_exponentText (solid : Solid digits) (exponent : Int) :
    Solid (style.exponentText digits exponent) := by
  have point : Text.isBlank '.' = false := by decide
  have mark : Text.isBlank 'e' = false := by decide
  have minus : Text.isBlank '-' = false := by decide
  have plus : Text.isBlank '+' = false := by decide
  have lead : Solid (digits.take 1) := solid.mono (List.take_subset _ _)
  have rest : Solid (digits.drop 1) := solid.mono (List.drop_subset _ _)
  have power := solid_toDigits exponent.natAbs
  unfold exponentText
  dsimp only
  simp only [Text.solid_append, Text.solid_cons]
  refine ⟨⟨⟨lead, ?_⟩, mark, ?_⟩, power⟩
  · split
    · exact Text.solid_nil
    · exact Text.solid_cons.mpr ⟨point, rest⟩
  · split
    · simp [minus]
    · split <;> simp [plus]

theorem solid_textOf (d : Decimal) : Solid (style.textOf d) := by
  have minus : Text.isBlank '-' = false := by decide
  have digits := solid_toDigits d.digits
  have unsigned (place : Int) : Solid (if style.positional (place - 1) then
      style.positionalText (Nat.toDigits 10 d.digits) place
      else style.exponentText (Nat.toDigits 10 d.digits) (place - 1)) := by
    split
    · exact solid_positionalText digits place
    · exact solid_exponentText digits (place - 1)
  unfold textOf
  dsimp only
  split
  · exact Text.solid_cons.mpr ⟨minus, unsigned _⟩
  · exact unsigned _

/-- Every written number is solid. -/
theorem solid_write (style : Style) (x : Float) : Solid (style.write x).toList := by
  unfold write
  split
  · simp [Text.isBlank]
  · split
    · split <;> simp [Text.isBlank]
    · rw [String.toList_ofList]
      exact solid_textOf (shortest style.tie x)

end Decimal.Style

theorem Expression.solid_numberText (x : Float) : Solid (Expression.numberText x).toList :=
  Decimal.Style.solid_write Expression.numberStyle x

end MixedInteger
