import MixedInteger.Proofs.Coefficients
import MixedInteger.Proofs.Opposites

/-!
# Laws without rounding

Some laws of arithmetic hold for expressions although every operation on their numbers is
rounded: those in which both sides round the same numbers, or numbers that are opposite.
The two sides have the same numbers under the same names, and so they have the same text.
-/

namespace MixedInteger.Expression

open Rounding

theorem constant_neg (a : Expression Float) : (-a).constant = -a.constant :=
  float_mul_minusOne a.constant

theorem constant_sub (a b : Expression Float) : (a - b).constant = a.constant + -b.constant :=
  congrArg (a.constant + ·) (constant_neg b)

namespace SameByName

/-! ## Sums and differences -/

theorem add_comm (a b : Expression Float) : (a + b).SameByName (b + a) := by
  refine of_coefficient?_eq (fun name => ?_) (.inl (float_add_comm _ _))
  rw [coefficient?_add, coefficient?_add]
  cases a.coefficient? name with
  | none => cases b.coefficient? name <;> rfl
  | some x =>
      cases b.coefficient? name with
      | none => rfl
      | some y => exact congrArg some (float_add_comm x y)

/-- Nothing but the sign of a zero constant is lost when zero is added. -/
theorem add_zero (a : Expression Float) : (a + ofConstant 0).SameByName a := by
  refine of_coefficient?_eq (fun name => ?_) (.add_zero a.constant)
  rw [coefficient?_add, coefficient?_ofConstant, Option.merge_none_right]

/-- A name that one side alone has is negated once or twice, and no sum is rounded there. -/
theorem sub_eq_neg_sub (a b : Expression Float) : (a - b).SameByName (-(b - a)) := by
  constructor
  · intro name
    rw [sub_eq_add_neg, sub_eq_add_neg, coefficient?_neg, coefficient?_add, coefficient?_add,
      coefficient?_neg, coefficient?_neg]
    cases a.coefficient? name with
    | none =>
        cases b.coefficient? name with
        | none => exact .none
        | some y => exact .some (.refl (-y))
    | some x =>
        cases b.coefficient? name with
        | none => exact .some (.inl (float_neg_neg x).symm)
        | some y => exact .some (SameNumber.neg_sub y x).symm
  · rw [constant_neg, constant_sub, constant_sub]
    exact (SameNumber.neg_sub _ _).symm

/-! ## Multiples -/

theorem neg_neg (a : Expression Float) : (- -a).SameByName a := by
  have constant : (- -a).constant = a.constant := by
    rw [constant_neg, constant_neg, float_neg_neg]
  refine of_coefficient?_eq (fun name => ?_) (.inl constant)
  rw [coefficient?_neg, coefficient?_neg, Option.map_map]
  have twice : ((- ·) ∘ (- ·) : Float → Float) = id := funext float_neg_neg
  rw [twice, Option.map_id]
  rfl

theorem add_self (a : Expression Float) : (a + a).SameByName (a.scaled 2) := by
  refine of_coefficient?_eq (fun name => ?_) (.inl (float_add_self _))
  rw [coefficient?_add, coefficient?_scaled]
  cases a.coefficient? name with
  | none => rfl
  | some x => exact congrArg some (float_add_self x)

theorem scaled_one (a : Expression Float) : (a.scaled 1).SameByName a := by
  refine of_coefficient?_eq (fun name => ?_) (.inl (float_mul_one _))
  rw [coefficient?_scaled, funext float_mul_one]
  exact Option.map_id'

end SameByName

/--
The laws that rounding does not disturb.  A sum does not depend on the order of its two
sides, a double negation and a zero that is added change nothing, a difference is the
opposite of the difference taken the other way round, and sums of an expression with itself
and negations are products with two and with minus one.  The sides have the same numbers
under the same names, whether a name is on one side or on both, and they have one text.
-/
theorem laws_without_rounding (a b : Expression Float) :
    ((a + b).SameByName (b + a) ∧ (a + b).text = (b + a).text) ∧
    ((-(-a)).SameByName a ∧ (-(-a)).text = a.text) ∧
    ((a - b).SameByName (-(b - a)) ∧ (a - b).text = (-(b - a)).text) ∧
    ((a + a).SameByName ((2.0 : Float) * a) ∧ (a + a).text = ((2.0 : Float) * a).text) ∧
    (((1.0 : Float) * a).SameByName a ∧ ((1.0 : Float) * a).text = a.text) ∧
    (((-1.0 : Float) * a).SameByName (-a) ∧ ((-1.0 : Float) * a).text = (-a).text) ∧
    ((a + ofConstant 0.0).SameByName a ∧ (a + ofConstant 0.0).text = a.text) := by
  have alike {left right : Expression Float} (same : left.SameByName right) :
      left.SameByName right ∧ left.text = right.text := ⟨same, same.text_eq⟩
  have two : (2.0 : Float) = 2 := rfl
  have one : (1.0 : Float) = 1 := rfl
  have zero : (0.0 : Float) = 0 := rfl
  have opposite : (-1.0 : Float) * a = -a := rfl
  rw [opposite, two, one, zero]
  exact ⟨alike (.add_comm a b), alike (.neg_neg a), alike (.sub_eq_neg_sub a b),
    alike (.add_self a), alike (.scaled_one a), alike (.refl _), alike (.add_zero a)⟩

end MixedInteger.Expression
