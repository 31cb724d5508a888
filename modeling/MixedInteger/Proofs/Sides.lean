import MixedInteger.Constraint
import MixedInteger.Proofs.Laws
import MixedInteger.Proofs.Operations
import MixedInteger.Proofs.Support

/-!
# Constraints between two sides

A constraint between two expressions has everything symbolic on its left side and a bound
without a negative zero on its right.  Built again from these two sides it is the same
constraint, and with its sides exchanged every number of it becomes the opposite.
-/

namespace MixedInteger

namespace Rounding

open Float.Model (UnpackedFloat)

/-- A zero that is added leaves a value as it is, unless that is a negative zero. -/
theorem float_add_zero {x : Float} (signless : x ≠ -0.0) : x + 0 = x := by
  have packed : x = .ofModel (.pack x.toModel.unpack) := eq_of_unpack rfl
  have sum : x + 0 = .ofModel (.pack (.add .binary64 x.toModel.unpack (.zero .positive))) := rfl
  rw [sum]
  cases unpacked : x.toModel.unpack with
  | zero s =>
      rw [unpacked] at packed
      cases s with
      | negative => exact absurd packed signless
      | positive => exact packed.symm
  | _ =>
      rw [unpacked] at packed
      exact packed.symm

theorem float_add_zero_ne (x : Float) : x + 0 ≠ -0.0 := by
  by_cases negative : x = -0.0
  · rw [negative]
    decide +kernel
  · rw [float_add_zero negative]
    exact negative

end Rounding

/-- The same numbers are equal if neither is a negative zero. -/
theorem SameNumber.eq_of_signless {x y : Float} (same : SameNumber x y) (left : x ≠ -0.0)
    (right : y ≠ -0.0) : x = y := by
  rcases same.eq_or_zeros with equal | ⟨s, t, rfl, rfl⟩
  · exact equal
  · cases s with
    | negative => exact absurd rfl left
    | positive =>
        cases t with
        | negative => exact absurd rfl right
        | positive => rfl

open Rounding

namespace Constraint

/-- The left side has no constant, and the bound is no negative zero. -/
structure IsCanonical (c : Constraint Float) : Prop where
  constant : c.left.constant = 0
  bound : c.right ≠ -0.0

variable (a b : Expression Float) (relation : Relation)

theorem isCanonical_between : (between a relation b).IsCanonical :=
  ⟨rfl, float_add_zero_ne _⟩

theorem sameNumber_right :
    SameNumber (between a relation b).right (b.constant - a.constant) := by
  have moved : (between a relation b).right = -(a.constant + -b.constant) + 0 :=
    congrArg (- · + 0) (Expression.constant_sub a b)
  rw [moved, float_sub_eq_add_neg]
  exact (SameNumber.add_zero _).trans (SameNumber.neg_sub _ _)

/-- A constant on the right only moves the bound. -/
theorem between_ofConstant (x : Float) :
    between a relation (.ofConstant x) = ⟨a.withoutConstant, relation, -(a.constant + -x) + 0⟩ := by
  have difference : a - .ofConstant x = ⟨a.terms, a.constant + -x⟩ := by
    change a.merged (Expression.ofConstant x).negated = _
    rw [Expression.negated_ofConstant, Expression.merged_ofConstant]
  rw [between, difference]
  rfl

variable {a b relation} {c d : Constraint Float}

/-- A canonical constraint is built again from its own sides. -/
theorem IsCanonical.between_eq (canonical : c.IsCanonical) :
    between c.left c.relation (.ofConstant c.right) = c := by
  obtain ⟨left, relation, right⟩ := c
  obtain ⟨constant, bound⟩ := canonical
  dsimp only at constant bound ⊢
  rw [between_ofConstant, constant, SameNumber.neg_add_zero (.zero_add (-right)), float_neg_neg,
    float_add_zero bound, Expression.withoutConstant, ← constant]

theorem between_sub_eq : between (a - b) relation (.ofConstant 0) = between a relation b := by
  have same : SameNumber ((a - b).constant + -0) (a - b).constant :=
    ((SameNumber.refl _).add (.inr rfl)).trans (.add_zero _)
  rw [between_ofConstant, same.neg_add_zero]
  rfl

/-- The names on the left are those of both sides. -/
theorem mem_names_between {name : String} :
    name ∈ (between a relation b).vars.map Variable.name ↔
      name ∈ a.vars.map Variable.name ∨ name ∈ b.vars.map Variable.name := by
  have left : (between a relation b).left.var? name = (a.var? name).or (b.var? name) :=
    Expression.var?_sub a b name
  rw [vars, Expression.mem_names_iff, Expression.mem_names_iff, Expression.mem_names_iff, left,
    Option.isSome_or, Bool.or_eq_true]

/-- Numbers of which the second is the opposite of the first. -/
def Opposite (x y : Float) : Prop := SameNumber y (-x)

/-- With the sides exchanged, the coefficient of every name is the opposite one. -/
theorem rel_coefficient?_swap (relation mirrored : Relation) (name : String) :
    Option.Rel Opposite ((between a relation b).left.coefficient? name)
      ((between b mirrored a).left.coefficient? name) := by
  have opposite := (Expression.SameByName.sub_eq_neg_sub b a).coefficients name
  rw [Expression.coefficient?_neg] at opposite
  change Option.Rel Opposite ((a - b).coefficient? name) ((b - a).coefficient? name)
  generalize (a - b).coefficient? name = x at opposite ⊢
  generalize (b - a).coefficient? name = y at opposite ⊢
  cases x <;> cases y <;> cases opposite
  · exact .none
  · exact .some ‹_›

theorem opposite_right (relation mirrored : Relation) :
    Opposite (between a relation b).right (between b mirrored a).right := by
  have first := sameNumber_right a b relation
  have second := sameNumber_right b a mirrored
  rw [float_sub_eq_add_neg] at first second
  exact second.trans ((SameNumber.neg_sub _ _).symm.trans first.neg.symm)

/-- Canonical constraints that compare equal have one text, for their zeros have no signs. -/
theorem text_eq_of_beq (canonical : c.IsCanonical) (canonical' : d.IsCanonical)
    (equal : (c == d) = true) : c.text = d.text := by
  obtain ⟨sides, right⟩ := (Bool.and_eq_true _ _).mp equal
  obtain ⟨left, relation⟩ := (Bool.and_eq_true _ _).mp sides
  have same : SameNumber c.right d.right := .inr right
  have bounds := same.eq_of_signless canonical.bound canonical'.bound
  rw [text, text, (Expression.SameByName.of_beq left).text_eq, eq_of_beq relation, bounds]

/--
The canonical form of a constraint between two expressions.  Its left side has no constant and
the names of both sides, its relation is the given one, and its bound is the constant of the
right side minus that of the left side, never a negative zero.  It is the same constraint
when it is built again from its own two sides, and when everything is moved to the left
before.  With the sides exchanged, the coefficients and the bound are the opposite ones.
Two such constraints that compare equal have the same text.
-/
theorem canonical_form (a b : Expression Float) (relation : Relation) :
    (between a relation b).left.constant = 0.0 ∧
    (∀ name, name ∈ (between a relation b).vars.map Variable.name ↔
      name ∈ a.vars.map Variable.name ∨ name ∈ b.vars.map Variable.name) ∧
    (between a relation b).relation = relation ∧
    (between a relation b).right ≠ -0.0 ∧
    SameNumber (between a relation b).right (b.constant - a.constant) ∧
    between (between a relation b).left relation (.ofConstant (between a relation b).right) =
      between a relation b ∧
    between (a - b) relation (.ofConstant 0.0) = between a relation b ∧
    (∀ mirrored : Relation,
      (between b mirrored a).relation = mirrored ∧
      (∀ name, Option.Rel Opposite ((between a relation b).left.coefficient? name)
        ((between b mirrored a).left.coefficient? name)) ∧
      Opposite (between a relation b).right (between b mirrored a).right) ∧
    ∀ (a' b' : Expression Float) (relation' : Relation),
      (between a relation b == between a' relation' b') = true →
      (between a relation b).text = (between a' relation' b').text := by
  have canonical := isCanonical_between a b relation
  refine ⟨rfl, fun _ => mem_names_between, rfl, canonical.bound, sameNumber_right a b relation,
    canonical.between_eq, between_sub_eq, fun mirrored => ⟨rfl, ?_, ?_⟩, fun a' b' relation' => ?_⟩
  · exact rel_coefficient?_swap relation mirrored
  · exact opposite_right relation mirrored
  · exact text_eq_of_beq canonical (isCanonical_between a' b' relation')

/-- A zero of each sign, and a variable of each of two kinds. -/
theorem zeros_compare_equal :
    let x : Expression Float := .term (.named .binary "x") 0.0
    let x' : Expression Float := .term (.named .integer "x") (-0.0)
    (between x .lessEqual (.ofConstant 0.0) == between x' .lessEqual (.ofConstant (-0.0))) = true ∧
    (between x .lessEqual (.ofConstant 0.0)).text =
      (between x' .lessEqual (.ofConstant (-0.0))).text := by
  intro x x'
  have equal : (between x .lessEqual (.ofConstant 0.0) ==
      between x' .lessEqual (.ofConstant (-0.0))) = true := by decide +kernel
  obtain ⟨-, -, -, -, -, -, -, -, texts⟩ := canonical_form x (.ofConstant 0.0) .lessEqual
  exact ⟨equal, texts _ _ _ equal⟩

end Constraint

end MixedInteger
