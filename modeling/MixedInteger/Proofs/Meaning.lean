import Mathlib.Algebra.BigOperators.Group.List.Basic
import Mathlib.Algebra.Order.Group.Defs
import Mathlib.Algebra.Order.Ring.Rat
import Mathlib.Tactic.NormNum
import Mathlib.Tactic.Ring
import MixedInteger.Proofs.Evaluation

/-!
# The meaning of models

Over numbers that are not rounded, a formula has a value once every name has one,
and a requirement holds or fails.  A compiled document says the same as the document:
its objective has the same value, and its constraints hold for the same values.
-/

namespace MixedInteger

/-- The relation holds between two numbers. -/
def Relation.Holds {R : Type} [LE R] [LT R] : Relation → R → R → Prop
  | less, x, y => x < y
  | lessEqual, x, y => x ≤ y
  | greater, x, y => x > y
  | greaterEqual, x, y => x ≥ y
  | equal, x, y => x = y

section

variable {R : Type} [CommRing R] (assign : String → R)

mutual

/-- The number that a formula stands for if names, blanks aside, stand for numbers. -/
def Formula.value : Formula R → R
  | .number value => value
  | .name text => assign (Variable.nameOf text)
  | .sum items => Formula.valueOfItems items
  | .difference left right => left.value - right.value
  | .product left right => left.value * right.value
  | .opposite inner => -inner.value

/-- The sum of the values of some formulas. -/
def Formula.valueOfItems : List (Formula R) → R
  | [] => 0
  | item :: rest => item.value + Formula.valueOfItems rest

end

/-- The sum of the coefficients of an expression, each times the value of its name. -/
def Expression.linearValue (e : Expression R) : R :=
  (e.terms.entries.map fun p => p.2 * assign p.1.name).sum

/-- The value of an expression. -/
def Expression.value (e : Expression R) : R :=
  e.linearValue assign + e.constant

section

variable [LE R] [LT R]

/-- A requirement holds if its relation does between the values of its sides. -/
def Requirement.Holds (requirement : Requirement R) : Prop :=
  requirement.relation.Holds (requirement.left.value assign) (requirement.right.value assign)

/-- A constraint holds if its relation does between its terms and its bound. -/
def Constraint.Holds (c : Constraint R) : Prop :=
  c.relation.Holds (c.left.linearValue assign) c.right

end

/-! ## Values of expressions -/

section

variable {f : R → Option R → R} (new : ∀ c, f c none = c) (old : ∀ c a, f c (some a) = a + c)
include new old

theorem sum_upsert (v : Variable) (c : R) (entries : List (Variable × R)) :
    ((Table.upsert v (f c) entries).map fun p => p.2 * assign p.1.name).sum =
      (entries.map fun p => p.2 * assign p.1.name).sum + c * assign v.name := by
  induction entries with
  | nil => simp [Table.upsert, new]
  | cons entry rest ih =>
      obtain ⟨w, a⟩ := entry
      simp only [Table.upsert]
      split
      case isTrue before =>
        simp only [List.map_cons, List.sum_cons, new]
        ring
      case isFalse notBefore =>
        split
        case isTrue same =>
          have names : v.name = w.name := same
          simp only [List.map_cons, List.sum_cons, old, names]
          ring
        case isFalse different =>
          simp only [List.map_cons, List.sum_cons, ih]
          ring

theorem sum_foldl_update (added : List (Variable × R)) (table : Table Variable R) :
    ((added.foldl (fun acc p => acc.update p.1 (f p.2)) table).entries.map
        fun p => p.2 * assign p.1.name).sum =
      (table.entries.map fun p => p.2 * assign p.1.name).sum +
        (added.map fun p => p.2 * assign p.1.name).sum := by
  induction added generalizing table with
  | nil => simp
  | cons entry rest ih =>
      rw [List.foldl_cons, ih, Table.update, sum_upsert assign new old, List.map_cons,
        List.sum_cons, add_assoc]

end

namespace Expression

theorem linearValue_add (a b : Expression R) :
    (a + b).linearValue assign = a.linearValue assign + b.linearValue assign := by
  have added : (a + b).terms = b.terms.entries.foldl
      (fun acc p => acc.update p.1 fun present? => present?.elim p.2 (· + p.2)) a.terms := by
    change addTerms a.terms b.terms = _
    unfold addTerms
    congr 1
    funext acc p
    congr 1
    funext present?
    cases present? <;> rfl
  rw [linearValue, linearValue, linearValue, added]
  exact sum_foldl_update assign (f := fun c present? => present?.elim c (· + c))
    (fun _ => rfl) (fun _ _ => rfl) b.terms.entries a.terms

theorem linearValue_scaled (a : Expression R) (factor : R) :
    (a.scaled factor).linearValue assign = a.linearValue assign * factor := by
  have entries : (a.scaled factor).terms.entries =
      a.terms.entries.map fun p => (p.1, p.2 * factor) := rfl
  rw [linearValue, linearValue, entries, List.map_map]
  induction a.terms.entries with
  | nil => simp
  | cons entry rest ih =>
      rw [List.map_cons, List.sum_cons, List.map_cons, List.sum_cons, ih, add_mul]
      congr 1
      exact mul_right_comm entry.2 factor (assign entry.1.name)

theorem linearValue_sub (a b : Expression R) :
    (a - b).linearValue assign = a.linearValue assign - b.linearValue assign := by
  change (a + b.scaled (-1)).linearValue assign = _
  rw [linearValue_add, linearValue_scaled]
  ring

@[simp] theorem value_ofConstant (constant : R) : (ofConstant constant).value assign = constant := by
  simp [value, linearValue, ofConstant, Table.empty]

@[simp] theorem value_ofVariable (v : Variable) :
    (ofVariable v : Expression R).value assign = assign v.name := by
  simp [value, linearValue, ofVariable, term, Table.update, Table.empty, Table.upsert]

@[simp] theorem value_add (a b : Expression R) :
    (a + b).value assign = a.value assign + b.value assign := by
  have constants : (a + b).constant = a.constant + b.constant := rfl
  rw [value, value, value, linearValue_add, constants]
  ring

@[simp] theorem value_scaled (a : Expression R) (factor : R) :
    (a.scaled factor).value assign = a.value assign * factor := by
  have constants : (a.scaled factor).constant = a.constant * factor := rfl
  rw [value, value, linearValue_scaled, constants]
  ring

@[simp] theorem value_neg (a : Expression R) : (-a).value assign = -a.value assign := by
  change (a.scaled (-1)).value assign = _
  rw [value_scaled]
  ring

end Expression

/-! ## Values of quantities and formulas -/

/-- The value of a quantity. -/
def Quantity.value (q : Quantity R) : R :=
  q.toExpression.value assign

namespace Quantity

theorem value_plus (a b : Quantity R) :
    (a.plus b).value assign = a.value assign + b.value assign := by
  cases a <;> cases b <;> simp [plus, value, toExpression]

theorem value_negated (a : Quantity R) : a.negated.value assign = -a.value assign := by
  cases a <;> simp [negated, value, toExpression]

theorem value_minus (a b : Quantity R) :
    (a.minus b).value assign = a.value assign - b.value assign := by
  rw [minus, value_plus, value_negated, sub_eq_add_neg]

/-- A product that is a quantity has the product of the values; which side is a number is no matter. -/
theorem value_times {a b c : Quantity R} (linear : a.times b = .ok c) :
    c.value assign = a.value assign * b.value assign := by
  have scaled (x : R) (e : Expression R) :
      (e * x).value assign = e.value assign * x := Expression.value_scaled assign e x
  cases a <;> cases b <;> cases linear <;> simp [value, toExpression, scaled, mul_comm]

end Quantity

theorem Formula.valueOfItems_append (first second : List (Formula R)) :
    Formula.valueOfItems assign (first ++ second) =
      Formula.valueOfItems assign first + Formula.valueOfItems assign second := by
  induction first with
  | nil => simp [Formula.valueOfItems]
  | cons item rest ih =>
      rw [List.cons_append, Formula.valueOfItems, Formula.valueOfItems, ih, add_assoc]

theorem Formula.value_of_denotes {scope : List Variable} {formula : Formula R} {q : Quantity R}
    (denotes : formula.Denotes scope q) : q.value assign = formula.value assign := by
  induction denotes with
  | number value => exact Expression.value_ofConstant assign value
  | @name text v resolved =>
      rw [Formula.value, ← name_of_resolveName resolved]
      exact Expression.value_ofVariable assign v
  | emptySum => exact Expression.value_ofConstant assign 0
  | largerSum before last ihBefore ihLast =>
      rw [Formula.value] at ihBefore
      rw [Quantity.value_plus, ihBefore, ihLast, Formula.value, valueOfItems_append]
      simp only [valueOfItems, add_zero]
  | difference first second ihFirst ihSecond =>
      rw [Quantity.value_minus, ihFirst, ihSecond, Formula.value]
  | product first second linear ihFirst ihSecond =>
      rw [Quantity.value_times assign linear, ihFirst, ihSecond, Formula.value]
  | opposite only ih => rw [Quantity.value_negated, ih, Formula.value]

end

/-! ## Requirements and constraints -/

section

variable {R : Type} [CommRing R] [PartialOrder R] [IsOrderedAddMonoid R]

/-- A relation holds between two numbers if it holds between their difference and zero. -/
theorem Relation.holds_sub_zero (relation : Relation) (x y : R) :
    relation.Holds (x - y) 0 ↔ relation.Holds x y := by
  cases relation with
  | less => exact sub_neg
  | lessEqual => exact sub_nonpos
  | greater => exact sub_pos
  | greaterEqual => exact sub_nonneg
  | equal => exact sub_eq_zero

/-- Moving terms to the left and constants to the right changes no relation. -/
theorem Constraint.holds_between (assign : String → R) (a b : Expression R) (relation : Relation) :
    (Constraint.between a relation b).Holds assign ↔
      relation.Holds (a.value assign) (b.value assign) := by
  have terms : (Constraint.between a relation b).left.linearValue assign =
      a.linearValue assign - b.linearValue assign := Expression.linearValue_sub assign a b
  have bound : (Constraint.between a relation b).right =
      -(a.constant + b.constant * -1) + 0 := rfl
  have apart : (Constraint.between a relation b).left.linearValue assign -
      (Constraint.between a relation b).right = a.value assign - b.value assign := by
    rw [terms, bound, Expression.value, Expression.value]
    ring
  rw [Constraint.Holds, ← Relation.holds_sub_zero, apart]
  exact Relation.holds_sub_zero relation _ _

theorem Requirement.holds_iff_of_denotes {scope : List Variable} {requirement : Requirement R}
    {c : Constraint R} (denotes : requirement.Denotes scope c) (assign : String → R) :
    c.Holds assign ↔ requirement.Holds assign := by
  obtain ⟨a, b, first, second, rfl⟩ := denotes
  rw [Constraint.holds_between, Requirement.Holds,
    ← Formula.value_of_denotes assign first, ← Formula.value_of_denotes assign second]
  rfl

/--
A compiled document means what the document says.  Its objective has the written direction
and the value of the written objective, and its constraints are, one by one and in order,
free of constants on the left, of the written relation, and true for the same values of
the variables.
-/
theorem Document.compile_preserves_meaning {document : Document R} {model : Model R}
    (compiled : document.compile = .ok model) (assign : String → R) :
    model.direction = document.direction ∧
    model.objective.value assign = document.objective.value assign ∧
    model.constraints.length = document.requirements.length ∧
    ∀ (i : Nat) (made : i < model.constraints.length) (written : i < document.requirements.length),
      model.constraints[i].relation = document.requirements[i].relation ∧
      model.constraints[i].left.constant = 0 ∧
      (model.constraints[i].Holds assign ↔ document.requirements[i].Holds assign) := by
  have denotes := Document.denotes_of_compile compiled
  refine ⟨denotes.direction, ?_, denotes.constraints.length_eq.symm, ?_⟩
  · obtain ⟨q, objective, same⟩ := denotes.objective
    rw [same]
    exact Formula.value_of_denotes assign objective
  · intro i made written
    have pair := denotes.constraints.get written made
    refine ⟨?_, ?_, Requirement.holds_iff_of_denotes pair assign⟩
    · obtain ⟨a, b, first, second, same⟩ := pair
      exact congrArg Constraint.relation same
    · obtain ⟨a, b, first, second, same⟩ := pair
      exact congrArg (fun c => c.left.constant) same

end

/-- Both sides of its constraint have a term and a constant, and its sum stands in a product. -/
def Document.twoSided : Document ℚ where
  direction := .maximize
  declarations := [⟨some "x 1", .integer⟩, ⟨none, .binary⟩]
  objective := .product (.number 2) (.difference (.name "x1") (.sum [.name "ub1", .number 3]))
  requirements :=
    [⟨.difference (.name "x1") (.opposite (.number 7)), .less,
      .product (.name "ub 1") (.number (-4))⟩]

/-- With both names at five the objective is `2 * (5 - (5 + 3))`, and `5 + 7 < 5 * -4` fails. -/
theorem Document.twoSided_keeps_meaning :
    ∃ model : Model ℚ, twoSided.compile = .ok model ∧
      model.objective.value (fun _ => 5) = -6 ∧ model.constraints.length = 1 ∧
      ∀ c ∈ model.constraints, ¬ c.Holds fun _ => 5 := by
  obtain ⟨model, compiled⟩ : ∃ model, twoSided.compile = .ok model := ⟨_, rfl⟩
  obtain ⟨-, objective, count, each⟩ := compile_preserves_meaning compiled fun _ => 5
  refine ⟨model, compiled, ?_, count, ?_⟩
  · rw [objective]
    norm_num [twoSided, Formula.value, Formula.valueOfItems]
  · intro c present
    obtain ⟨i, made, rfl⟩ := List.mem_iff_getElem.mp present
    have written : i < twoSided.requirements.length := made.trans_eq count
    obtain ⟨-, -, holds⟩ := each i made written
    have first : i = 0 := Nat.lt_one_iff.mp written
    subst first
    rw [holds]
    change ¬ (5 - -7 < 5 * (-4 : ℚ))
    norm_num

end MixedInteger
