import Mathlib.Data.List.Forall2
import MixedInteger.Proofs.Evaluation
import MixedInteger.Proofs.Operations

/-!
# Evaluations side by side

Two evaluations that take related parts to related parts stop at related errors or go on to
related results.  What is compared are expressions, by any relation that the operations of a
model respect, and the texts of names, by any relation at all; quantities are compared as
expressions, and it has to be the same ones that are numbers.
-/

namespace MixedInteger

/-- Both results are errors, or both are values, and they are related accordingly. -/
inductive SameOutcome {ε δ α β : Type} (E : ε → δ → Prop) (A : α → β → Prop) :
    Except ε α → Except δ β → Prop where
  | error {e : ε} {d : δ} (related : E e d) : SameOutcome E A (.error e) (.error d)
  | ok {a : α} {b : β} (related : A a b) : SameOutcome E A (.ok a) (.ok b)

namespace SameOutcome

variable {ε δ α β α' β' : Type} {E : ε → δ → Prop} {A : α → β → Prop} {B : α' → β' → Prop}
  {first : Except ε α} {second : Except δ β}

theorem bind {next : α → Except ε α'} {next' : β → Except δ β'}
    (same : SameOutcome E A first second)
    (step : ∀ {a b}, A a b → SameOutcome E B (next a) (next' b)) :
    SameOutcome E B (first >>= next) (second >>= next') := by
  cases same with
  | error related => exact .error related
  | ok related => exact step related

/-- What follows on one outcome is related if it is wherever that is a value. -/
theorem bind_self {E : ε → ε → Prop} (errors : ∀ e, E e e) (outcome : Except ε α)
    {next : α → Except ε α'} {next' : α → Except ε β'}
    (step : ∀ a, SameOutcome E B (next a) (next' a)) :
    SameOutcome E B (outcome >>= next) (outcome >>= next') := by
  cases outcome with
  | error e => exact .error (errors e)
  | ok a => exact step a

theorem map {f : α → α'} {g : β → β'} (same : SameOutcome E A first second)
    (step : ∀ {a b}, A a b → B (f a) (g b)) : SameOutcome E B (first.map f) (second.map g) := by
  cases same with
  | error related => exact .error related
  | ok related => exact .ok (step related)

theorem imp {E' : ε → δ → Prop} {A' : α → β → Prop} (same : SameOutcome E A first second)
    (errors : ∀ {e d}, E e d → E' e d) (values : ∀ {a b}, A a b → A' a b) :
    SameOutcome E' A' first second := by
  cases same with
  | error related => exact .error (errors related)
  | ok related => exact .ok (values related)

theorem refl {E : ε → ε → Prop} {A : α → α → Prop} (errors : ∀ e, E e e) (values : ∀ a, A a a)
    (outcome : Except ε α) : SameOutcome E A outcome outcome := by
  cases outcome with
  | error e => exact .error (errors e)
  | ok a => exact .ok (values a)

theorem trans {E : ε → ε → Prop} {A : α → α → Prop} {first second third : Except ε α}
    (errors : ∀ {e f g}, E e f → E f g → E e g) (values : ∀ {a b c}, A a b → A b c → A a c)
    (one : SameOutcome E A first second) (other : SameOutcome E A second third) :
    SameOutcome E A first third := by
  cases one with
  | error related =>
      cases other with
      | error related' => exact .error (errors related related')
  | ok related =>
      cases other with
      | ok related' => exact .ok (values related related')

end SameOutcome

namespace Expression

/-- A relation between expressions that everything done to them in a model respects. -/
structure Congruence (V : Expression Float → Expression Float → Prop) : Prop where
  refl (a : Expression Float) : V a a
  add {a b c d : Expression Float} : V a b → V c d → V (a + c) (b + d)
  scaled {a b : Expression Float} {x y : Float} :
    V a b → V (ofConstant x) (ofConstant y) → V (a.scaled x) (b.scaled y)
  withoutConstant {a b : Expression Float} : V a b → V a.withoutConstant b.withoutConstant
  /-- Related constants are the same number when they become bounds. -/
  bound {a b : Expression Float} : V a b → -a.constant + 0 = -b.constant + 0

variable {V : Expression Float → Expression Float → Prop} {a b c d : Expression Float}

theorem Congruence.neg (congruence : Congruence V) (same : V a b) : V (-a) (-b) :=
  congruence.scaled same (congruence.refl _)

theorem Congruence.sub (congruence : Congruence V) (left : V a b) (right : V c d) :
    V (a - c) (b - d) :=
  congruence.add left (congruence.neg right)

theorem congruence_eq : Congruence Eq where
  refl _ := rfl
  add := by
    rintro a _ c _ rfl rfl
    rfl
  scaled := by
    rintro a _ x y rfl factors
    have equal : x = y := congrArg Expression.constant factors
    rw [equal]
  withoutConstant := by
    rintro a _ rfl
    rfl
  bound := by
    rintro a _ rfl
    rfl

end Expression

/-- Constraints with related left sides, and equal in everything else. -/
structure Constraint.Alike (V : Expression Float → Expression Float → Prop)
    (c d : Constraint Float) : Prop where
  left : V c.left d.left
  relation : c.relation = d.relation
  right : c.right = d.right

/-- Models with related objectives and constraints, whatever their variables are. -/
structure Model.Alike (V : Expression Float → Expression Float → Prop)
    (model other : Model Float) : Prop where
  direction : model.direction = other.direction
  objective : V model.objective other.objective
  constraints : List.Forall₂ (Constraint.Alike V) model.constraints other.constraints

/-- Errors of one variant whose expressions and unknown names are related. -/
inductive ModelError.Alike (V : Expression Float → Expression Float → Prop)
    (N : String → String → Prop) : ModelError Float → ModelError Float → Prop where
  | symbolicProduct {p q : SymbolicProduct Float} (left : V p.left q.left)
      (right : V p.right q.right) : Alike V N (.symbolicProduct p) (.symbolicProduct q)
  | unknownVariable {s t : String} (names : N s t) :
      Alike V N (.unknownVariable s) (.unknownVariable t)
  | duplicateVariable (name : String) :
      Alike V N (.duplicateVariable name) (.duplicateVariable name)

theorem ModelError.Alike.refl {V : Expression Float → Expression Float → Prop}
    {N : String → String → Prop} (expressions : ∀ a, V a a) (names : ∀ s, N s s)
    (error : ModelError Float) : error.Alike V N error := by
  cases error with
  | symbolicProduct product => exact .symbolicProduct (expressions _) (expressions _)
  | unknownVariable name => exact .unknownVariable (names name)
  | duplicateVariable name => exact .duplicateVariable name

section

variable {V : Expression Float → Expression Float → Prop} {N : String → String → Prop}

/-! ## Quantities -/

namespace Quantity

/-- Quantities that are related as expressions, both of them numbers or neither. -/
structure Alike (V : Expression Float → Expression Float → Prop) (a b : Quantity Float) :
    Prop where
  symbolic : a.isSymbolic = b.isSymbolic
  expression : V a.toExpression b.toExpression

theorem eq_number_of_not_isSymbolic {a : Quantity Float} (plain : a.isSymbolic = false) :
    ∃ x, a = .number x := by
  cases a with
  | number x => exact ⟨x, rfl⟩
  | symbol v => cases plain
  | expression e => cases plain

theorem times_of_isSymbolic {a b : Quantity Float} (left : a.isSymbolic = true)
    (right : b.isSymbolic = true) : a.times b = .error ⟨a.toExpression, b.toExpression⟩ := by
  cases a <;> cases left <;> cases b <;> cases right <;> rfl

namespace Alike

variable {a b c d : Quantity Float} (congruence : Expression.Congruence V)
include congruence

theorem refl (a : Quantity Float) : Alike V a a := ⟨rfl, congruence.refl _⟩

theorem plus (left : Alike V a b) (right : Alike V c d) : Alike V (a.plus c) (b.plus d) := by
  constructor
  · rw [isSymbolic_plus, isSymbolic_plus, left.symbolic, right.symbolic]
  · rw [toExpression_plus, toExpression_plus]
    exact congruence.add left.expression right.expression

theorem negated (same : Alike V a b) : Alike V a.negated b.negated := by
  constructor
  · rw [isSymbolic_negated, isSymbolic_negated, same.symbolic]
  · rw [toExpression_negated, toExpression_negated]
    exact congruence.neg same.expression

theorem minus (left : Alike V a b) (right : Alike V c d) : Alike V (a.minus c) (b.minus d) :=
  left.plus congruence (right.negated congruence)

/-- Related products are both linear or both symbolic, and then of related sides. -/
theorem times (left : Alike V a b) (right : Alike V c d) :
    SameOutcome (fun p q => V p.left q.left ∧ V p.right q.right) (Alike V)
      (a.times c) (b.times d) := by
  cases first : a.isSymbolic with
  | false =>
      obtain ⟨x, rfl⟩ := eq_number_of_not_isSymbolic first
      obtain ⟨y, rfl⟩ := eq_number_of_not_isSymbolic (left.symbolic.symm.trans first)
      obtain ⟨e, made, value, symbolic⟩ := number_times x c
      obtain ⟨f, made', value', symbolic'⟩ := number_times y d
      rw [made, made']
      refine .ok ⟨by rw [symbolic, symbolic', right.symbolic], ?_⟩
      rw [value, value']
      exact congruence.scaled right.expression left.expression
  | true =>
      cases second : c.isSymbolic with
      | false =>
          obtain ⟨x, rfl⟩ := eq_number_of_not_isSymbolic second
          obtain ⟨y, rfl⟩ := eq_number_of_not_isSymbolic (right.symbolic.symm.trans second)
          obtain ⟨e, made, value, symbolic⟩ := a.times_number x
          obtain ⟨f, made', value', symbolic'⟩ := b.times_number y
          rw [made, made']
          refine .ok ⟨by rw [symbolic, symbolic', left.symbolic], ?_⟩
          rw [value, value']
          exact congruence.scaled left.expression right.expression
      | true =>
          rw [times_of_isSymbolic first second, times_of_isSymbolic
            (left.symbolic.symm.trans first) (right.symbolic.symm.trans second)]
          exact .error ⟨left.expression, right.expression⟩

end Alike

end Quantity

/-! ## Formulas -/

namespace Formula

/-- The formulas stop at related errors or stand for related quantities. -/
def Agree (V : Expression Float → Expression Float → Prop) (N : String → String → Prop)
    (scope scope' : List Variable) (formula other : Formula Float) : Prop :=
  SameOutcome (ModelError.Alike V N) (Quantity.Alike V) (formula.quantity scope)
    (other.quantity scope')

namespace Agree

variable {scope scope' : List Variable} {left right left' right' : Formula Float}
  (congruence : Expression.Congruence V)
include congruence

theorem number (x : Float) : Agree V N scope scope' (.number x) (.number x) :=
  .ok (.refl congruence _)

/-- Names agree if they are related and refer to one variable, or both to none. -/
theorem name {text other : String} (names : N text other)
    (resolved : resolveName scope text = resolveName scope' other) :
    Agree V N scope scope' (.name text) (.name other) := by
  rw [Agree, quantity, quantity, resolved]
  cases resolveName scope' other with
  | none => exact .error (.unknownVariable names)
  | some v => exact .ok (.refl congruence _)

/-- The invariant of a sum: what has been added up so far is related. -/
theorem total {items items' : List (Formula Float)}
    (agree : List.Forall₂ (Agree V N scope scope') items items') {before before' : Quantity Float}
    (sofar : before.Alike V before') :
    SameOutcome (ModelError.Alike V N) (Quantity.Alike V) (Formula.total scope before items)
      (Formula.total scope' before' items') := by
  induction agree generalizing before before' with
  | nil => exact .ok sofar
  | cons head tail ih =>
      rw [Formula.total, Formula.total]
      exact head.bind fun related => ih (sofar.plus congruence related)

theorem sum {items items' : List (Formula Float)}
    (agree : List.Forall₂ (Agree V N scope scope') items items') :
    Agree V N scope scope' (.sum items) (.sum items') := by
  rw [Agree, quantity, quantity]
  exact total congruence agree (.refl congruence _)

theorem difference (first : Agree V N scope scope' left left')
    (second : Agree V N scope scope' right right') :
    Agree V N scope scope' (.difference left right) (.difference left' right') := by
  rw [Agree, quantity, quantity]
  exact first.bind fun a => second.bind fun b => .ok (a.minus congruence b)

theorem product (first : Agree V N scope scope' left left')
    (second : Agree V N scope scope' right right') :
    Agree V N scope scope' (.product left right) (.product left' right') := by
  rw [Agree, quantity, quantity]
  refine first.bind fun {a a'} one => second.bind fun {b b'} two => ?_
  have products := one.times congruence two
  generalize a.times b = outcome at products ⊢
  generalize a'.times b' = outcome' at products ⊢
  cases products with
  | error related => exact .error (.symbolicProduct related.1 related.2)
  | ok related => exact .ok related

theorem opposite (only : Agree V N scope scope' left left') :
    Agree V N scope scope' (.opposite left) (.opposite left') := by
  rw [Agree, quantity, quantity]
  exact only.bind fun a => .ok (a.negated congruence)

omit congruence in
theorem evaluate (agree : Agree V N scope scope' left left') :
    SameOutcome (ModelError.Alike V N) V (left.evaluate scope) (left'.evaluate scope') :=
  agree.map fun related => related.expression

end Agree

end Formula

/-! ## Documents -/

/-- Requirements of one relation whose sides agree. -/
structure Requirement.Agree (V : Expression Float → Expression Float → Prop)
    (N : String → String → Prop) (scope scope' : List Variable)
    (requirement other : Requirement Float) : Prop where
  left : requirement.left.Agree V N scope scope' other.left
  relation : requirement.relation = other.relation
  right : requirement.right.Agree V N scope scope' other.right

variable {scope scope' : List Variable} (congruence : Expression.Congruence V)
include congruence

theorem Constraint.Alike.between {a b c d : Expression Float} (left : V a b) (right : V c d)
    (relation : Relation) :
    Alike V (Constraint.between a relation c) (Constraint.between b relation d) :=
  ⟨congruence.withoutConstant (congruence.sub left right), rfl,
    congruence.bound (congruence.sub left right)⟩

theorem Requirement.Agree.evaluate {requirement other : Requirement Float}
    (agree : requirement.Agree V N scope scope' other) :
    SameOutcome (ModelError.Alike V N) (Constraint.Alike V) (requirement.evaluate scope)
      (other.evaluate scope') := by
  rw [Requirement.evaluate, Requirement.evaluate, agree.relation]
  exact agree.left.evaluate.bind fun a => agree.right.evaluate.bind fun b =>
    .ok (.between congruence a b _)

theorem Requirement.Agree.evaluateAll {requirements others : List (Requirement Float)}
    (agree : List.Forall₂ (Requirement.Agree V N scope scope') requirements others) :
    SameOutcome (ModelError.Alike V N) (List.Forall₂ (Constraint.Alike V))
      (Requirement.evaluateAll scope requirements) (Requirement.evaluateAll scope' others) := by
  induction agree with
  | nil => exact .ok .nil
  | cons head tail ih =>
      rw [Requirement.evaluateAll, Requirement.evaluateAll]
      exact (head.evaluate congruence).bind fun c => ih.bind fun cs => .ok (.cons c cs)

/-- Documents whose parts agree stop at related errors or describe models that are alike. -/
theorem Document.sameOutcome_compile {document other : Document Float}
    (resolved : Declaration.resolve (R := Float) document.declarations = .ok scope)
    (resolved' : Declaration.resolve (R := Float) other.declarations = .ok scope')
    (direction : document.direction = other.direction)
    (objective : document.objective.Agree V N scope scope' other.objective)
    (requirements : List.Forall₂ (Requirement.Agree V N scope scope') document.requirements
      other.requirements) :
    SameOutcome (ModelError.Alike V N)
      (fun model model' => model.vars = scope ∧ model'.vars = scope' ∧ model.Alike V model')
      document.compile other.compile := by
  rw [Document.compile, Document.compile, resolved, resolved']
  exact objective.evaluate.bind fun objectives =>
    (Requirement.Agree.evaluateAll congruence requirements).bind fun constraints =>
      .ok ⟨rfl, rfl, direction, objectives, constraints⟩

end

/-! ## Equal expressions -/

theorem ModelError.Alike.eq {error other : ModelError Float} (alike : error.Alike Eq Eq other) :
    error = other := by
  cases alike with
  | @symbolicProduct p q left right =>
      obtain ⟨a, b⟩ := p
      obtain ⟨rfl, rfl⟩ : a = q.left ∧ b = q.right := ⟨left, right⟩
      rfl
  | unknownVariable names => rw [names]
  | duplicateVariable name => rfl

theorem Constraint.Alike.eq {c d : Constraint Float} (alike : c.Alike Eq d) : c = d := by
  obtain ⟨left, relation, right⟩ := c
  obtain ⟨rfl, rfl, rfl⟩ := alike
  rfl

theorem Model.Alike.constraints_eq {model other : Model Float} (alike : model.Alike Eq other) :
    model.constraints = other.constraints :=
  List.forall₂_eq_eq_eq ▸ alike.constraints.imp fun _ _ same => same.eq

end MixedInteger
