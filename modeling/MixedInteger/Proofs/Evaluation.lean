import Mathlib.Data.List.Forall2
import MixedInteger.Model
import MixedInteger.Proofs.Formula

/-!
# Evaluation as a relation

`Denotes` says by one rule for each kind of node which quantity a formula stands
for.  A quantity that evaluation yields is one that the rules give, so that whatever
holds of every evaluated formula is proved by induction on the rules.  The second
half takes an evaluated document apart into evaluated formulas.
-/

namespace MixedInteger

theorem ok_of_bind_ok {ε α β : Type} {first : Except ε α} {next : α → Except ε β} {b : β}
    (done : (first >>= next) = .ok b) : ∃ a, first = .ok a ∧ next a = .ok b := by
  cases first with
  | error e => cases done
  | ok a => exact ⟨a, rfl, done⟩

theorem name_of_resolveName {scope : List Variable} {text : String} {v : Variable}
    (resolved : resolveName scope text = some v) : v.name = Variable.nameOf text := by
  have same := List.find?_some resolved
  exact eq_of_beq same

section

variable {R : Type} [Zero R] [One R] [Add R] [Mul R] [Neg R]

namespace Formula

/-- The quantity that a formula stands for among some declared variables. -/
inductive Denotes (scope : List Variable) : Formula R → Quantity R → Prop where
  | number (value : R) : Denotes scope (.number value) (.number value)
  | name {text : String} {v : Variable} (resolved : resolveName scope text = some v) :
      Denotes scope (.name text) (.symbol v)
  | emptySum : Denotes scope (.sum []) (.number 0)
  | largerSum {items : List (Formula R)} {item : Formula R} {a b : Quantity R}
      (before : Denotes scope (.sum items) a) (last : Denotes scope item b) :
      Denotes scope (.sum (items ++ [item])) (a.plus b)
  | difference {left right : Formula R} {a b : Quantity R}
      (first : Denotes scope left a) (second : Denotes scope right b) :
      Denotes scope (.difference left right) (a.minus b)
  | product {left right : Formula R} {a b c : Quantity R}
      (first : Denotes scope left a) (second : Denotes scope right b)
      (linear : a.times b = .ok c) : Denotes scope (.product left right) c
  | opposite {inner : Formula R} {a : Quantity R} (only : Denotes scope inner a) :
      Denotes scope (.opposite inner) a.negated

variable {scope : List Variable}

theorem denotes_of_total {items done : List (Formula R)} {before q : Quantity R}
    (sound : ∀ item ∈ items, ∀ a, item.quantity scope = .ok a → Denotes scope item a)
    (sofar : Denotes scope (.sum done) before) (ended : total scope before items = .ok q) :
    Denotes scope (.sum (done ++ items)) q := by
  -- The invariant: what has been added up so far is denoted by the sum of the items passed.
  induction items generalizing done before with
  | nil =>
      cases ended
      rw [List.append_nil]
      exact sofar
  | cons item rest ih =>
      rw [total] at ended
      obtain ⟨a, evaluated, ended⟩ := ok_of_bind_ok ended
      have first := sound item List.mem_cons_self a evaluated
      have whole := ih (fun other later => sound other (List.mem_cons_of_mem _ later))
        (.largerSum sofar first) ended
      rw [List.append_assoc] at whole
      exact whole

theorem denotes_of_quantity {formula : Formula R} {q : Quantity R}
    (evaluated : formula.quantity scope = .ok q) : Denotes scope formula q := by
  induction formula using Formula.induct generalizing q with
  | number value =>
      cases evaluated
      exact .number value
  | name text =>
      rw [quantity] at evaluated
      cases found : resolveName scope text with
      | none =>
          rw [found] at evaluated
          cases evaluated
      | some v =>
          rw [found] at evaluated
          cases evaluated
          exact .name found
  | sum items ih =>
      rw [quantity] at evaluated
      exact denotes_of_total (fun item present a => ih item present) .emptySum evaluated
  | difference left right ihLeft ihRight =>
      rw [quantity] at evaluated
      obtain ⟨a, first, evaluated⟩ := ok_of_bind_ok evaluated
      obtain ⟨b, second, evaluated⟩ := ok_of_bind_ok evaluated
      cases evaluated
      exact .difference (ihLeft first) (ihRight second)
  | product left right ihLeft ihRight =>
      rw [quantity] at evaluated
      obtain ⟨a, first, evaluated⟩ := ok_of_bind_ok evaluated
      obtain ⟨b, second, evaluated⟩ := ok_of_bind_ok evaluated
      cases linear : a.times b with
      | error product =>
          rw [linear] at evaluated
          cases evaluated
      | ok c =>
          rw [linear] at evaluated
          cases evaluated
          exact .product (ihLeft first) (ihRight second) linear
  | opposite inner ih =>
      rw [quantity] at evaluated
      obtain ⟨a, only, evaluated⟩ := ok_of_bind_ok evaluated
      cases evaluated
      exact .opposite (ih only)

theorem denotes_of_evaluate {formula : Formula R} {e : Expression R}
    (evaluated : formula.evaluate scope = .ok e) :
    ∃ q, Denotes scope formula q ∧ e = q.toExpression := by
  rw [evaluate] at evaluated
  cases found : formula.quantity scope with
  | error error =>
      rw [found] at evaluated
      cases evaluated
  | ok q =>
      rw [found] at evaluated
      cases evaluated
      exact ⟨q, denotes_of_quantity found, rfl⟩

end Formula

namespace Requirement

/-- The constraint between the expressions that the two sides of a requirement denote. -/
def Denotes (scope : List Variable) (requirement : Requirement R) (c : Constraint R) : Prop :=
  ∃ a b, requirement.left.Denotes scope a ∧ requirement.right.Denotes scope b ∧
    c = .between a.toExpression requirement.relation b.toExpression

variable {scope : List Variable}

theorem denotes_of_evaluate {requirement : Requirement R} {c : Constraint R}
    (evaluated : requirement.evaluate scope = .ok c) : requirement.Denotes scope c := by
  rw [evaluate] at evaluated
  obtain ⟨left, leftDone, evaluated⟩ := ok_of_bind_ok evaluated
  obtain ⟨right, rightDone, evaluated⟩ := ok_of_bind_ok evaluated
  cases evaluated
  obtain ⟨a, first, rfl⟩ := Formula.denotes_of_evaluate leftDone
  obtain ⟨b, second, rfl⟩ := Formula.denotes_of_evaluate rightDone
  exact ⟨a, b, first, second, rfl⟩

theorem forall₂_denotes_of_evaluateAll {requirements : List (Requirement R)}
    {constraints : List (Constraint R)}
    (evaluated : evaluateAll scope requirements = .ok constraints) :
    List.Forall₂ (Denotes scope) requirements constraints := by
  induction requirements generalizing constraints with
  | nil =>
      cases evaluated
      exact .nil
  | cons requirement rest ih =>
      rw [evaluateAll] at evaluated
      obtain ⟨c, first, evaluated⟩ := ok_of_bind_ok evaluated
      obtain ⟨cs, later, evaluated⟩ := ok_of_bind_ok evaluated
      cases evaluated
      exact .cons (denotes_of_evaluate first) (ih later)

end Requirement

/-- The parts of a compiled document. -/
structure Document.Denotes (document : Document R) (model : Model R) : Prop where
  direction : model.direction = document.direction
  vars : Declaration.resolve (R := R) document.declarations = .ok model.vars
  objective : ∃ q, document.objective.Denotes model.vars q ∧ model.objective = q.toExpression
  constraints : List.Forall₂ (Requirement.Denotes model.vars) document.requirements
    model.constraints

theorem Document.denotes_of_compile {document : Document R} {model : Model R}
    (compiled : document.compile = .ok model) : document.Denotes model := by
  rw [compile] at compiled
  obtain ⟨scope, resolved, compiled⟩ := ok_of_bind_ok compiled
  obtain ⟨objective, objectiveDone, compiled⟩ := ok_of_bind_ok compiled
  obtain ⟨constraints, constraintsDone, compiled⟩ := ok_of_bind_ok compiled
  cases compiled
  exact ⟨rfl, resolved, Formula.denotes_of_evaluate objectiveDone,
    Requirement.forall₂_denotes_of_evaluateAll constraintsDone⟩

end

end MixedInteger
