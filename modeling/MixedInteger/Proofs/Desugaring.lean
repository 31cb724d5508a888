import MixedInteger.Proofs.Lockstep
import MixedInteger.Proofs.SameNumbers

/-!
# Desugaring

A difference is the sum with the opposite, an opposite is the product with minus one, and
every formula is the sum of itself alone.  A formula may be rewritten so wherever it stands
in a document: what it comes to can change in the signs of zeros and in nothing else, and no
fault of a document and no text of a model shows the sign of a zero.
-/

namespace MixedInteger

/-! ## Replacements -/

/-- One formula, at some place in another, is replaced by what it abbreviates. -/
inductive Formula.Desugars : Formula Float → Formula Float → Prop where
  | difference (a b : Formula Float) : Desugars (.difference a b) (.sum [a, .opposite b])
  | opposite (a : Formula Float) : Desugars (.opposite a) (.product (.number (-1)) a)
  | alone (a : Formula Float) : Desugars a (.sum [a])
  | inSum (before after : List (Formula Float)) {a b : Formula Float} (inner : Desugars a b) :
      Desugars (.sum (before ++ a :: after)) (.sum (before ++ b :: after))
  | inMinuend {a b : Formula Float} (c : Formula Float) (inner : Desugars a b) :
      Desugars (.difference a c) (.difference b c)
  | inSubtrahend (a : Formula Float) {b c : Formula Float} (inner : Desugars b c) :
      Desugars (.difference a b) (.difference a c)
  | inMultiplicand {a b : Formula Float} (c : Formula Float) (inner : Desugars a b) :
      Desugars (.product a c) (.product b c)
  | inMultiplier (a : Formula Float) {b c : Formula Float} (inner : Desugars b c) :
      Desugars (.product a b) (.product a c)
  | inOpposite {a b : Formula Float} (inner : Desugars a b) :
      Desugars (.opposite a) (.opposite b)

/-- One formula of a requirement is replaced. -/
inductive Requirement.Desugars : Requirement Float → Requirement Float → Prop where
  | left {a b : Formula Float} (relation : Relation) (right : Formula Float)
      (inner : a.Desugars b) : Desugars ⟨a, relation, right⟩ ⟨b, relation, right⟩
  | right (left : Formula Float) (relation : Relation) {a b : Formula Float}
      (inner : a.Desugars b) : Desugars ⟨left, relation, a⟩ ⟨left, relation, b⟩

/-- One formula of a document is replaced. -/
inductive Document.Desugars : Document Float → Document Float → Prop where
  | objective (direction : Direction) (declarations : List Declaration) {a b : Formula Float}
      (requirements : List (Requirement Float)) (inner : a.Desugars b) :
      Desugars ⟨direction, declarations, a, requirements⟩ ⟨direction, declarations, b, requirements⟩
  | requirement (direction : Direction) (declarations : List Declaration)
      (objective : Formula Float) (before after : List (Requirement Float))
      {r s : Requirement Float} (inner : r.Desugars s) :
      Desugars ⟨direction, declarations, objective, before ++ r :: after⟩
        ⟨direction, declarations, objective, before ++ s :: after⟩

/-! ## One replacement -/

theorem Expression.congruence_sameNumbers : Congruence SameNumbers where
  refl := .refl
  add := .merged
  scaled same factors := same.scaled factors.constant
  withoutConstant same := ⟨same.terms, .refl 0⟩
  bound same := same.constant.neg_add_zero

open Expression (SameNumbers congruence_sameNumbers)

/-- A sum is started from the number zero, which adds nothing but the sign of a zero. -/
theorem Quantity.Alike.zero_plus (a : Quantity Float) :
    Alike SameNumbers a ((number 0).plus a) := by
  constructor
  · rw [isSymbolic_plus]
    rfl
  · rw [toExpression_plus]
    exact SameNumbers.zero_merged a.toExpression

theorem ModelError.alike_refl (error : ModelError Float) : error.Alike SameNumbers Eq error :=
  .refl SameNumbers.refl Eq.refl error

namespace Formula

variable {scope : List Variable}

theorem agree_refl (formula : Formula Float) : Agree SameNumbers Eq scope scope formula formula :=
  .refl ModelError.alike_refl (Quantity.Alike.refl congruence_sameNumbers) _

theorem agree_difference (a b : Formula Float) :
    Agree SameNumbers Eq scope scope (.difference a b) (.sum [a, .opposite b]) := by
  rw [Agree, quantity, quantity, total]
  refine .bind_self ModelError.alike_refl _ fun p => ?_
  rw [total, quantity]
  cases b.quantity scope with
  | error error => exact .error (ModelError.alike_refl error)
  | ok q =>
      have opposite := Quantity.Alike.refl congruence_sameNumbers q.negated
      exact .ok ((Quantity.Alike.zero_plus p).plus congruence_sameNumbers opposite)

theorem agree_opposite (a : Formula Float) :
    Agree SameNumbers Eq scope scope (.opposite a) (.product (.number (-1)) a) := by
  rw [Agree, quantity, quantity, quantity]
  refine .bind_self ModelError.alike_refl _ fun p => ?_
  obtain ⟨q, made, value, symbolic⟩ := Quantity.number_times (-1) p
  rw [made]
  refine .ok ⟨?_, ?_⟩
  · rw [Quantity.isSymbolic_negated, symbolic]
  · rw [Quantity.toExpression_negated, value]
    exact SameNumbers.refl _

theorem agree_alone (a : Formula Float) :
    Agree SameNumbers Eq scope scope a (.sum [a]) := by
  rw [Agree, quantity, total]
  cases a.quantity scope with
  | error error => exact .error (ModelError.alike_refl error)
  | ok p => exact .ok (.zero_plus p)

end Formula

/-- Lists that differ in one item are related item by item if that item is. -/
theorem forall₂_middle {α : Type} {A : α → α → Prop} (same : ∀ a, A a a)
    (before after : List α) {a b : α} (changed : A a b) :
    List.Forall₂ A (before ++ a :: after) (before ++ b :: after) := by
  have unchanged (items : List α) : List.Forall₂ A items items :=
    List.forall₂_same.mpr fun a _ => same a
  exact List.rel_append (unchanged before) (.cons changed (unchanged after))

/-- A replacement changes a formula in the signs of zeros at most. -/
theorem Formula.Desugars.agree {scope : List Variable} {formula other : Formula Float}
    (step : formula.Desugars other) : formula.Agree SameNumbers Eq scope scope other := by
  induction step with
  | difference a b => exact agree_difference a b
  | opposite a => exact agree_opposite a
  | alone a => exact agree_alone a
  | inSum before after inner ih =>
      exact .sum congruence_sameNumbers (forall₂_middle agree_refl before after ih)
  | inMinuend c inner ih => exact .difference congruence_sameNumbers ih (agree_refl c)
  | inSubtrahend a inner ih => exact .difference congruence_sameNumbers (agree_refl a) ih
  | inMultiplicand c inner ih => exact .product congruence_sameNumbers ih (agree_refl c)
  | inMultiplier a inner ih => exact .product congruence_sameNumbers (agree_refl a) ih
  | inOpposite inner ih => exact .opposite congruence_sameNumbers ih

theorem Requirement.agree_refl {scope : List Variable} (requirement : Requirement Float) :
    requirement.Agree SameNumbers Eq scope scope requirement :=
  ⟨Formula.agree_refl _, rfl, Formula.agree_refl _⟩

theorem Requirement.Desugars.agree {scope : List Variable} {requirement other : Requirement Float}
    (step : requirement.Desugars other) :
    requirement.Agree SameNumbers Eq scope scope other := by
  cases step with
  | left relation right inner => exact ⟨inner.agree, rfl, Formula.agree_refl right⟩
  | right left relation inner => exact ⟨Formula.agree_refl left, rfl, inner.agree⟩

/-! ## What is seen of a model -/

/-- Errors of one kind, whatever they say. -/
inductive ModelError.SameVariant {R : Type} : ModelError R → ModelError R → Prop where
  | symbolicProduct (p q : SymbolicProduct R) :
      SameVariant (.symbolicProduct p) (.symbolicProduct q)
  | unknownVariable (s t : String) : SameVariant (.unknownVariable s) (.unknownVariable t)
  | duplicateVariable (s t : String) : SameVariant (.duplicateVariable s) (.duplicateVariable t)

theorem ModelError.SameVariant.refl (error : ModelError Float) : error.SameVariant error := by
  cases error <;> constructor

theorem ModelError.SameVariant.trans {e f g : ModelError Float} (one : e.SameVariant f)
    (other : f.SameVariant g) : e.SameVariant g := by
  cases one <;> cases other <;> constructor

theorem ModelError.Alike.sameVariant {V : Expression Float → Expression Float → Prop}
    {N : String → String → Prop} {error other : ModelError Float} (alike : error.Alike V N other) :
    error.SameVariant other := by
  cases alike <;> constructor

theorem ModelError.Alike.message_eq {error other : ModelError Float}
    (alike : error.Alike SameNumbers Eq other) : error.message = other.message := by
  cases alike with
  | @symbolicProduct p q left right =>
      change _ ++ p.left.text ++ _ ++ p.right.text ++ _ = _
      rw [left.text_eq, right.text_eq]
      rfl
  | unknownVariable names => rw [names]
  | duplicateVariable name => rfl

theorem Constraint.Alike.text_eq {c d : Constraint Float} (alike : c.Alike SameNumbers d) :
    c.text = d.text := by
  rw [text, text, alike.left.text_eq, alike.relation, alike.right]

theorem LpText.constraintLines_congr {constraints others : List (Constraint Float)}
    (alike : List.Forall₂ (Constraint.Alike SameNumbers) constraints others) (index : ℕ) :
    constraintLines index constraints = constraintLines index others := by
  induction alike generalizing index with
  | nil => rfl
  | cons head tail ih =>
      rw [constraintLines, constraintLines, ih, constraintLine, constraintLine, head.text_eq]

theorem Constraint.declared_eq {constraints others : List (Constraint Float)}
    (alike : List.Forall₂ (Constraint.Alike SameNumbers) constraints others) :
    declared constraints = declared others := by
  have mentioned : constraints.flatMap vars = others.flatMap vars := by
    induction alike with
    | nil => rfl
    | cons head tail ih =>
        rw [List.flatMap_cons, List.flatMap_cons, ih, vars, vars, head.left.vars_eq]
  rw [declared, declared, mentioned]

theorem Model.Alike.lpText_eq {model other : Model Float} (alike : model.Alike SameNumbers other) :
    model.lpText = other.lpText := by
  have lines : LpText.lines model.direction model.objective model.constraints model.declared =
      LpText.lines other.direction other.objective other.constraints other.declared := by
    rw [LpText.lines, LpText.lines, alike.direction, alike.objective.text_eq,
      LpText.constraintLines_congr alike.constraints, Model.declared, Model.declared,
      Constraint.declared_eq alike.constraints]
  rw [lpText, lpText, LpText.write, LpText.write, lines]

namespace Document

/--
Either both documents are no models, for reasons of one kind that are told in one message,
or both are models with the same variables and the same text.
-/
def SeenAlike (document other : Document Float) : Prop :=
  SameOutcome
    (fun error error' => error.SameVariant error' ∧ error.message = error'.message)
    (fun model model' => model.vars = model'.vars ∧ model.lpText = model'.lpText)
    document.compile other.compile

theorem SeenAlike.refl (document : Document Float) : document.SeenAlike document :=
  SameOutcome.refl (fun error => ⟨.refl error, rfl⟩) (fun _ => ⟨rfl, rfl⟩) _

theorem SeenAlike.trans {first second third : Document Float} (one : first.SeenAlike second)
    (other : second.SeenAlike third) : first.SeenAlike third := by
  refine SameOutcome.trans ?_ ?_ one other
  · rintro e f g ⟨variant, message⟩ ⟨variant', message'⟩
    exact ⟨variant.trans variant', message.trans message'⟩
  · rintro a b c ⟨vars, text⟩ ⟨vars', text'⟩
    exact ⟨vars.trans vars', text.trans text'⟩

/-- Documents whose parts agree among the same declared variables are seen alike. -/
theorem seenAlike_of_agree {document other : Document Float}
    (declarations : document.declarations = other.declarations)
    (direction : document.direction = other.direction)
    (objective : ∀ scope, document.objective.Agree SameNumbers Eq scope scope other.objective)
    (requirements : ∀ scope, List.Forall₂ (Requirement.Agree SameNumbers Eq scope scope)
      document.requirements other.requirements) : document.SeenAlike other := by
  cases resolved : Declaration.resolve (R := Float) document.declarations with
  | error error =>
      rw [SeenAlike, compile, compile, ← declarations, resolved]
      exact .error ⟨.refl error, rfl⟩
  | ok scope =>
      have resolved' := declarations ▸ resolved
      have same := sameOutcome_compile congruence_sameNumbers resolved resolved' direction
        (objective scope) (requirements scope)
      refine same.imp (fun alike => ⟨alike.sameVariant, alike.message_eq⟩) ?_
      rintro model model' ⟨vars, vars', alike⟩
      exact ⟨vars.trans vars'.symm, alike.lpText_eq⟩

theorem Desugars.seenAlike {document other : Document Float} (step : document.Desugars other) :
    document.SeenAlike other := by
  cases step with
  | objective direction declarations requirements inner =>
      exact seenAlike_of_agree rfl rfl (fun scope => inner.agree)
        fun scope => List.forall₂_same.mpr fun r _ => r.agree_refl
  | requirement direction declarations objective before after inner =>
      exact seenAlike_of_agree rfl rfl (fun scope => objective.agree_refl)
        fun scope => forall₂_middle Requirement.agree_refl before after inner.agree

/-- Replacing formulas by what they abbreviate, any number of them, does not change a model. -/
theorem desugaring_keeps_model {document other : Document Float}
    (replaced : Relation.ReflTransGen Desugars document other) : document.SeenAlike other := by
  induction replaced with
  | refl => exact .refl document
  | tail _ step ih => exact ih.trans step.seenAlike

/-- Its differences and opposites are of symbolic quantities, of numbers and of both. -/
def sugared : Document Float where
  direction := .maximize
  declarations := [⟨some "x", .integer⟩]
  objective := .opposite (.difference (.name "x") (.number 0))
  requirements := [⟨.difference (.name "x") (.opposite (.number 0)), .lessEqual, .number 1⟩]

/-- The same document without differences, with a sum around a name. -/
def desugared : Document Float where
  direction := .maximize
  declarations := [⟨some "x", .integer⟩]
  objective := .product (.number (-1)) (.sum [.name "x", .opposite (.number 0)])
  requirements :=
    [⟨.sum [.sum [.name "x"], .opposite (.opposite (.number 0))], .lessEqual, .number 1⟩]

/-- Four replacements lead from one document to the other, and their texts are equal. -/
theorem sugared_seenAlike :
    ∃ model model', sugared.compile = .ok model ∧ desugared.compile = .ok model' ∧
      model.lpText = model'.lpText := by
  have replaced : Relation.ReflTransGen Desugars sugared desugared := by
    refine .head (.objective _ _ _ (.opposite _)) ?_
    refine .head (.objective _ _ _ (.inMultiplier _ (.difference _ _))) ?_
    refine .head (.requirement _ _ _ [] [] (.left _ _ (.difference _ _))) ?_
    exact .single (.requirement _ _ _ [] [] (.left _ _ (.inSum [] _ (.alone _))))
  obtain ⟨model, compiled⟩ : ∃ model, sugared.compile = .ok model := ⟨_, rfl⟩
  have outcome := desugaring_keeps_model replaced
  rw [SeenAlike, compiled] at outcome
  generalize desugared.compile = result at outcome
  cases outcome with
  | ok related => exact ⟨_, _, compiled, rfl, related.2⟩

end Document

end MixedInteger
