import Mathlib.Data.List.Nodup
import MixedInteger.Proofs.Declaration
import MixedInteger.Proofs.Evaluation
import MixedInteger.Proofs.Keys

/-!
# Variables that a model mentions

No operation on expressions drops a variable, whatever becomes of its coefficient.
An evaluated formula therefore holds exactly the variables whose names it mentions,
each as it was declared, and the set declared for a model holds those mentioned in
its constraints.
-/

namespace MixedInteger

namespace Expression

variable {R : Type}

/-- The variable of a term with the given name. -/
def var? (e : Expression R) (name : String) : Option Variable :=
  e.terms.key? name

/-- In a sum of tables the keys of the first one come before those of the second. -/
theorem key?_addTerms [Add R] (table other : Table Variable R) (name : String) :
    (addTerms table other).key? name = (table.key? name).or (other.key? name) := by
  obtain ⟨added, ordered⟩ := other
  unfold addTerms
  dsimp only
  induction added generalizing table with
  | nil => exact Option.or_none.symm
  | cons entry rest ih =>
      rw [List.foldl_cons, ih _ (List.Pairwise.of_cons ordered), Table.key?_update_eq_or,
        Table.key?_cons, Option.or_assoc, leftmost?_singleton]
      split <;> rfl

@[simp] theorem var?_ofConstant (constant : R) (name : String) :
    (ofConstant constant).var? name = none := rfl

@[simp] theorem var?_ofVariable [Zero R] [One R] (v : Variable) (name : String) :
    (ofVariable v : Expression R).var? name = if v.name = name then some v else none := by
  change (Table.empty.update v fun _ => (1 : R)).key? name = _
  rw [Table.key?_update]
  rfl

@[simp] theorem var?_add [Add R] (a b : Expression R) (name : String) :
    (a + b).var? name = (a.var? name).or (b.var? name) :=
  key?_addTerms a.terms b.terms name

@[simp] theorem var?_scaled [Mul R] (a : Expression R) (factor : R) (name : String) :
    (a.scaled factor).var? name = a.var? name :=
  Table.key?_map (· * factor) a.terms name

@[simp] theorem var?_neg [One R] [Mul R] [Neg R] (a : Expression R) (name : String) :
    (-a).var? name = a.var? name :=
  var?_scaled a (-1) name

@[simp] theorem var?_sub [One R] [Add R] [Mul R] [Neg R] (a b : Expression R) (name : String) :
    (a - b).var? name = (a.var? name).or (b.var? name) := by
  change (a + -b).var? name = _
  rw [var?_add, var?_neg]

theorem mem_vars_iff {e : Expression R} {v : Variable} : v ∈ e.vars ↔ e.var? v.name = some v :=
  Table.mem_keys_iff

theorem mem_names_iff {e : Expression R} {name : String} :
    name ∈ e.vars.map Variable.name ↔ (e.var? name).isSome = true :=
  Table.mem_names_iff

end Expression

/-- A side of the requirement mentions the name. -/
def Requirement.mentions {R : Type} (requirement : Requirement R) (name : String) : Bool :=
  requirement.left.mentions name || requirement.right.mentions name

/-- Some requirement of the document mentions the name. -/
def Document.constrains {R : Type} (document : Document R) (name : String) : Bool :=
  document.requirements.any (·.mentions name)

/-- The document declares a variable of the given effective name and kind. -/
def Document.Declares {R : Type} (document : Document R) (name : String) (kind : Kind) : Prop :=
  (name, kind) ∈ (Declaration.effectiveNames document.declarations).zip
    (document.declarations.map Declaration.kind)

section

variable {R : Type} [Zero R] [One R] [Add R] [Mul R] [Neg R]

namespace Quantity

omit [Mul R] [Neg R] in
theorem var?_plus (a b : Quantity R) (name : String) :
    (a.plus b).toExpression.var? name =
      (a.toExpression.var? name).or (b.toExpression.var? name) := by
  cases a <;> cases b <;> simp [plus, toExpression]

omit [Add R] in
theorem var?_negated (a : Quantity R) (name : String) :
    a.negated.toExpression.var? name = a.toExpression.var? name := by
  cases a <;> simp [negated, toExpression]

omit [Add R] [Neg R] in
/-- A product keeps the variables of both sides, one of which has none. -/
theorem var?_times {a b c : Quantity R} (linear : a.times b = .ok c) (name : String) :
    c.toExpression.var? name = (a.toExpression.var? name).or (b.toExpression.var? name) := by
  have scaled (x : R) (e : Expression R) : (e * x).var? name = e.var? name :=
    Expression.var?_scaled e x name
  cases a <;> cases b <;> cases linear <;> simp [toExpression, scaled]

end Quantity

/-- The variables of an evaluated formula are the declared ones that it mentions. -/
theorem Formula.var?_of_denotes {scope : List Variable} {formula : Formula R} {q : Quantity R}
    (denotes : formula.Denotes scope q) (name : String) :
    q.toExpression.var? name =
      if formula.mentions name then scope.find? (·.name == name) else none := by
  have joined (a b : Bool) (found : Option Variable) :
      (if a then found else none).or (if b then found else none) =
        if a || b then found else none := by
    cases a <;> cases b <;> simp
  induction denotes with
  | number value => rfl
  | @name text v resolved =>
      have named := name_of_resolveName resolved
      by_cases same : v.name = name
      · have found : scope.find? (·.name == name) = some v := by
          rw [← same, named]
          exact resolved
        simp [Quantity.toExpression, mentions, ← named, same, found]
      · simp [Quantity.toExpression, mentions, ← named, same]
  | emptySum => rfl
  | largerSum before last ihBefore ihLast =>
      rw [Quantity.var?_plus, ihBefore, ihLast, joined, mentions, mentions, mentions,
        texts_sum_concat, List.any_append]
  | difference first second ihFirst ihSecond =>
      rw [Quantity.minus, Quantity.var?_plus, Quantity.var?_negated, ihFirst, ihSecond, joined,
        mentions, mentions, mentions, texts_difference, List.any_append]
  | product first second linear ihFirst ihSecond =>
      rw [Quantity.var?_times linear, ihFirst, ihSecond, joined, mentions, mentions, mentions,
        texts_product, List.any_append]
  | opposite only ih =>
      rw [Quantity.var?_negated, ih, mentions, mentions, texts_opposite]

/-- Terms that are moved to the left stay terms. -/
theorem Requirement.var?_of_denotes {scope : List Variable} {requirement : Requirement R}
    {c : Constraint R} (denotes : requirement.Denotes scope c) (name : String) :
    c.left.var? name =
      if requirement.mentions name then scope.find? (·.name == name) else none := by
  obtain ⟨a, b, first, second, rfl⟩ := denotes
  change (a.toExpression - b.toExpression).var? name = _
  rw [Expression.var?_sub, Formula.var?_of_denotes first, Formula.var?_of_denotes second,
    Requirement.mentions]
  cases requirement.left.mentions name <;> cases requirement.right.mentions name <;> simp

/-- The variables on the left sides are the declared ones that the requirements mention. -/
theorem Requirement.mem_flatMap_vars_iff {scope : List Variable}
    {requirements : List (Requirement R)} {constraints : List (Constraint R)}
    (denotes : List.Forall₂ (Requirement.Denotes scope) requirements constraints) (v : Variable) :
    v ∈ constraints.flatMap Constraint.vars ↔
      requirements.any (·.mentions v.name) = true ∧ scope.find? (·.name == v.name) = some v := by
  induction denotes with
  | nil => simp
  | @cons requirement c requirements constraints first later ih =>
      have head : v ∈ c.vars ↔ requirement.mentions v.name = true ∧
          scope.find? (·.name == v.name) = some v := by
        rw [Constraint.vars, Expression.mem_vars_iff, var?_of_denotes first]
        cases requirement.mentions v.name <;> simp
      rw [List.flatMap_cons, List.mem_append, head, ih, List.any_cons, Bool.or_eq_true, or_and_right]

variable {document : Document R} {model : Model R}

/-- With distinct names a variable is found under its name. -/
theorem find?_name_eq_some_iff {scope : List Variable}
    (distinct : (scope.map Variable.name).Nodup) {v : Variable} :
    scope.find? (·.name == v.name) = some v ↔ v ∈ scope := by
  constructor
  · exact List.mem_of_find?_eq_some
  · intro present
    cases found : scope.find? (·.name == v.name) with
    | none => exact absurd (beq_self_eq_true v.name) (List.find?_eq_none.mp found v present)
    | some w =>
        have same := List.find?_some found
        have member := List.mem_of_find?_eq_some found
        exact congrArg some (List.inj_on_of_nodup_map distinct member present (eq_of_beq same))

/-- The variables of a model have distinct names. -/
theorem Document.nodup_names (compiled : document.compile = .ok model) :
    (model.vars.map Variable.name).Nodup :=
  (Declaration.resolve_ok (denotes_of_compile compiled).vars).2.2

/-- What a document declares are the variables of its model. -/
theorem Document.declares_iff (compiled : document.compile = .ok model) {name : String}
    {kind : Kind} :
    document.Declares name kind ↔ ∃ v ∈ model.vars, v.name = name ∧ v.kind = kind := by
  obtain ⟨names, kinds, -⟩ := Declaration.resolve_ok (denotes_of_compile compiled).vars
  rw [Declares, ← names, ← kinds, List.zip_map', List.mem_map]
  simp only [Prod.mk.injEq]

theorem Document.mem_vars_iff (compiled : document.compile = .ok model) {v : Variable} :
    v ∈ model.vars ↔ document.Declares v.name v.kind :=
  Declaration.mem_of_resolve_iff (denotes_of_compile compiled).vars

/-- A compiled document declares each name with one kind. -/
theorem Document.kind_unique (compiled : document.compile = .ok model) {name : String}
    {first second : Kind} (one : document.Declares name first)
    (other : document.Declares name second) : first = second := by
  obtain ⟨v, present, named, rfl⟩ := (declares_iff compiled).mp one
  obtain ⟨w, member, alike, rfl⟩ := (declares_iff compiled).mp other
  have equal := List.inj_on_of_nodup_map (nodup_names compiled) present member
    (named.trans alike.symm)
  rw [equal]

/-- The set declared for a model holds the declared variables that its constraints mention. -/
theorem Document.mem_declared_iff (compiled : document.compile = .ok model) {v : Variable} :
    v ∈ model.declared.keys ↔
      document.Declares v.name v.kind ∧ document.constrains v.name = true := by
  have mentioned := Requirement.mem_flatMap_vars_iff (denotes_of_compile compiled).constraints
  -- All constraints take their variables from one scope, so equal names mean equal variables.
  have coherent : ∀ w ∈ model.constraints.flatMap Constraint.vars,
      ∀ u ∈ model.constraints.flatMap Constraint.vars, w.name = u.name → w = u := by
    intro w one u other same
    have found := ((mentioned w).mp one).2
    rw [same, ((mentioned u).mp other).2] at found
    exact (Option.some.inj found).symm
  rw [Model.declared, Constraint.declared, VariableSet.mem_keys_collect coherent, mentioned,
    find?_name_eq_some_iff (nodup_names compiled), mem_vars_iff compiled, and_comm]
  rfl

/-- The declared names of a kind are those that the document declares so and constrains. -/
theorem Document.has_declared_iff (compiled : document.compile = .ok model) {name : String}
    {kind : Kind} :
    model.declared.Has name kind ↔
      document.Declares name kind ∧ document.constrains name = true := by
  constructor
  · rintro ⟨v, present, rfl, rfl⟩
    exact (mem_declared_iff compiled).mp present
  · rintro ⟨declared, constrained⟩
    obtain ⟨v, present, rfl, rfl⟩ := (declares_iff compiled).mp declared
    exact ⟨v, (mem_declared_iff compiled).mpr ⟨declared, constrained⟩, rfl, rfl⟩

end

end MixedInteger
