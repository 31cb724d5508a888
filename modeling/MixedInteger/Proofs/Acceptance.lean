import Mathlib.Algebra.Ring.Int.Defs
import MixedInteger.Proofs.Declaration
import MixedInteger.Proofs.Evaluation

/-!
# Which documents compile

A document compiles unless two declarations have one effective name or some node of
its formulas offends: a name that is not declared, or a product of two formulas that
both hold names.  Whether a node offends is read off the text alone; no coefficient
and no cancellation matters.  The first fault in the order of evaluation is the one
that is reported.
-/

namespace MixedInteger

section

variable {R : Type}

namespace Formula

/-- A name that is not declared, or a product of two formulas with names. -/
def offends (declared : List String) : Formula R → Bool
  | .name text => !declared.contains (Variable.nameOf text)
  | .product left right => left.hasName && right.hasName
  | _ => false

/-- The first offending node of a formula, in the order of evaluation. -/
def fault? (declared : List String) (formula : Formula R) : Option (Formula R) :=
  formula.nodes.find? (offends declared)

end Formula

/-- The nodes of a requirement, left side first. -/
def Requirement.nodes (requirement : Requirement R) : List (Formula R) :=
  requirement.left.nodes ++ requirement.right.nodes

/-- The nodes of a document: those of the objective, then those of each requirement. -/
def Document.nodes (document : Document R) : List (Formula R) :=
  document.objective.nodes ++ document.requirements.flatMap Requirement.nodes

/-- The error is the one that the offending node stands for. -/
def ModelError.Blames : ModelError R → Formula R → Prop
  | .unknownVariable name, .name text => name = text
  | .symbolicProduct _, .product _ _ => True
  | _, _ => False

/-- A computation ends well if there is no fault, and else with an error for the fault. -/
def Decides {α : Type} (fault : Option (Formula R)) (result : Except (ModelError R) α) : Prop :=
  match fault with
  | none => ∃ a, result = .ok a
  | some node => ∃ error, result = .error error ∧ error.Blames node

namespace Decides

variable {α β : Type} {fault later : Option (Formula R)}

theorem bind {first : Except (ModelError R) α} {next : α → Except (ModelError R) β}
    (decided : Decides fault first) (follows : ∀ a, first = .ok a → Decides later (next a)) :
    Decides (fault.or later) (first >>= next) := by
  cases fault with
  | none =>
      obtain ⟨a, rfl⟩ := decided
      exact follows a rfl
  | some node =>
      obtain ⟨error, rfl, blamed⟩ := decided
      exact ⟨error, rfl, blamed⟩

theorem bind_ok {first : Except (ModelError R) α} (decided : Decides fault first) (f : α → β) :
    Decides fault (first >>= fun a => .ok (f a)) := by
  have whole : Decides (fault.or none) (first >>= fun a => .ok (f a)) :=
    decided.bind fun a _ => ⟨f a, rfl⟩
  rwa [Option.or_none] at whole

end Decides

end

section

variable {R : Type} [Zero R] [One R] [Add R] [Mul R] [Neg R] {scope : List Variable}

namespace Formula

/-- A quantity is symbolic exactly if its formula holds a name. -/
theorem isSymbolic_of_denotes {formula : Formula R} {q : Quantity R}
    (denotes : formula.Denotes scope q) : q.isSymbolic = formula.hasName := by
  -- Each operation is symbolic if one operand is, whatever the numbers are.
  have plus (a b : Quantity R) : (a.plus b).isSymbolic = (a.isSymbolic || b.isSymbolic) := by
    cases a <;> cases b <;> rfl
  have negated (a : Quantity R) : a.negated.isSymbolic = a.isSymbolic := by
    cases a <;> rfl
  have times {a b c : Quantity R} (linear : a.times b = .ok c) :
      c.isSymbolic = (a.isSymbolic || b.isSymbolic) := by
    cases a <;> cases b <;> cases linear <;> rfl
  have joined (first second : List String) :
      (!(first ++ second).isEmpty) = (!first.isEmpty || !second.isEmpty) := by
    cases first <;> rfl
  induction denotes with
  | number value => rfl
  | name resolved => rfl
  | emptySum => rfl
  | largerSum before last ihBefore ihLast =>
      rw [plus, ihBefore, ihLast, hasName, hasName, hasName, texts_sum_concat, joined]
  | difference first second ihFirst ihSecond =>
      rw [Quantity.minus, plus, negated, ihFirst, ihSecond, hasName, hasName, hasName,
        texts_difference, joined]
  | product first second linear ihFirst ihSecond =>
      rw [times linear, ihFirst, ihSecond, hasName, hasName, hasName, texts_product, joined]
  | opposite only ih => rw [negated, ih, hasName, hasName, texts_opposite]

omit [Add R] [Neg R] in
theorem decides_times (left right : Formula R) (a b : Quantity R) :
    Decides (if a.isSymbolic && b.isSymbolic then some (.product left right) else none)
      ((a.times b).mapError ModelError.symbolicProduct) := by
  cases a with
  | number x => cases b <;> exact ⟨_, rfl⟩
  | symbol v =>
      cases b with
      | number y => exact ⟨_, rfl⟩
      | symbol w => exact ⟨_, rfl, trivial⟩
      | expression e => exact ⟨_, rfl, trivial⟩
  | expression e =>
      cases b with
      | number y => exact ⟨_, rfl⟩
      | symbol w => exact ⟨_, rfl, trivial⟩
      | expression d => exact ⟨_, rfl, trivial⟩

theorem decides_name (text : String) :
    Decides (fault? (scope.map Variable.name) (.name text : Formula R))
      ((Formula.name text).quantity scope) := by
  rw [quantity]
  cases resolved : resolveName scope text with
  | none =>
      have absent : Variable.nameOf text ∉ scope.map Variable.name := by
        intro present
        obtain ⟨v, member, same⟩ := List.mem_map.mp present
        exact List.find?_eq_none.mp resolved v member (beq_iff_eq.mpr same)
      have fault : fault? (scope.map Variable.name) (.name text : Formula R) =
          some (.name text) := by
        simpa [fault?, nodes, offends] using absent
      rw [fault]
      exact ⟨_, rfl, rfl⟩
  | some v =>
      have present : Variable.nameOf text ∈ scope.map Variable.name :=
        List.mem_map.mpr ⟨v, List.mem_of_find?_eq_some resolved, name_of_resolveName resolved⟩
      have fault : fault? (scope.map Variable.name) (.name text : Formula R) = none := by
        simpa [fault?, nodes, offends] using present
      rw [fault]
      exact ⟨_, rfl⟩

theorem decides_total (declared : List String) {items : List (Formula R)}
    (each : ∀ item ∈ items, Decides (fault? declared item) (item.quantity scope))
    (before : Quantity R) :
    Decides ((nodesOfItems items).find? (offends declared)) (total scope before items) := by
  induction items generalizing before with
  | nil => exact ⟨before, rfl⟩
  | cons item rest ih =>
      rw [nodesOfItems, List.find?_append, total]
      refine (each item List.mem_cons_self).bind fun a _ => ?_
      exact ih (fun other later => each other (List.mem_cons_of_mem _ later)) (before.plus a)

theorem decides_quantity (formula : Formula R) :
    Decides (formula.fault? (scope.map Variable.name)) (formula.quantity scope) := by
  induction formula using Formula.induct with
  | number value => exact ⟨_, rfl⟩
  | name text => exact decides_name text
  | sum items ih =>
      have fault : fault? (scope.map Variable.name) (.sum items) =
          (nodesOfItems items).find? (offends (scope.map Variable.name)) := by
        rw [fault?, nodes, List.find?_append]
        exact Option.or_none
      rw [fault, quantity]
      exact decides_total _ ih (.number 0)
  | difference left right ihLeft ihRight =>
      have fault : fault? (scope.map Variable.name) (.difference left right) =
          (left.fault? (scope.map Variable.name)).or (right.fault? (scope.map Variable.name)) := by
        rw [fault?, nodes, List.find?_append, List.find?_append]
        exact Option.or_none
      rw [fault, quantity]
      exact ihLeft.bind fun a _ => ihRight.bind_ok a.minus
  | product left right ihLeft ihRight =>
      -- The node itself comes last: its shape is only asked for when both sides are evaluated.
      have fault : fault? (scope.map Variable.name) (.product left right) =
          (left.fault? (scope.map Variable.name)).or ((right.fault? (scope.map Variable.name)).or
            (if left.hasName && right.hasName then some (.product left right) else none)) := by
        rw [fault?, nodes, List.find?_append, List.find?_append, Option.or_assoc]
        cases symbolic : left.hasName && right.hasName <;> simp [offends, symbolic, fault?]
      rw [fault, quantity]
      refine ihLeft.bind fun a first => ihRight.bind fun b second => ?_
      rw [← isSymbolic_of_denotes (denotes_of_quantity first),
        ← isSymbolic_of_denotes (denotes_of_quantity second)]
      exact decides_times left right a b
  | opposite inner ih =>
      have fault : fault? (scope.map Variable.name) (.opposite inner) =
          inner.fault? (scope.map Variable.name) := by
        rw [fault?, nodes, List.find?_append]
        exact Option.or_none
      rw [fault, quantity]
      exact ih.bind_ok Quantity.negated

theorem decides_evaluate (formula : Formula R) :
    Decides (formula.fault? (scope.map Variable.name)) (formula.evaluate scope) := by
  have decided : Decides _ (formula.quantity scope >>= fun q => .ok q.toExpression) :=
    (decides_quantity formula).bind_ok Quantity.toExpression
  rw [evaluate]
  cases done : formula.quantity scope with
  | error error =>
      rw [done] at decided
      exact decided
  | ok q =>
      rw [done] at decided
      exact decided

end Formula

namespace Requirement

theorem decides_evaluate (requirement : Requirement R) :
    Decides (requirement.nodes.find? (Formula.offends (scope.map Variable.name)))
      (requirement.evaluate scope) := by
  rw [nodes, List.find?_append, evaluate]
  exact (Formula.decides_evaluate requirement.left).bind fun left _ =>
    (Formula.decides_evaluate requirement.right).bind_ok _

theorem decides_evaluateAll (requirements : List (Requirement R)) :
    Decides ((requirements.flatMap nodes).find? (Formula.offends (scope.map Variable.name)))
      (evaluateAll scope requirements) := by
  induction requirements with
  | nil => exact ⟨[], rfl⟩
  | cons requirement rest ih =>
      rw [List.flatMap_cons, List.find?_append, evaluateAll]
      exact (decides_evaluate requirement).bind fun c _ => ih.bind_ok (c :: ·)

end Requirement

/-- With distinct names, compilation is decided by the first fault of the document. -/
theorem Document.decides_compile {document : Document R}
    (resolved : Declaration.resolve (R := R) document.declarations = .ok scope) :
    Decides (document.nodes.find? (Formula.offends (scope.map Variable.name)))
      document.compile := by
  rw [nodes, List.find?_append, compile, resolved]
  exact (Formula.decides_evaluate document.objective).bind fun objective _ =>
    (Requirement.decides_evaluateAll document.requirements).bind_ok _

/--
When a document compiles, and which error it ends with otherwise.  A repeated effective
name comes first, whatever the formulas are; then the first offending node; and without
either there is a model.
-/
theorem Document.compile_outcome (document : Document R) :
    (¬ (Declaration.effectiveNames document.declarations).Nodup →
      ∃ name, document.compile = .error (.duplicateVariable name) ∧
        Declaration.FirstRepeat (Declaration.effectiveNames document.declarations) name) ∧
    ((Declaration.effectiveNames document.declarations).Nodup →
      match document.nodes.find?
          (Formula.offends (Declaration.effectiveNames document.declarations)) with
      | some node => ∃ error, document.compile = .error error ∧ error.Blames node
      | none => ∃ model, document.compile = .ok model) := by
  rcases Declaration.resolve_cases (R := R) document.declarations with
    ⟨vars, resolved, names, -, distinct⟩ | ⟨name, resolved, first⟩
  · refine ⟨fun repeated => absurd distinct repeated, fun _ => ?_⟩
    have decided := decides_compile resolved
    rw [names] at decided
    unfold Decides at decided
    split at decided
    case h_1 none => simpa only [none] using decided
    case h_2 node some => simpa only [some] using decided
  · refine ⟨fun _ => ⟨name, ?_, first⟩, fun distinct => ?_⟩
    · rw [compile, resolved]
      rfl
    · exact absurd distinct (Declaration.not_nodup_of_firstRepeat first)

end

/-- A product that is refused for all its zero factor, in front of a name that is not declared. -/
def Document.vanishing : Document Int where
  direction := .minimize
  declarations := [⟨none, .binary⟩, ⟨some "u b 2", .integer⟩]
  objective :=
    .difference (.product (.product (.number 0) (.name "ub1")) (.name "ub 2")) (.name "y")
  requirements := []

/-- Its names are distinct, and its first fault is the product. -/
theorem Document.vanishing_refused :
    (Declaration.effectiveNames vanishing.declarations).Nodup ∧
      ∃ product, vanishing.compile = .error (.symbolicProduct product) := by
  have distinct : (Declaration.effectiveNames vanishing.declarations).Nodup := by decide
  obtain ⟨error, ended, blamed⟩ :
      ∃ error, vanishing.compile = .error error ∧ error.Blames
        (.product (.product (.number 0) (.name "ub1")) (.name "ub 2")) :=
    (compile_outcome vanishing).2 distinct
  refine ⟨distinct, ?_⟩
  cases error with
  | symbolicProduct product => exact ⟨product, ended⟩
  | unknownVariable name => cases blamed
  | duplicateVariable name => cases blamed

end MixedInteger
