import MixedInteger.Proofs.Lockstep
import MixedInteger.Proofs.Support

/-!
# Blanks in names

Two documents that differ in the blanks of their names only are the same model, or have the
same fault.  Declared names and names in formulas are cleared of blanks by one function, so a
name finds its declaration however the two are spaced.
-/

namespace MixedInteger

/-- One text becomes the other when blanks are inserted and removed, wherever they stand. -/
inductive Text.Respaced : List Char → List Char → Prop where
  | nil : Respaced [] []
  | keep (c : Char) {s t : List Char} (rest : Respaced s t) : Respaced (c :: s) (c :: t)
  | removed {c : Char} (blank : isBlank c = true) {s t : List Char} (rest : Respaced s t) :
      Respaced (c :: s) t
  | inserted {c : Char} (blank : isBlank c = true) {s t : List Char} (rest : Respaced s t) :
      Respaced s (c :: t)

theorem Text.Respaced.unspaced_eq {s t : List Char} (respaced : Respaced s t) :
    unspaced s = unspaced t := by
  induction respaced with
  | nil => rfl
  | keep c rest ih =>
      rw [unspaced, unspaced, List.filter_cons, List.filter_cons, ← unspaced, ← unspaced, ih]
  | removed blank rest ih =>
      rw [← ih, unspaced, unspaced, List.filter_cons, blank]
      rfl
  | inserted blank rest ih =>
      rw [ih, unspaced, unspaced, List.filter_cons, blank]
      rfl

theorem Variable.nameOf_eq_of_respaced {s t : String}
    (respaced : Text.Respaced s.toList t.toList) : nameOf s = nameOf t := by
  rw [nameOf, nameOf, respaced.unspaced_eq]

/-- A variable is determined by its kind and by its name without blanks. -/
theorem Variable.named_congr (kind : Kind) {s t : String} (same : nameOf s = nameOf t) :
    named kind s = named kind t := by
  simp only [named, same]

/-! ## Respaced documents -/

/-- The formulas differ in the blanks of their names only. -/
inductive Formula.Respaced : Formula Float → Formula Float → Prop where
  | number (value : Float) : Respaced (.number value) (.number value)
  | name {s t : String} (respaced : Text.Respaced s.toList t.toList) :
      Respaced (.name s) (.name t)
  | sum {items others : List (Formula Float)} (each : List.Forall₂ Respaced items others) :
      Respaced (.sum items) (.sum others)
  | difference {a b c d : Formula Float} (left : Respaced a b) (right : Respaced c d) :
      Respaced (.difference a c) (.difference b d)
  | product {a b c d : Formula Float} (left : Respaced a b) (right : Respaced c d) :
      Respaced (.product a c) (.product b d)
  | opposite {a b : Formula Float} (inner : Respaced a b) : Respaced (.opposite a) (.opposite b)

structure Requirement.Respaced (requirement other : Requirement Float) : Prop where
  left : requirement.left.Respaced other.left
  relation : requirement.relation = other.relation
  right : requirement.right.Respaced other.right

/-- Both declarations have no name, or names that differ in blanks only. -/
structure Declaration.Respaced (d e : Declaration) : Prop where
  name : Option.Rel (fun s t : String => Text.Respaced s.toList t.toList) d.name e.name
  kind : d.kind = e.kind

/-- The documents differ in the blanks of declared and of mentioned names only. -/
structure Document.Respaced (document other : Document Float) : Prop where
  direction : document.direction = other.direction
  declarations : List.Forall₂ Declaration.Respaced document.declarations other.declarations
  objective : document.objective.Respaced other.objective
  requirements : List.Forall₂ Requirement.Respaced document.requirements other.requirements

/-! ## Declarations and formulas -/

theorem Declaration.Respaced.make_eq {d e : Declaration} (respaced : d.Respaced e)
    (naming : Naming) : naming.make d.kind d.name = naming.make e.kind e.name := by
  obtain ⟨name, kind⟩ := d
  obtain ⟨name', kind'⟩ := e
  obtain ⟨names, rfl⟩ := respaced
  cases names with
  | some texts =>
      have same := Variable.nameOf_eq_of_respaced texts
      exact congrArg (·, naming) (Variable.named_congr kind same)
  | none => rfl

theorem Declaration.resolveFrom_respaced {declarations others : List Declaration}
    (respaced : List.Forall₂ Declaration.Respaced declarations others) (naming : Naming)
    (earlier : List Variable) :
    resolveFrom (R := Float) naming earlier declarations = resolveFrom naming earlier others := by
  induction respaced generalizing naming earlier with
  | nil => rfl
  | cons head tail ih =>
      rw [resolveFrom, resolveFrom, head.make_eq naming]
      simp only [ih]

/-- Names that are equal without their blanks, which is how they are compared. -/
def SameName (s t : String) : Prop := Variable.nameOf s = Variable.nameOf t

theorem SameName.refl (s : String) : SameName s s := rfl

theorem Formula.Respaced.agree {scope : List Variable} {formula other : Formula Float}
    (respaced : formula.Respaced other) : formula.Agree Eq SameName scope scope other := by
  induction formula using Formula.induct generalizing other with
  | number value =>
      cases respaced
      exact .number Expression.congruence_eq value
  | name text =>
      cases respaced with
      | name texts =>
          have same := Variable.nameOf_eq_of_respaced texts
          exact .name Expression.congruence_eq same (by rw [resolveName, resolveName, same])
  | sum items ih =>
      cases respaced with
      | @sum _ others each =>
          have both := (List.forall₂_and_left items others).mpr ⟨ih, each⟩
          exact .sum Expression.congruence_eq (both.imp fun a b pair => pair.1 pair.2)
  | difference left right ihLeft ihRight =>
      cases respaced with
      | difference one two => exact .difference Expression.congruence_eq (ihLeft one) (ihRight two)
  | product left right ihLeft ihRight =>
      cases respaced with
      | product one two => exact .product Expression.congruence_eq (ihLeft one) (ihRight two)
  | opposite inner ih =>
      cases respaced with
      | opposite only => exact .opposite Expression.congruence_eq (ih only)

theorem Requirement.Respaced.agree {scope : List Variable} {requirement other : Requirement Float}
    (respaced : requirement.Respaced other) :
    requirement.Agree Eq SameName scope scope other :=
  ⟨respaced.left.agree, respaced.relation, respaced.right.agree⟩

theorem Declaration.resolve_respaced {declarations others : List Declaration}
    (respaced : List.Forall₂ Declaration.Respaced declarations others) :
    resolve (R := Float) declarations = resolve others :=
  resolveFrom_respaced respaced .fresh []

/-! ## Documents -/

namespace Document

/-- Respaced documents have equal models, or faults that differ in the blanks of a name only. -/
theorem Respaced.sameOutcome {document other : Document Float}
    (respaced : document.Respaced other) :
    SameOutcome (ModelError.Alike Eq SameName) Eq document.compile other.compile := by
  have declared := Declaration.resolve_respaced respaced.declarations
  cases resolved : Declaration.resolve (R := Float) document.declarations with
  | error error =>
      rw [compile, compile, ← declared, resolved]
      exact .error (.refl (fun _ => rfl) SameName.refl error)
  | ok scope =>
      have same := sameOutcome_compile Expression.congruence_eq resolved
        (declared ▸ resolved) respaced.direction respaced.objective.agree
        (respaced.requirements.imp fun _ _ requirement => requirement.agree)
      refine same.imp (fun alike => alike) ?_
      rintro ⟨direction, vars, objective, constraints⟩ model' ⟨rfl, same, alike⟩
      obtain ⟨direction', vars', objective', constraints'⟩ := model'
      obtain rfl : direction = direction' := alike.direction
      obtain rfl : vars' = vars := same
      obtain rfl : objective = objective' := alike.objective
      obtain rfl : constraints = constraints' := alike.constraints_eq
      rfl

variable {document : Document Float} {model : Model Float}

/-- The variables of an evaluated expression come from the declared ones. -/
theorem mem_vars_of_find? {scope : List Variable} {e : Expression Float} {mentioned : Bool}
    {v : Variable} (present : v ∈ e.vars)
    (found : e.var? v.name = if mentioned then scope.find? (·.name == v.name) else none) :
    v ∈ scope := by
  rw [Expression.mem_vars_iff.mp present] at found
  cases mentioned with
  | true => exact List.mem_of_find?_eq_some found.symm
  | false => cases found

theorem mem_vars_of_mem_objective (compiled : document.compile = .ok model) {v : Variable}
    (present : v ∈ model.objective.vars) : v ∈ model.vars := by
  obtain ⟨q, denotes, same⟩ := (denotes_of_compile compiled).objective
  rw [same] at present
  exact mem_vars_of_find? present (Formula.var?_of_denotes denotes v.name)

theorem mem_vars_of_mem_constraint (compiled : document.compile = .ok model) {c : Constraint Float}
    (listed : c ∈ model.constraints) {v : Variable} (present : v ∈ c.vars) : v ∈ model.vars := by
  have mentioned : v ∈ model.constraints.flatMap Constraint.vars :=
    List.mem_flatMap.mpr ⟨c, listed, present⟩
  have denotes := (denotes_of_compile compiled).constraints
  exact List.mem_of_find?_eq_some ((Requirement.mem_flatMap_vars_iff denotes v).mp mentioned).2

/--
Blanks in names do not matter.  A document and its respaced form describe equal models, or
have equal faults up to the blanks of an unknown name.  In a model no name has a blank, no
two variables have one name, and the objective and the constraints mention declared
variables only, each with its declared kind.
-/
theorem blanks_do_not_matter (document : Document Float) :
    (∀ other, document.Respaced other →
      SameOutcome (ModelError.Alike Eq SameName) Eq document.compile other.compile) ∧
    ∀ model, document.compile = .ok model →
      (∀ v ∈ model.vars, ∀ c ∈ v.name.toList, Text.isBlank c = false) ∧
      (model.vars.map Variable.name).Nodup ∧
      ∀ v : Variable, (v ∈ model.objective.vars ∨ ∃ c ∈ model.constraints, v ∈ c.vars) →
        v ∈ model.vars ∧ document.Declares v.name v.kind := by
  refine ⟨fun other => Respaced.sameOutcome, fun model compiled => ⟨?_, ?_, ?_⟩⟩
  · intro v _
    exact v.name_unspaced
  · exact (Declaration.resolve_ok (denotes_of_compile compiled).vars).2.2
  · intro v mentioned
    have declared : v ∈ model.vars := by
      rcases mentioned with present | ⟨c, listed, present⟩
      · exact mem_vars_of_mem_objective compiled present
      · exact mem_vars_of_mem_constraint compiled listed present
    exact ⟨declared, (mem_vars_iff compiled).mp declared⟩

/-- One name is written with a blank in its declaration and in the constraint. -/
def spaced : Document Float where
  direction := .minimize
  declarations := [⟨some "x 1", .integer⟩, ⟨none, .binary⟩]
  objective := .name "x1"
  requirements := [⟨.sum [.name "x 1", .name "ub1"], .lessEqual, .number 1⟩]

/-- The same document, with blanks in the objective and in the generated name only. -/
def compact : Document Float where
  direction := .minimize
  declarations := [⟨some "x1", .integer⟩, ⟨none, .binary⟩]
  objective := .name "x\u00A01"
  requirements := [⟨.sum [.name "x1", .name "ub 1"], .lessEqual, .number 1⟩]

theorem spaced_respaced : spaced.Respaced compact := by
  have blank : Text.isBlank ' ' = true := rfl
  have removed : Text.Respaced "x 1".toList "x1".toList :=
    .keep 'x' (.removed blank (.keep '1' .nil))
  have inserted : Text.Respaced "x1".toList "x\u00A01".toList :=
    .keep 'x' (.inserted rfl (.keep '1' .nil))
  have generated : Text.Respaced "ub1".toList "ub 1".toList :=
    .keep 'u' (.keep 'b' (.inserted blank (.keep '1' .nil)))
  have sum := Formula.Respaced.sum (.cons (.name removed) (.cons (.name generated) .nil))
  refine ⟨rfl, .cons ⟨.some removed, rfl⟩ (.cons ⟨.none, rfl⟩ .nil), .name inserted, ?_⟩
  exact .cons ⟨sum, rfl, .number 1⟩ .nil

/-- Both spellings are one model, whose constraint mentions declared variables. -/
theorem spaced_is_compact :
    ∃ model, spaced.compile = .ok model ∧ compact.compile = .ok model ∧
      (model.vars.map Variable.name).Nodup ∧
      ∀ c ∈ model.constraints, ∀ v ∈ c.vars, spaced.Declares v.name v.kind := by
  obtain ⟨model, compiled⟩ : ∃ model, spaced.compile = .ok model := ⟨_, rfl⟩
  obtain ⟨respacings, models⟩ := blanks_do_not_matter spaced
  obtain ⟨-, distinct, mentioned⟩ := models model compiled
  have outcome := respacings compact spaced_respaced
  rw [compiled] at outcome
  generalize compact.compile = result at outcome ⊢
  cases outcome with
  | ok same =>
      refine ⟨model, compiled, congrArg _ same.symm, distinct, ?_⟩
      intro c listed v present
      exact (mentioned v (.inr ⟨c, listed, present⟩)).2

end Document

end MixedInteger
