import MixedInteger.Proofs.Lockstep
import MixedInteger.Proofs.Support

/-!
# Declarations behind names

An exported model shows of its declarations just which kinds the mentioned names have.  Two
lists of declarations that agree on these give the same expressions and the same text, in
whatever order they declare, and whatever else they declare.
-/

namespace MixedInteger

/-- Some formula of the document mentions the name. -/
def Document.mentions {R : Type} (document : Document R) (name : String) : Bool :=
  document.objective.mentions name || document.constrains name

/-- The documents differ in their declarations at most. -/
structure Document.SameBody (document other : Document Float) : Prop where
  direction : document.direction = other.direction
  objective : document.objective = other.objective
  requirements : document.requirements = other.requirements

namespace Declaration

/-! ## Declared names and kinds -/

/-- The effective names and the kinds of declarations that come after some others. -/
def pairsAfter (before declarations : List Declaration) : List (String × Kind) :=
  (effectiveNamesAfter before declarations).zip (declarations.map Declaration.kind)

theorem pairsAfter_cons (before : List Declaration) (d : Declaration) (rest : List Declaration) :
    pairsAfter before (d :: rest) =
      (effectiveName before d, d.kind) :: pairsAfter (before ++ [d]) rest := rfl

theorem pairsAfter_append (before first second : List Declaration) :
    pairsAfter before (first ++ second) =
      pairsAfter before first ++ pairsAfter (before ++ first) second := by
  induction first generalizing before with
  | nil => rw [List.append_nil]; rfl
  | cons d rest ih =>
      rw [List.cons_append, pairsAfter_cons, pairsAfter_cons, ih, List.append_assoc]
      rfl

theorem map_fst_pairsAfter (before declarations : List Declaration) :
    (pairsAfter before declarations).map Prod.fst = effectiveNamesAfter before declarations := by
  induction declarations generalizing before with
  | nil => rfl
  | cons d rest ih => rw [pairsAfter_cons, List.map_cons, ih, effectiveNamesAfter]

theorem nameless_append (first second : List Declaration) (kind : Kind) :
    nameless (first ++ second) kind = nameless first kind + nameless second kind :=
  List.countP_append

/-- Of the declarations before, only how many nameless ones there are of each kind matters. -/
theorem effectiveName_congr {before before' : List Declaration}
    (same : nameless before = nameless before') (d : Declaration) :
    effectiveName before d = effectiveName before' d := by
  unfold effectiveName
  rw [nameless_append, nameless_append, same]

theorem pairsAfter_congr {before before' : List Declaration}
    (same : nameless before = nameless before') (declarations : List Declaration) :
    pairsAfter before declarations = pairsAfter before' declarations := by
  induction declarations generalizing before before' with
  | nil => rfl
  | cons d rest ih =>
      have longer : nameless (before ++ [d]) = nameless (before' ++ [d]) := by
        funext kind
        rw [nameless_append, nameless_append, same]
      rw [pairsAfter_cons, pairsAfter_cons, effectiveName_congr same, ih longer]

/-- A declaration leaves the name of the next one alone, unless both are nameless of one kind. -/
theorem effectiveName_concat {d e : Declaration} (different : d ≠ e)
    (before : List Declaration) : effectiveName (before ++ [e]) d = effectiveName before d := by
  obtain ⟨name, kind⟩ := d
  obtain ⟨name', kind'⟩ := e
  cases name with
  | some text => rfl
  | none =>
      have uncounted : nameless [⟨name', kind'⟩] kind = 0 := by
        cases name' with
        | some text => rfl
        | none =>
            have apart : kind' ≠ kind := by
              rintro rfl
              exact different rfl
            simp [nameless, apart]
      simp only [effectiveName, nameless_append, uncounted, Nat.add_zero]

theorem pairsAfter_swap (before : List Declaration) (d e : Declaration)
    (rest : List Declaration) :
    (pairsAfter before (d :: e :: rest)).Perm (pairsAfter before (e :: d :: rest)) := by
  by_cases equal : d = e
  · rw [equal]
  · have counted : nameless (before ++ [d] ++ [e]) = nameless (before ++ [e] ++ [d]) := by
      funext kind
      simp only [nameless_append]
      omega
    simp only [pairsAfter_cons]
    rw [effectiveName_concat equal, effectiveName_concat (Ne.symm equal), pairsAfter_congr counted]
    exact .swap _ _ _

/-- The order of declarations does not change which names they declare, or of which kinds. -/
theorem pairsAfter_perm {declarations others : List Declaration}
    (permuted : declarations.Perm others) (before : List Declaration) :
    (pairsAfter before declarations).Perm (pairsAfter before others) := by
  induction permuted generalizing before with
  | nil => exact .nil
  | cons d _ ih =>
      rw [pairsAfter_cons, pairsAfter_cons]
      exact (ih _).cons _
  | swap d e rest => exact pairsAfter_swap before e d rest
  | trans _ _ ihFirst ihSecond => exact (ihFirst before).trans (ihSecond before)

theorem exists_resolve {declarations : List Declaration}
    (distinct : (effectiveNames declarations).Nodup) :
    ∃ vars, resolve (R := Float) declarations = .ok vars := by
  rcases resolve_cases (R := Float) declarations with ⟨vars, resolved, -⟩ | ⟨name, -, first⟩
  · exact ⟨vars, resolved⟩
  · exact absurd distinct (not_nodup_of_firstRepeat first)

end Declaration

/-! ## Formulas -/

theorem Formula.mentions_of_mem_texts {formula : Formula Float} {text : String}
    (present : text ∈ formula.texts) : formula.mentions (Variable.nameOf text) = true :=
  List.any_eq_true.mpr ⟨text, present, beq_self_eq_true _⟩

/-- A formula agrees with itself if its names refer to the same variables. -/
theorem Formula.agree_of_resolved {scope scope' : List Variable} {formula : Formula Float}
    (resolved : ∀ text ∈ formula.texts, resolveName scope text = resolveName scope' text) :
    formula.Agree Eq Eq scope scope' formula := by
  induction formula using Formula.induct with
  | number value => exact .number Expression.congruence_eq value
  | name text => exact .name Expression.congruence_eq rfl (resolved text (List.mem_singleton_self _))
  | sum items ih =>
      refine .sum Expression.congruence_eq (List.forall₂_same.mpr fun item present => ?_)
      exact ih item present fun text mentioned => resolved text (mem_texts_sum present mentioned)
  | difference left right ihLeft ihRight =>
      simp only [texts_difference, List.mem_append] at resolved
      exact .difference Expression.congruence_eq (ihLeft fun text here => resolved text (.inl here))
        (ihRight fun text here => resolved text (.inr here))
  | product left right ihLeft ihRight =>
      simp only [texts_product, List.mem_append] at resolved
      exact .product Expression.congruence_eq (ihLeft fun text here => resolved text (.inl here))
        (ihRight fun text here => resolved text (.inr here))
  | opposite inner ih =>
      simp only [texts_opposite] at resolved
      exact .opposite Expression.congruence_eq (ih resolved)

theorem Document.mentions_of_requirement {document : Document Float}
    {requirement : Requirement Float} (listed : requirement ∈ document.requirements) {name : String}
    (mentioned : requirement.mentions name = true) : document.mentions name = true := by
  rw [mentions, constrains, List.any_eq_true.mpr ⟨requirement, listed, mentioned⟩, Bool.or_true]

theorem resolveName_eq_some_iff {scope : List Variable}
    (distinct : (scope.map Variable.name).Nodup) {text : String} {v : Variable} :
    resolveName scope text = some v ↔ v ∈ scope ∧ v.name = Variable.nameOf text := by
  constructor
  · intro resolved
    exact ⟨List.mem_of_find?_eq_some resolved, name_of_resolveName resolved⟩
  · rintro ⟨present, named⟩
    rw [resolveName, ← named]
    exact (find?_name_eq_some_iff distinct).mpr present

/-! ## Documents -/

namespace Document

variable {document other : Document Float}

/-- What is exported of a model: all but the declared variables that no formula mentions. -/
def SameExport (model other : Model Float) : Prop :=
  model.objective = other.objective ∧ model.constraints = other.constraints ∧
    model.lpText = other.lpText ∧ model.declared = other.declared

/-- Mentioned names are resolved alike if they are declared with the same kinds. -/
theorem resolveName_congr {scope scope' : List Variable}
    (resolved : Declaration.resolve (R := Float) document.declarations = .ok scope)
    (resolved' : Declaration.resolve (R := Float) other.declarations = .ok scope') {text : String}
    (kinds : ∀ kind, document.Declares (Variable.nameOf text) kind ↔
      other.Declares (Variable.nameOf text) kind) :
    resolveName scope text = resolveName scope' text := by
  have distinct := (Declaration.resolve_ok resolved).2.2
  have distinct' := (Declaration.resolve_ok resolved').2.2
  apply Option.ext
  intro v
  rw [resolveName_eq_some_iff distinct, resolveName_eq_some_iff distinct']
  refine and_congr_left fun named => ?_
  rw [Declaration.mem_of_resolve_iff resolved, Declaration.mem_of_resolve_iff resolved', named]
  exact kinds v.kind

theorem sameExport_of_kinds (same : document.SameBody other)
    (distinct : (Declaration.effectiveNames document.declarations).Nodup)
    (distinct' : (Declaration.effectiveNames other.declarations).Nodup)
    (kinds : ∀ name, document.mentions name = true →
      ∀ kind, document.Declares name kind ↔ other.Declares name kind) :
    SameOutcome Eq SameExport document.compile other.compile := by
  obtain ⟨scope, resolved⟩ := Declaration.exists_resolve distinct
  obtain ⟨scope', resolved'⟩ := Declaration.exists_resolve distinct'
  have agree {text : String} (mentioned : document.mentions (Variable.nameOf text) = true) :
      resolveName scope text = resolveName scope' text :=
    resolveName_congr resolved resolved' (kinds _ mentioned)
  have objective : document.objective.Agree Eq Eq scope scope' other.objective := by
    rw [← same.objective]
    refine Formula.agree_of_resolved fun text present => agree ?_
    rw [mentions, Formula.mentions_of_mem_texts present, Bool.true_or]
  have requirements : List.Forall₂ (Requirement.Agree Eq Eq scope scope') document.requirements
      other.requirements := by
    rw [← same.requirements]
    refine List.forall₂_same.mpr fun requirement listed => ⟨?_, rfl, ?_⟩
    · refine Formula.agree_of_resolved fun text present => agree (mentions_of_requirement listed ?_)
      rw [Requirement.mentions, Formula.mentions_of_mem_texts present, Bool.true_or]
    · refine Formula.agree_of_resolved fun text present => agree (mentions_of_requirement listed ?_)
      rw [Requirement.mentions, Formula.mentions_of_mem_texts present, Bool.or_true]
  have outcome := sameOutcome_compile Expression.congruence_eq resolved resolved' same.direction
    objective requirements
  refine outcome.imp ?_ ?_
  · exact fun alike => alike.eq
  · rintro model model' ⟨-, -, alike⟩
    have constraints := alike.constraints_eq
    have declared : model.declared = model'.declared := by
      rw [Model.declared, Model.declared, constraints]
    refine ⟨alike.objective, constraints, ?_, declared⟩
    rw [Model.lpText, Model.lpText, alike.direction, alike.objective, constraints, declared]

/-- Declarations in another order, with some more behind them that no formula mentions. -/
theorem sameExport_of_perm (same : document.SameBody other)
    (distinct : (Declaration.effectiveNames other.declarations).Nodup) {added : List Declaration}
    (permuted : other.declarations.Perm (document.declarations ++ added))
    (unmentioned : ∀ name ∈ Declaration.effectiveNamesAfter document.declarations added,
      document.mentions name = false) :
    SameOutcome Eq SameExport document.compile other.compile := by
  have pairs := Declaration.pairsAfter_perm permuted []
  rw [Declaration.pairsAfter_append, List.nil_append] at pairs
  have names := pairs.map Prod.fst
  rw [List.map_append, Declaration.map_fst_pairsAfter, Declaration.map_fst_pairsAfter,
    Declaration.map_fst_pairsAfter] at names
  have first := (List.nodup_append.mp (names.nodup distinct)).1
  refine sameExport_of_kinds same first distinct fun name mentioned kind => ?_
  have declared : other.Declares name kind ↔ document.Declares name kind ∨
      (name, kind) ∈ Declaration.pairsAfter document.declarations added :=
    pairs.mem_iff.trans List.mem_append
  have later : (name, kind) ∉ Declaration.pairsAfter document.declarations added := by
    intro present
    have named : name ∈ Declaration.effectiveNamesAfter document.declarations added := by
      rw [← Declaration.map_fst_pairsAfter]
      exact List.mem_map.mpr ⟨_, present, rfl⟩
    rw [unmentioned name named] at mentioned
    cases mentioned
  rw [declared, or_iff_left later]

/--
Declarations matter through the kinds of mentioned names only.  Documents with distinct
declared names that say the same otherwise, and declare every mentioned name with the same
kind or not at all, have the same fault, or export the same objective, constraints, text and
variables.  So it is if declarations are put in another order, and if others are added or
taken away that no formula mentions.
-/
theorem declarations_matter_by_kinds {document other : Document Float}
    (same : document.SameBody other)
    (distinct : (Declaration.effectiveNames other.declarations).Nodup) :
    ((Declaration.effectiveNames document.declarations).Nodup →
      (∀ name, document.mentions name = true →
        ∀ kind, document.Declares name kind ↔ other.Declares name kind) →
      SameOutcome Eq SameExport document.compile other.compile) ∧
    ∀ added : List Declaration, other.declarations.Perm (document.declarations ++ added) →
      (∀ name ∈ Declaration.effectiveNamesAfter document.declarations added,
        document.mentions name = false) →
      SameOutcome Eq SameExport document.compile other.compile := by
  constructor
  · exact fun distinct' kinds => sameExport_of_kinds same distinct' distinct kinds
  · exact fun added => sameExport_of_perm same distinct

/-- A name is generated for the binary variable, which the constraint mentions. -/
def briefly : Document Float where
  direction := .minimize
  declarations := [⟨some "x", .integer⟩, ⟨none, .binary⟩]
  objective := .name "x"
  requirements := [⟨.sum [.name "x", .name "ub1"], .lessEqual, .number 1⟩]

/-- The mentioned names are declared with the same kinds, all of them as they are written. -/
def literally : Document Float :=
  { briefly with
    declarations := [⟨some "u b1", .binary⟩, ⟨some "y", .binary⟩, ⟨some "x", .integer⟩] }

/-- The declarations in another order, and two others that no formula mentions. -/
def atLength : Document Float :=
  { briefly with
    declarations :=
      [⟨some "y", .binary⟩, ⟨none, .binary⟩, ⟨none, .binary⟩, ⟨some "x", .integer⟩] }

theorem mentions_briefly {name : String} (mentioned : briefly.mentions name = true) :
    name = "x" ∨ name = "ub1" := by
  have texts : ["x", "x", "ub1"].any (fun text => Variable.nameOf text == name) = true := by
    simpa [mentions, constrains, briefly, Requirement.mentions, Formula.mentions, Formula.texts,
      Formula.nodes, Formula.nodesOfItems, Formula.nameText?] using mentioned
  obtain ⟨text, present, same⟩ := List.any_eq_true.mp texts
  obtain rfl := eq_of_beq same
  rcases List.mem_cons.mp present with rfl | present
  · exact .inl (by decide)
  · rcases List.mem_cons.mp present with rfl | present
    · exact .inl (by decide)
    · exact .inr (by rw [List.mem_singleton.mp present]; decide)

/-- The three documents declare two, three and four variables, and export the same. -/
theorem briefly_exported :
    (∃ model, briefly.compile = .ok model) ∧
      SameOutcome Eq SameExport briefly.compile literally.compile ∧
      SameOutcome Eq SameExport briefly.compile atLength.compile := by
  refine ⟨⟨_, rfl⟩, ?_, ?_⟩
  · have same : briefly.SameBody literally := ⟨rfl, rfl, rfl⟩
    have distinct : (Declaration.effectiveNames literally.declarations).Nodup := by decide
    have distinct' : (Declaration.effectiveNames briefly.declarations).Nodup := by decide
    refine (declarations_matter_by_kinds same distinct).1 distinct' fun name mentioned kind => ?_
    change (name, kind) ∈ List.zip _ _ ↔ (name, kind) ∈ List.zip _ _
    rcases mentions_briefly mentioned with rfl | rfl <;> cases kind <;> decide
  · have same : briefly.SameBody atLength := ⟨rfl, rfl, rfl⟩
    have distinct : (Declaration.effectiveNames atLength.declarations).Nodup := by decide
    refine (declarations_matter_by_kinds same distinct).2
      [⟨some "y", .binary⟩, ⟨none, .binary⟩] (by decide) ?_
    intro name added
    have declared : name ∈ ["y", "ub2"] := added
    rcases List.mem_cons.mp declared with rfl | last
    · rfl
    · rw [List.mem_singleton.mp last]
      rfl

end Document

end MixedInteger
