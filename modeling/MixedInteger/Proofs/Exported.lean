import MixedInteger.Proofs.Layout
import MixedInteger.Proofs.Support

/-!
# Exported declarations

The set of variables that goes to a solver, and the sections of the written model, are
those that the document asks for: the declared variables that its constraints mention.
-/

namespace MixedInteger

/--
The text lists the wanted names under the heading: in one section, each once and in
strictly increasing order, or in no section if no name is wanted.
-/
def LpText.Lists (heading text : String) (wanted : String → Prop) : Prop :=
  ∃ names : List String, names.Pairwise (· < ·) ∧ (∀ name, name ∈ names ↔ wanted name) ∧
    LpText.sections heading text = if names.isEmpty then [] else [names]

theorem LpText.Lists.mem_iff {heading text : String} {wanted : String → Prop}
    (listed : Lists heading text wanted) (name : String) :
    (∃ names ∈ sections heading text, name ∈ names) ↔ wanted name := by
  obtain ⟨names, -, exactly, found⟩ := listed
  rw [found, ← exactly]
  cases names with
  | nil => simp
  | cons first rest => simp

theorem LpText.lists_write (direction : Direction) (objective : Expression Float)
    (constraints : List (Constraint Float)) (declared : VariableSet) {heading : String}
    {kind : Kind} (headed : heading? kind = some heading) :
    Lists heading (write direction objective constraints declared) fun name =>
      declared.Has name kind :=
  ⟨declared.namesOfKind kind, VariableSet.namesOfKind_increasing declared kind,
    fun _ => VariableSet.mem_namesOfKind,
    sections_write direction objective constraints declared headed⟩

/-- A section of an exported model lists what the document declares so and constrains. -/
theorem Document.lists_lpText {document : Document Float} {model : Model Float}
    (compiled : document.compile = .ok model) {heading : String} {kind : Kind}
    (headed : LpText.heading? kind = some heading) :
    LpText.Lists heading model.lpText fun name =>
      document.Declares name kind ∧ document.constrains name = true := by
  obtain ⟨names, increasing, exactly, found⟩ :=
    LpText.lists_write model.direction model.objective model.constraints model.declared headed
  refine ⟨names, increasing, ?_, found⟩
  intro name
  exact (exactly name).trans (has_declared_iff compiled)

theorem Document.notMem_sections {document : Document Float} {model : Model Float}
    (compiled : document.compile = .ok model) {heading : String} {kind : Kind}
    (headed : LpText.heading? kind = some heading) {name : String}
    (unwanted : document.Declares name .continuous ∨ document.constrains name = false)
    {names : List String} (listed : names ∈ LpText.sections heading model.lpText) :
    name ∉ names := by
  intro present
  obtain ⟨declared, constrained⟩ :=
    ((lists_lpText compiled headed).mem_iff name).mp ⟨names, listed, present⟩
  rcases unwanted with continuous | unconstrained
  · cases kind_unique compiled continuous declared
    cases headed
  · rw [constrained] at unconstrained
    cases unconstrained

/--
The declarations of an exported model match the document.  The declared set holds just the
declared variables that some constraint mentions, whatever their coefficients come to, each
of its declared kind.  The integer and the binary ones among them are listed in the two
sections; continuous variables and those outside of all constraints are in neither.
-/
theorem Document.exported_exactly {document : Document Float} {model : Model Float}
    (compiled : document.compile = .ok model) :
    (∀ v : Variable, v ∈ model.declared.keys ↔
      document.Declares v.name v.kind ∧ document.constrains v.name = true) ∧
    LpText.Lists "general" model.lpText (fun name =>
      document.Declares name .integer ∧ document.constrains name = true) ∧
    LpText.Lists "binary" model.lpText (fun name =>
      document.Declares name .binary ∧ document.constrains name = true) ∧
    ∀ name, document.Declares name .continuous ∨ document.constrains name = false →
      (∀ names ∈ LpText.sections "general" model.lpText, name ∉ names) ∧
      ∀ names ∈ LpText.sections "binary" model.lpText, name ∉ names := by
  have general : LpText.heading? .integer = some "general" := rfl
  have binary : LpText.heading? .binary = some "binary" := rfl
  refine ⟨fun v => mem_declared_iff compiled, lists_lpText compiled general,
    lists_lpText compiled binary, ?_⟩
  intro name unwanted
  constructor
  · intro names listed
    exact notMem_sections compiled general unwanted listed
  · intro names listed
    exact notMem_sections compiled binary unwanted listed

/-- One binary name cancels in the only constraint, and an integer name is in the objective only. -/
def Document.cancelling : Document Float where
  direction := .minimize
  declarations := [⟨some "x", .binary⟩, ⟨some "y", .continuous⟩, ⟨some "z", .integer⟩]
  objective := .name "z"
  requirements := [⟨.sum [.difference (.name "x") (.name " x"), .name "y"], .lessEqual, .number 1⟩]

/-- The cancelled name is still listed, and no other is. -/
theorem Document.cancelling_exported :
    ∃ model, cancelling.compile = .ok model ∧
      LpText.sections "general" model.lpText = [] ∧
      LpText.sections "binary" model.lpText = [["x"]] := by
  obtain ⟨model, compiled⟩ : ∃ model, cancelling.compile = .ok model := ⟨_, rfl⟩
  obtain ⟨-, ⟨integers, -, wantedIntegers, general⟩, ⟨binaries, increasing, wantedBinaries, binary⟩,
    -⟩ := exported_exactly compiled
  have declares (name : String) (kind : Kind) : cancelling.Declares name kind ↔
      (name, kind) ∈ [("x", Kind.binary), ("y", .continuous), ("z", .integer)] := by
    have declared : (Declaration.effectiveNames cancelling.declarations).zip
        (cancelling.declarations.map Declaration.kind) =
        [("x", .binary), ("y", .continuous), ("z", .integer)] := by decide
    rw [Declares, declared]
  have noIntegers : integers = [] := by
    apply List.eq_nil_iff_forall_not_mem.mpr
    intro name present
    obtain ⟨declared, constrained⟩ := (wantedIntegers name).mp present
    have named : name = "z" := by simpa [declares] using declared
    rw [named] at constrained
    exact absurd constrained (by decide)
  have oneBinary : binaries = ["x"] := by
    apply eq_of_increasing_of_mem_iff increasing (List.pairwise_singleton _ _)
    intro name
    rw [wantedBinaries, List.mem_singleton]
    constructor
    · rintro ⟨declared, -⟩
      simpa [declares] using declared
    · rintro rfl
      exact ⟨by simp [declares], by decide⟩
  refine ⟨model, compiled, ?_, ?_⟩
  · rw [general, noIntegers]
    rfl
  · rw [binary, oneBinary]
    rfl

end MixedInteger
