import MixedInteger.Model
import MixedInteger.Proofs.Solid

/-!
# Names of declarations

The effective name of a declaration depends on the declarations before it and on
nothing else.  Resolving a list of declarations yields one variable for each, with
its effective name and its kind, unless some effective name repeats an earlier one;
the first that does is then reported.
-/

namespace MixedInteger.Declaration

/-- How many of some declarations have a kind and no name. -/
def nameless (declarations : List Declaration) (kind : Kind) : Nat :=
  declarations.countP fun d => d.name.isNone && d.kind == kind

/--
The effective name of a declaration that comes after some others: the given name without
its blanks, or a generated name that counts the nameless declarations of its kind.
-/
def effectiveName (before : List Declaration) (d : Declaration) : String :=
  match d.name with
  | some text => Variable.nameOf text
  | none => Naming.generatedName d.kind (nameless (before ++ [d]) d.kind)

/-- The effective names of declarations that come after some others. -/
def effectiveNamesAfter (before : List Declaration) : List Declaration → List String
  | [] => []
  | d :: rest => effectiveName before d :: effectiveNamesAfter (before ++ [d]) rest

/-- The effective names of a list of declarations, in order. -/
def effectiveNames (declarations : List Declaration) : List String :=
  effectiveNamesAfter [] declarations

/-- The counts of generated names are those of the nameless declarations so far. -/
def Counts (before : List Declaration) (naming : Naming) : Prop :=
  ∀ kind, naming.count kind = nameless before kind

variable {before : List Declaration} {naming : Naming}

theorem counts_fresh : Counts [] .fresh :=
  Naming.count_fresh

theorem make_name (counts : Counts before naming) (d : Declaration) :
    (naming.make d.kind d.name).1.name = effectiveName before d := by
  obtain ⟨name, kind⟩ := d
  cases name with
  | some text => rfl
  | none =>
      have next : (naming.advance kind).count kind = nameless (before ++ [⟨none, kind⟩]) kind := by
        rw [Naming.count_advance, counts]
        simp [nameless]
      change Variable.nameOf (Naming.generatedName kind ((naming.advance kind).count kind)) =
        Naming.generatedName kind (nameless (before ++ [⟨none, kind⟩]) kind)
      rw [Naming.nameOf_generatedName, next]

theorem make_kind (naming : Naming) (d : Declaration) :
    (naming.make d.kind d.name).1.kind = d.kind := by
  obtain ⟨name, kind⟩ := d
  cases name <;> rfl

theorem counts_make (counts : Counts before naming) (d : Declaration) :
    Counts (before ++ [d]) (naming.make d.kind d.name).2 := by
  obtain ⟨name, kind⟩ := d
  intro other
  cases name with
  | some text => simpa [nameless, Naming.make] using counts other
  | none =>
      change (naming.advance kind).count other = _
      rw [Naming.count_advance, counts]
      simp [nameless]

variable {R : Type}

/-- The variables resolved from declarations, with those that stood before them. -/
structure Resolved (earlier : List Variable) (before declarations : List Declaration)
    (vars : List Variable) : Prop where
  names : vars.map Variable.name =
    (earlier.reverse.map Variable.name) ++ effectiveNamesAfter before declarations
  kinds : vars.map Variable.kind =
    (earlier.reverse.map Variable.kind) ++ declarations.map Declaration.kind
  distinct : (vars.map Variable.name).Nodup

/-- Among some names one is the first that repeats an earlier one. -/
def FirstRepeat (names : List String) (name : String) : Prop :=
  ∃ first rest, names = first ++ name :: rest ∧ first.Nodup ∧ name ∈ first

/-- Resolution goes on with distinct names until it ends or until a name repeats. -/
theorem resolveFrom_cases (counts : Counts before naming) {earlier : List Variable}
    (distinct : (earlier.reverse.map Variable.name).Nodup) (declarations : List Declaration) :
    (∃ vars, resolveFrom (R := R) naming earlier declarations = .ok vars ∧
      Resolved earlier before declarations vars) ∨
    (∃ name, resolveFrom (R := R) naming earlier declarations = .error (.duplicateVariable name) ∧
      FirstRepeat (earlier.reverse.map Variable.name ++ effectiveNamesAfter before declarations)
        name) := by
  induction declarations generalizing before naming earlier with
  | nil =>
      refine .inl ⟨earlier.reverse, rfl, ?_, ?_, distinct⟩
      · simp [effectiveNamesAfter]
      · simp
  | cons d rest ih =>
      have named := make_name counts d
      have kinded := make_kind naming d
      have counted := counts_make counts d
      rw [resolveFrom]
      generalize naming.make d.kind d.name = made at named kinded counted ⊢
      obtain ⟨v, next⟩ := made
      dsimp only at named kinded counted ⊢
      split
      case isTrue repeated =>
        obtain ⟨w, present, same⟩ := List.any_eq_true.mp repeated
        refine .inr ⟨v.name, rfl, earlier.reverse.map Variable.name,
          effectiveNamesAfter (before ++ [d]) rest, ?_, distinct, ?_⟩
        · rw [effectiveNamesAfter, named]
        · exact List.mem_map.mpr ⟨w, List.mem_reverse.mpr present, eq_of_beq same⟩
      case isFalse new =>
        have absent : v.name ∉ earlier.reverse.map Variable.name := by
          intro present
          obtain ⟨w, member, same⟩ := List.mem_map.mp present
          exact new (List.any_eq_true.mpr ⟨w, List.mem_reverse.mp member, beq_iff_eq.mpr same⟩)
        have longer : ((v :: earlier).reverse.map Variable.name).Nodup := by
          rw [List.reverse_cons, List.map_append]
          exact List.nodup_append.mpr ⟨distinct, List.nodup_cons.mpr ⟨List.not_mem_nil, .nil⟩,
            fun a left b right => by
              rintro rfl
              exact absent (List.mem_singleton.mp right ▸ left)⟩
        rcases ih counted longer with ⟨vars, ended, names, kinds, apart⟩ | ⟨name, ended, first⟩
        · refine .inl ⟨vars, ended, ?_, ?_, apart⟩
          · simpa [effectiveNamesAfter, named] using names
          · simpa [kinded] using kinds
        · exact .inr ⟨name, ended, by simpa [effectiveNamesAfter, named] using first⟩

/-- The declared variables carry the effective names and the kinds, and no name twice. -/
theorem resolve_cases (declarations : List Declaration) :
    (∃ vars, resolve (R := R) declarations = .ok vars ∧
      vars.map Variable.name = effectiveNames declarations ∧
      vars.map Variable.kind = declarations.map Declaration.kind ∧
      (effectiveNames declarations).Nodup) ∨
    (∃ name, resolve (R := R) declarations = .error (.duplicateVariable name) ∧
      FirstRepeat (effectiveNames declarations) name) := by
  have none : ((([] : List Variable).reverse).map Variable.name).Nodup := .nil
  rcases resolveFrom_cases (R := R) counts_fresh none declarations with
    ⟨vars, ended, names, kinds, distinct⟩ | ⟨name, ended, first⟩
  · refine .inl ⟨vars, ended, names, kinds, ?_⟩
    rw [names] at distinct
    exact distinct
  · exact .inr ⟨name, ended, first⟩

theorem resolve_ok {declarations : List Declaration} {vars : List Variable}
    (resolved : resolve (R := R) declarations = .ok vars) :
    vars.map Variable.name = effectiveNames declarations ∧
      vars.map Variable.kind = declarations.map Declaration.kind ∧
      (vars.map Variable.name).Nodup := by
  rcases resolve_cases (R := R) declarations with
    ⟨others, ended, names, kinds, distinct⟩ | ⟨name, ended, first⟩
  · cases ended.symm.trans resolved
    exact ⟨names, kinds, names ▸ distinct⟩
  · cases ended.symm.trans resolved

/-- A variable is resolved from some declarations if they declare its name with its kind. -/
theorem mem_of_resolve_iff {declarations : List Declaration} {vars : List Variable}
    (resolved : resolve (R := R) declarations = .ok vars) {v : Variable} :
    v ∈ vars ↔
      (v.name, v.kind) ∈ (effectiveNames declarations).zip (declarations.map Declaration.kind) := by
  obtain ⟨names, kinds, -⟩ := resolve_ok resolved
  rw [← names, ← kinds, List.zip_map', List.mem_map]
  constructor
  · intro present
    exact ⟨v, present, rfl⟩
  · rintro ⟨w, present, same⟩
    obtain ⟨name, kind, unspaced⟩ := v
    obtain ⟨name', kind', unspaced'⟩ := w
    cases same
    exact present

theorem not_nodup_of_firstRepeat {names : List String} {name : String}
    (first : FirstRepeat names name) : ¬ names.Nodup := by
  obtain ⟨front, rest, rfl, -, present⟩ := first
  intro distinct
  exact (List.nodup_append.mp distinct).2.2 name present name List.mem_cons_self rfl

end MixedInteger.Declaration
