import MixedInteger.Proofs.Handout
import MixedInteger.Proofs.Identity

/-!
# Values set by name

A solution starts with every variable of a set at zero and is then set, value after value.
Under each name it holds the value that was set last and the variable that came first.  What
is set under one name does not touch what is held under another, so that only the order of
the values of each name matters.
-/

namespace MixedInteger

namespace Solution

/-- The solution after some values are set one after another. -/
def setAll (solution : Solution) (sets : List (Variable × Float)) : Solution :=
  sets.foldl (fun solution p => solution.set p.1 p.2) solution

/-- The solution that starts with the variables of a set at zero, after some values are set. -/
def after (vars : VariableSet) (objective : Float) (sets : List (Variable × Float)) : Solution :=
  (zeroed vars objective).setAll sets

/-- The values that are set under a name, with their variables. -/
def setsOf (sets : List (Variable × Float)) (name : String) : List (Variable × Float) :=
  sets.filter fun p => p.1.name == name

/-- The value that is set last under a name. -/
def lastValue? (sets : List (Variable × Float)) (name : String) : Option Float :=
  ((setsOf sets name).getLast?).map Prod.snd

/-- The value under a name after some values are set: the last of them, or else zero. -/
def expected? (vars : VariableSet) (sets : List (Variable × Float)) (name : String) :
    Option Float :=
  (lastValue? sets name).or
    (if name ∈ vars.keys.map Variable.name then some 0.0 else none)

variable {vars : VariableSet} {objective : Float}

/-! ## Values -/

theorem lastValue?_cons (p : Variable × Float) (rest : List (Variable × Float)) (name : String) :
    lastValue? (p :: rest) name =
      (lastValue? rest name).or (if p.1.name = name then some p.2 else none) := by
  unfold lastValue? setsOf
  rw [filter_name_cons, List.getLast?_append]
  cases (rest.filter _).getLast? with
  | some q => rfl
  | none => split <;> rfl

theorem value?_set (solution : Solution) (v : Variable) (value : Float) (name : String) :
    (solution.set v value).values.value? name =
      (if v.name = name then some value else none).or (solution.values.value? name) := by
  refine (Table.value?_update _ _ _ name).trans ?_
  change (if v.name = name then _ else _) = _
  split <;> rfl

/-- Of the values that are set under a name the last one is held. -/
theorem value?_setAll (solution : Solution) (sets : List (Variable × Float)) (name : String) :
    (solution.setAll sets).values.value? name =
      (lastValue? sets name).or (solution.values.value? name) := by
  induction sets generalizing solution with
  | nil => rfl
  | cons p rest ih =>
      rw [lastValue?_cons, Option.or_assoc, ← value?_set]
      exact ih _

theorem value?_after (sets : List (Variable × Float)) (name : String) :
    (after vars objective sets).values.value? name = expected? vars sets name := by
  rw [after, value?_setAll, value?_zeroed, expected?]

/-- A value is missing just where asking for it fails. -/
theorem index_cases (solution : Solution) (v : Variable) :
    ((∃ message, solution.index v = .error message) ↔ solution.get? v = none) ∧
      ∀ value, solution.index v = .ok value ↔ solution.get? v = some value := by
  unfold index
  cases solution.get? v <;> simp

/-! ## Variables -/

/-- The variable that came first under a name is kept. -/
theorem key?_setAll (solution : Solution) (sets : List (Variable × Float)) (name : String) :
    (solution.setAll sets).values.key? name =
      (solution.values.key? name).or (leftmost? (sets.map Prod.fst) name) := by
  induction sets generalizing solution with
  | nil => exact Option.or_none.symm
  | cons p rest ih =>
      rw [List.map_cons, leftmost?_cons, ← Option.or_assoc,
        ← Table.key?_update_eq_or _ _ fun _ => p.2]
      exact ih _

theorem key?_after (sets : List (Variable × Float)) (name : String) :
    (after vars objective sets).values.key? name =
      (vars.key? name).or (leftmost? (sets.map Prod.fst) name) := by
  rw [after, key?_setAll, zeroed, Table.key?_map]

/-- A variable is held if it is of the set, or if its name is not and it was the first set. -/
theorem mem_keys_after {sets : List (Variable × Float)} {v : Variable} :
    v ∈ (after vars objective sets).values.keys ↔ v ∈ vars.keys ∨
      (v.name ∉ vars.keys.map Variable.name ∧ FirstNamed (sets.map Prod.fst) v) := by
  have absent : vars.key? v.name = none ↔ v.name ∉ vars.keys.map Variable.name := by
    rw [← Option.not_isSome_iff_eq_none, ← Table.mem_names_iff]
    rfl
  rw [Table.mem_keys_iff, Table.mem_keys_iff, ← absent, ← leftmost?_eq_some_iff]
  change (Table.key? _ v.name = some v) ↔ _
  rw [key?_after, Option.or_eq_some_iff]
  rfl

theorem mem_names_after {sets : List (Variable × Float)} {name : String} :
    name ∈ (after vars objective sets).values.keys.map Named.name ↔
      name ∈ vars.keys.map Variable.name ++ sets.map fun p => p.1.name := by
  have first : (leftmost? (sets.map Prod.fst) name).isSome = true ↔
      name ∈ sets.map fun p => p.1.name := by
    rw [← Option.ne_none_iff_isSome, ne_eq, leftmost?_eq_none_iff, not_not, List.map_map]
    rfl
  rw [Table.mem_names_iff, key?_after, Option.isSome_or, Bool.or_eq_true,
    ← Table.mem_names_iff, first, List.mem_append]
  rfl

/-! ## Order of the calls -/

theorem leftmost?_eq_head? (sets : List (Variable × Float)) (name : String) :
    leftmost? (sets.map Prod.fst) name = ((setsOf sets name).head?).map Prod.fst := by
  unfold leftmost? setsOf
  rw [List.find?_map, List.head?_filter]
  rfl

/-- Values that are set under different names may change places. -/
theorem setsOf_swap {p q : Variable × Float} (different : p.1.name ≠ q.1.name)
    (rest : List (Variable × Float)) (name : String) :
    setsOf (p :: q :: rest) name = setsOf (q :: p :: rest) name := by
  simp only [setsOf, filter_name_cons]
  by_cases first : p.1.name = name
  · have second : q.1.name ≠ name := fun same => different (first.trans same.symm)
    rw [if_pos first, if_neg second]
    rfl
  · rw [if_neg first]
    rfl

theorem objective_setAll (solution : Solution) (sets : List (Variable × Float)) :
    (solution.setAll sets).objective = solution.objective := by
  induction sets generalizing solution with
  | nil => rfl
  | cons p rest ih => exact ih _

/-- Only the order of the values that are set under one name matters. -/
theorem setAll_congr {sets others : List (Variable × Float)}
    (same : ∀ name, setsOf others name = setsOf sets name) (solution : Solution) :
    solution.setAll others = solution.setAll sets := by
  have objective : (solution.setAll others).objective = (solution.setAll sets).objective := by
    rw [objective_setAll, objective_setAll]
  have values : (solution.setAll others).values = (solution.setAll sets).values := by
    refine Table.eq_of_values (Table.keys_congr fun name => ?_) fun v _ => ?_
    · rw [key?_setAll, key?_setAll, leftmost?_eq_head?, leftmost?_eq_head?, same]
    · rw [value?_setAll, value?_setAll, lastValue?, lastValue?, same]
  exact congrArg₂ Solution.mk objective values

/--
Whatever is set after every variable of a set is at zero, the solution is a map by name.  A
variable of any kind has the value that was set last under its name, or else zero if its name
is in the set, and otherwise asking for its value fails.  The names are those of the set and
of the variables that were set, each counted once and listed in strictly increasing order with
the same values; the objective is unchanged.  The variable held under a name is that of the
set, or else the first that was set.  The solution is the same if the values are set in
another order, as long as those of each name are not.
-/
theorem set_values_by_name (vars : VariableSet) (objective : Float)
    (sets : List (Variable × Float)) :
    (∀ v, (after vars objective sets).get? v = expected? vars sets v.name) ∧
    (∀ v, ((∃ message, (after vars objective sets).index v = .error message) ↔
        (after vars objective sets).get? v = none) ∧
      ∀ value, (after vars objective sets).index v = .ok value ↔
        (after vars objective sets).get? v = some value) ∧
    (after vars objective sets).size =
      (vars.keys.map Variable.name ++ sets.map fun p => p.1.name).toFinset.card ∧
    (after vars objective sets).objective = objective ∧
    (after vars objective sets).summary = ⟨objective, (after vars objective sets).byName⟩ ∧
    (after vars objective sets).byName.keys.Pairwise (· < ·) ∧
    (∀ name, name ∈ (after vars objective sets).byName.keys ↔
      name ∈ vars.keys.map Variable.name ++ sets.map fun p => p.1.name) ∧
    (∀ name, (after vars objective sets).byName.value? name = expected? vars sets name) ∧
    (∀ v, v ∈ (after vars objective sets).values.keys ↔ v ∈ vars.keys ∨
      (v.name ∉ vars.keys.map Variable.name ∧ FirstNamed (sets.map Prod.fst) v)) ∧
    ∀ others, (∀ name, setsOf others name = setsOf sets name) →
      after vars objective others = after vars objective sets := by
  have names : (after vars objective sets).byName.keys =
      (after vars objective sets).values.keys.map Named.name := keys_summary _
  have unchanged : (after vars objective sets).objective = objective := objective_setAll _ sets
  refine ⟨fun v => value?_after sets v.name, index_cases _,
    Table.size_eq_card _ fun name => mem_names_after, unchanged, ?_, ?_, fun name => ?_,
    fun name => ?_, fun v => mem_keys_after, fun others same => setAll_congr same _⟩
  · rw [summary, unchanged]
  · rw [names]
    exact Table.names_increasing _
  · rw [names, mem_names_after]
  · exact (value?_summary _ name).trans (value?_after sets name)

/-- An integer variable and a binary one. -/
def shelf : VariableSet := .ofList [.named .integer "x", .named .binary "y"]

/-- Values under a name of the shelf, twice, and under another name, with two kinds. -/
def restocked : List (Variable × Float) :=
  [(.named .continuous "x", 2), (.named .integer "z", 1), (.named .binary "z", 3),
    (.named .integer "x", 4)]

/-- The same values, in another order between the names. -/
def restockedApart : List (Variable × Float) :=
  [(.named .integer "z", 1), (.named .continuous "x", 2), (.named .binary "z", 3),
    (.named .integer "x", 4)]

/-- The last values count, and the third name is held with its first kind. -/
theorem restocked_values :
    after shelf 3.5 restockedApart = after shelf 3.5 restocked ∧
      (after shelf 3.5 restocked).get? (.named .binary "x") = some 4 ∧
      (after shelf 3.5 restocked).get? (.named .integer "w") = none ∧
      (after shelf 3.5 restocked).size = 3 ∧
      .named .integer "z" ∈ (after shelf 3.5 restocked).values.keys := by
  obtain ⟨values, -, size, -, -, -, -, -, held, reordered⟩ := set_values_by_name shelf 3.5 restocked
  refine ⟨reordered restockedApart fun name => ?_, (values _).trans rfl, (values _).trans rfl,
    size.trans (by decide), (held _).mpr (.inr ⟨by decide, ?_⟩)⟩
  · exact setsOf_swap (by decide) _ name
  · exact ⟨[.named .continuous "x"], [.named .binary "z", .named .integer "x"], rfl, by decide⟩

end Solution

end MixedInteger
