import Mathlib.Data.List.Nodup
import Mathlib.Data.List.Perm.Basic
import MixedInteger.Variable.Set

/-!
# Keys of tables

What a table stores under a name is one key at most, and the keys that it lists are
those that it stores.  An update keeps a key that is there; collecting a list keeps
the last variable of each name.
-/

namespace MixedInteger

/-- Things in strictly increasing order of names are determined by which things they are. -/
theorem Named.eq_of_increasing {κ : Type} [Named κ] {first second : List κ}
    (firstUp : first.Pairwise fun k l => Named.name k < Named.name l)
    (secondUp : second.Pairwise fun k l => Named.name k < Named.name l)
    (same : ∀ k, k ∈ first ↔ k ∈ second) : first = second := by
  have distinct {keys : List κ} (up : keys.Pairwise fun k l => Named.name k < Named.name l) :
      keys.Nodup :=
    up.imp fun {k l} before (equal : k = l) => String.lt_irrefl _ (equal ▸ before)
  have permuted : first.Perm second :=
    (List.perm_ext_iff_of_nodup (distinct firstUp) (distinct secondUp)).mpr same
  refine permuted.eq_of_pairwise (fun k l _ _ below above => ?_) firstUp secondUp
  exact absurd (String.lt_trans below above) (String.lt_irrefl _)

/-- Names in strictly increasing order are determined by which names they are. -/
theorem eq_of_increasing_of_mem_iff {first second : List String}
    (firstUp : first.Pairwise (· < ·)) (secondUp : second.Pairwise (· < ·))
    (same : ∀ name, name ∈ first ↔ name ∈ second) : first = second :=
  Named.eq_of_increasing firstUp secondUp same

/-- Of some variables with values, those that have a given name. -/
theorem filter_name_cons {α : Type} (p : Variable × α) (rest : List (Variable × α))
    (name : String) :
    (p :: rest).filter (fun q => q.1.name == name) =
      (if p.1.name = name then [p] else []) ++ rest.filter fun q => q.1.name == name := by
  rw [List.filter_cons]
  by_cases same : p.1.name = name
  · rw [if_pos (beq_iff_eq.mpr same), if_pos same]
    rfl
  · rw [if_neg fun equal => same (eq_of_beq equal), if_neg same]
    rfl

/-- The first of some variables with a given name. -/
def leftmost? (leaves : List Variable) (name : String) : Option Variable :=
  leaves.find? (·.name == name)

@[simp] theorem leftmost?_append (first second : List Variable) (name : String) :
    leftmost? (first ++ second) name = (leftmost? first name).or (leftmost? second name) :=
  List.find?_append

theorem leftmost?_cons (v : Variable) (rest : List Variable) (name : String) :
    leftmost? (v :: rest) name = (leftmost? [v] name).or (leftmost? rest name) :=
  leftmost?_append [v] rest name

@[simp] theorem leftmost?_singleton (v : Variable) (name : String) :
    leftmost? [v] name = if Named.name v = name then some v else none := by
  change _ = if v.name = name then _ else _
  by_cases same : v.name = name <;> simp [leftmost?, same]

namespace Table

variable {κ α β : Type} [Named κ]

/-- The key that is stored under a name. -/
def key? (table : Table κ α) (name : String) : Option κ :=
  (table.pair? name).map Prod.fst

/-- The first entry is looked at first. -/
theorem key?_cons (entry : κ × α) (rest : List (κ × α)) (ordered : Ordered (entry :: rest))
    (name : String) :
    (⟨entry :: rest, ordered⟩ : Table κ α).key? name =
      if Named.name entry.1 = name then some entry.1
      else (⟨rest, List.Pairwise.of_cons ordered⟩ : Table κ α).key? name := by
  unfold key? pair? entryNamed?
  rw [List.find?_cons]
  by_cases same : Named.name entry.1 = name
  · simp [same]
  · simp [beq_eq_false_iff_ne.mpr same, same]

theorem key?_update (table : Table κ α) (k : κ) (f : Option α → α) (name : String) :
    (table.update k f).key? name =
      if Named.name k = name then some ((table.key? name).getD k) else table.key? name := by
  unfold key?
  rw [pair?_update]
  split
  · cases table.pair? name <;> rfl
  · rfl

/-- An update keeps the variable of a name that is there, and puts its own in otherwise. -/
theorem key?_update_eq_or (table : Table Variable α) (v : Variable) (f : Option α → α)
    (name : String) :
    (table.update v f).key? name = (table.key? name).or (leftmost? [v] name) := by
  rw [key?_update, leftmost?_singleton]
  split
  · cases table.key? name <;> rfl
  · rw [Option.or_none]

@[simp] theorem key?_map (f : α → β) (table : Table κ α) (name : String) :
    (table.map f).key? name = table.key? name := by
  change ((table.entries.map fun p => (p.1, f p.2)).find? _).map Prod.fst = _
  rw [List.find?_map, Option.map_map]
  rfl

theorem value?_map (f : α → β) (table : Table κ α) (name : String) :
    (table.map f).value? name = (table.value? name).map f := by
  change ((table.entries.map fun p => (p.1, f p.2)).find? _).map Prod.snd = _
  rw [List.find?_map, Option.map_map, value?, Option.map_map]
  rfl

/-- The names of the keys are in strictly increasing order. -/
theorem names_increasing (table : Table κ α) :
    (table.keys.map Named.name).Pairwise (· < ·) := by
  rw [keys, List.map_map, List.pairwise_map]
  exact table.ordered

theorem nodup_names (table : Table κ α) : (table.keys.map Named.name).Nodup :=
  table.names_increasing.imp fun before => Std.ne_of_lt before

theorem length_keys (table : Table κ α) : table.keys.length = table.size :=
  List.length_map _

/-- A listed key is the one that is stored under its name. -/
theorem mem_keys_iff {table : Table κ α} {k : κ} :
    k ∈ table.keys ↔ table.key? (Named.name k) = some k := by
  constructor
  · intro present
    obtain ⟨entries, ordered⟩ := table
    change k ∈ entries.map Prod.fst at present
    induction entries with
    | nil => cases present
    | cons entry rest ih =>
        rw [key?_cons]
        rcases List.mem_cons.mp present with rfl | later
        · exact if_pos rfl
        · -- Names increase, so the first entry has another name than a later key.
          obtain ⟨other, member, rfl⟩ := List.mem_map.mp later
          have before := List.rel_of_pairwise_cons ordered member
          rw [if_neg (Std.ne_of_lt before)]
          exact ih _ later
  · intro found
    obtain ⟨entry, present, rfl⟩ := Option.map_eq_some_iff.mp found
    exact List.mem_map.mpr ⟨entry, List.mem_of_find?_eq_some present, rfl⟩

/-- What is found under a name is the listed key with that name. -/
theorem key?_eq_some_iff {table : Table κ α} {name : String} {k : κ} :
    table.key? name = some k ↔ k ∈ table.keys ∧ Named.name k = name := by
  constructor
  · intro found
    obtain ⟨entry, listed, rfl⟩ := Option.map_eq_some_iff.mp found
    have named := List.find?_some listed
    exact ⟨List.mem_map_of_mem (List.mem_of_find?_eq_some listed), eq_of_beq named⟩
  · rintro ⟨present, rfl⟩
    exact mem_keys_iff.mp present

theorem mem_names_iff {table : Table κ α} {name : String} :
    name ∈ table.keys.map Named.name ↔ (table.key? name).isSome = true := by
  rw [List.mem_map, Option.isSome_iff_exists]
  exact exists_congr fun k => key?_eq_some_iff.symm

theorem exists_value? {table : Table κ α} {k : κ} (present : k ∈ table.keys) :
    ∃ a, table.value? (Named.name k) = some a := by
  obtain ⟨entry, found, -⟩ := Option.map_eq_some_iff.mp (mem_keys_iff.mp present)
  exact ⟨entry.2, congrArg (Option.map Prod.snd) found⟩

/-- Tables with the same key under every name list the same keys. -/
theorem keys_congr {first : Table κ α} {second : Table κ β}
    (same : ∀ name, first.key? name = second.key? name) : first.keys = second.keys := by
  refine Named.eq_of_increasing (List.pairwise_map.mp first.names_increasing)
    (List.pairwise_map.mp second.names_increasing) fun k => ?_
  rw [mem_keys_iff, mem_keys_iff, same]

/-- Writing the value of a key that is there adds no key. -/
theorem keys_set {table : Table κ α} {k : κ} (present : k ∈ table.keys) (a : α) :
    (table.set k a).keys = table.keys := by
  refine keys_congr fun name => ?_
  rw [set, key?_update]
  split
  case isTrue same => rw [← same, mem_keys_iff.mp present, Option.getD_some]
  case isFalse => rfl

/-- A value is stored under the name of a key. -/
theorem exists_key_of_value? {table : Table κ α} {name : String} {a : α}
    (stored : table.value? name = some a) : ∃ k ∈ table.keys, Named.name k = name := by
  obtain ⟨entry, found, -⟩ := Option.map_eq_some_iff.mp stored
  have named := List.find?_some found
  exact ⟨entry.1, List.mem_map_of_mem (List.mem_of_find?_eq_some found), eq_of_beq named⟩

theorem exists_value?_iff {table : Table κ α} {name : String} :
    (∃ a, table.value? name = some a) ↔ name ∈ table.keys.map Named.name := by
  rw [List.mem_map]
  constructor
  · rintro ⟨a, stored⟩
    exact exists_key_of_value? stored
  · rintro ⟨k, present, rfl⟩
    exact exists_value? present

theorem keys_rekey {κ' : Type} [Named κ'] (table : Table κ α) (f : κ → κ')
    (sameName : ∀ k, Named.name (f k) = Named.name k) :
    (table.rekey f sameName).keys = table.keys.map f := by
  simp only [keys, rekey, List.map_map, Function.comp_def]

/-- A table under other keys has the same values under the same names. -/
theorem value?_rekey {κ' : Type} [Named κ'] (table : Table κ α) (f : κ → κ')
    (sameName : ∀ k, Named.name (f k) = Named.name k) (name : String) :
    (table.rekey f sameName).value? name = table.value? name := by
  change ((table.entries.map fun p => (f p.1, p.2)).find? _).map Prod.snd = _
  rw [List.find?_map, Option.map_map]
  simp only [Function.comp_def, sameName]
  rfl

theorem pair?_of_mem {table : Table κ α} {entry : κ × α} (present : entry ∈ table.entries) :
    table.pair? (Named.name entry.1) = some entry := by
  have distinct : (table.entries.map fun p => Named.name p.1).Nodup := by
    have increasing := table.names_increasing
    rw [keys, List.map_map] at increasing
    exact increasing.imp Std.ne_of_lt
  unfold pair? entryNamed?
  cases found : table.entries.find? fun p => Named.name p.1 == Named.name entry.1 with
  | none => exact absurd (beq_self_eq_true _) (List.find?_eq_none.mp found entry present)
  | some other =>
      have member := List.mem_of_find?_eq_some found
      have same := List.find?_some found
      rw [List.inj_on_of_nodup_map distinct member present (eq_of_beq same)]

theorem eq_of_entries_eq {table other : Table κ α} (same : table.entries = other.entries) :
    table = other := by
  cases table
  cases other
  cases same
  rfl

/-- A table is determined by its keys and their values. -/
theorem eq_of_values {first second : Table κ α} (keys : first.keys = second.keys)
    (values : ∀ k ∈ first.keys, first.value? (Named.name k) = second.value? (Named.name k)) :
    first = second := by
  have listed : first.entries = second.entries := by
    refine List.ext_getElem? fun i => ?_
    have key : (first.entries[i]?).map Prod.fst = (second.entries[i]?).map Prod.fst := by
      simpa only [Table.keys, List.getElem?_map] using congrArg (·[i]?) keys
    cases here : first.entries[i]? with
    | none =>
        rw [here] at key
        exact (Option.map_eq_none_iff.mp key.symm).symm
    | some entry =>
        rw [here] at key
        obtain ⟨other, there, same⟩ := Option.map_eq_some_iff.mp key.symm
        have member := List.mem_of_getElem? here
        have value := values entry.1 (List.mem_map_of_mem member)
        rw [value?, value?, pair?_of_mem member, ← same,
          pair?_of_mem (List.mem_of_getElem? there)] at value
        rw [there]
        exact congrArg some (Prod.ext same.symm (Option.some.inj value))
  exact eq_of_entries_eq listed

/-- A key after all the others is stored at the end. -/
theorem upsert_of_above {k : κ} {f : Option α → α} {entries : List (κ × α)}
    (above : ∀ p ∈ entries, Named.name p.1 < Named.name k) :
    upsert k f entries = entries ++ [(k, f none)] := by
  induction entries with
  | nil => rfl
  | cons entry rest ih =>
      have before : Named.name entry.1 < Named.name k := above entry List.mem_cons_self
      have notAfter : ¬ Named.name k < Named.name entry.1 := fun after =>
        String.lt_irrefl _ (String.lt_trans before after)
      have different : ¬ Named.name k = Named.name entry.1 := fun same => by
        rw [same] at before
        exact String.lt_irrefl _ before
      rw [upsert, if_neg notAfter, if_neg different,
        ih fun p present => above p (List.mem_cons_of_mem _ present)]
      rfl

end Table

namespace VariableSet

/-- Collecting keeps the last variable of each name. -/
theorem key?_collect (vs : List Variable) (name : String) :
    (collect vs).key? name = vs.reverse.find? fun v => v.name == name := by
  induction vs with
  | nil => rfl
  | cons v rest ih =>
      change (Table.update (collect rest) v fun _ => ()).key? name = _
      rw [Table.key?_update, ih, List.reverse_cons, List.find?_append]
      cases found : rest.reverse.find? fun w => w.name == name with
      | none =>
          by_cases same : v.name = name <;> simp [Named.name, same]
      | some w =>
          by_cases same : v.name = name <;> simp [Named.name, same]

/-- The names of a collected list are those of its variables. -/
theorem mem_names_collect {vs : List Variable} {name : String} :
    name ∈ (collect vs).keys.map Named.name ↔ name ∈ vs.map Variable.name := by
  rw [Table.mem_names_iff, key?_collect, List.find?_isSome, List.mem_map]
  exact exists_congr fun v => and_congr List.mem_reverse beq_iff_eq

/-- Where equal names mean equal variables, collecting keeps every variable. -/
theorem mem_keys_collect {vs : List Variable}
    (coherent : ∀ v ∈ vs, ∀ w ∈ vs, v.name = w.name → v = w) {v : Variable} :
    v ∈ (collect vs).keys ↔ v ∈ vs := by
  rw [Table.mem_keys_iff, key?_collect]
  constructor
  · intro found
    exact List.mem_reverse.mp (List.mem_of_find?_eq_some found)
  · intro present
    cases found : vs.reverse.find? fun w => w.name == v.name with
    | none =>
        have absent := List.find?_eq_none.mp found v (List.mem_reverse.mpr present)
        exact absurd (beq_self_eq_true v.name) absent
    | some w =>
        have member := List.mem_reverse.mp (List.mem_of_find?_eq_some found)
        have same := List.find?_some found
        exact congrArg some (coherent w member v present (eq_of_beq same))

/-- What is found under a name is the variable of the set with that name. -/
theorem find?_eq_some_iff {vars : VariableSet} {name : String} {v : Variable} :
    vars.find? name = some v ↔ v ∈ vars.keys ∧ v.name = name :=
  Table.key?_eq_some_iff

theorem find?_eq_none_iff {vars : VariableSet} {name : String} :
    vars.find? name = none ↔ ∀ v ∈ vars.keys, v.name ≠ name := by
  rw [Option.eq_none_iff_forall_ne_some]
  constructor
  · intro absent v present named
    exact absent v (find?_eq_some_iff.mpr ⟨present, named⟩)
  · intro absent v found
    obtain ⟨present, named⟩ := find?_eq_some_iff.mp found
    exact absent v present named

/-- The set has a variable of the given name and kind. -/
def Has (vars : VariableSet) (name : String) (kind : Kind) : Prop :=
  ∃ v ∈ vars.keys, v.name = name ∧ v.kind = kind

theorem mem_namesOfKind {vars : VariableSet} {kind : Kind} {name : String} :
    name ∈ vars.namesOfKind kind ↔ vars.Has name kind := by
  unfold namesOfKind Has
  simp only [List.mem_map, List.mem_filter, beq_iff_eq]
  constructor
  · rintro ⟨v, ⟨present, kinded⟩, named⟩
    exact ⟨v, present, named, kinded⟩
  · rintro ⟨v, present, named, kinded⟩
    exact ⟨v, ⟨present, kinded⟩, named⟩

theorem namesOfKind_increasing (vars : VariableSet) (kind : Kind) :
    (vars.namesOfKind kind).Pairwise (· < ·) := by
  have increasing := vars.names_increasing
  rw [List.pairwise_map] at increasing
  unfold namesOfKind
  rw [List.pairwise_map]
  exact increasing.sublist List.filter_sublist

end VariableSet

end MixedInteger
