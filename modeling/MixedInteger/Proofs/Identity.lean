import Mathlib.Data.List.Nodup
import MixedInteger.Proofs.CodePoints
import MixedInteger.Proofs.Keys

/-!
# Identity of variables

Equality, hash and order of variables look at the name alone and fit together.  Hence a set of
variables is the same whether it finds them by their order or by their hash: a variable is new
to it just if no variable with its name was put in before, and the one that came first stays.
-/

namespace MixedInteger

namespace Variable

theorem beq_iff {v w : Variable} : (v == w) = true ↔ v.name = w.name := by
  change (v.name == w.name) = true ↔ _
  exact beq_iff_eq

instance : EquivBEq Variable where
  rfl := beq_iff.mpr rfl
  symm same := beq_iff.mpr (beq_iff.mp same).symm
  trans first second := beq_iff.mpr ((beq_iff.mp first).trans (beq_iff.mp second))

instance : LawfulHashable Variable where
  hash_eq _ _ same := congrArg (fun name : String => hash name) (beq_iff.mp same)

instance : Std.TransOrd Variable where
  eq_swap {v w} := Std.OrientedOrd.eq_swap (a := v.name) (b := w.name)
  isLE_trans {u v w} := Std.TransOrd.isLE_trans (a := u.name) (b := v.name) (c := w.name)

theorem compare_eq_iff {v w : Variable} : compare v w = .eq ↔ v.name = w.name := by
  change compare v.name w.name = .eq ↔ _
  exact Std.LawfulEqOrd.compare_eq_iff_eq

theorem compare_lt_iff {v w : Variable} : compare v w = .lt ↔ v.name < w.name :=
  compareOfLessAndEq_eq_lt

end Variable

/-- The variable is in the list, and none before it has its name. -/
def FirstNamed (vs : List Variable) (v : Variable) : Prop :=
  ∃ before after, vs = before ++ v :: after ∧ v.name ∉ before.map Variable.name

theorem leftmost?_eq_some_iff {vs : List Variable} {v : Variable} :
    leftmost? vs v.name = some v ↔ FirstNamed vs v := by
  unfold leftmost? FirstNamed
  rw [List.find?_eq_some_iff_append]
  simp

theorem leftmost?_eq_none_iff {vs : List Variable} {name : String} :
    leftmost? vs name = none ↔ name ∉ vs.map Variable.name := by
  simp [leftmost?]

/-! ## Sets that are filled one by one -/

/--
A way to keep a set of variables: how a variable is looked up and put in, and how all are
listed.  A variable is new if none with its name is there, and only then takes the name.
-/
structure Collection (σ : Type) where
  empty : σ
  find? : σ → Variable → Option Variable
  /-- Whether the variable is new, and the set with it. -/
  insert : σ → Variable → Bool × σ
  list : σ → List Variable
  find?_empty : ∀ w, find? empty w = none
  insert_fst : ∀ set v, (insert set v).1 = (find? set v).isNone
  find?_insert : ∀ set v w, find? (insert set v).2 w = (find? set w).or (leftmost? [v] w.name)
  mem_list_iff : ∀ set v, v ∈ list set ↔ find? set v = some v
  nodup_list : ∀ set, (list set).Nodup

/-- Which of some variables, put in after some others, have a name that none before them has. -/
def newNames (before : List Variable) : List Variable → List Bool
  | [] => []
  | v :: rest =>
    decide (v.name ∉ before.map Variable.name) :: newNames (before ++ [v]) rest

namespace Collection

variable {σ τ : Type} (c : Collection σ) (d : Collection τ)

/-- Variables put in one after another: which of them were new, and the set at the end. -/
def fillFrom (set : σ) : List Variable → List Bool × σ
  | [] => ([], set)
  | v :: rest =>
    let put := c.insert set v
    let ended := fillFrom put.2 rest
    (put.1 :: ended.1, ended.2)

def fill (vs : List Variable) : List Bool × σ :=
  c.fillFrom c.empty vs

theorem find?_fillFrom (set : σ) (vs : List Variable) (w : Variable) :
    c.find? (c.fillFrom set vs).2 w = (c.find? set w).or (leftmost? vs w.name) := by
  induction vs generalizing set with
  | nil => exact Option.or_none.symm
  | cons v rest ih =>
      rw [leftmost?_cons, ← Option.or_assoc, ← c.find?_insert]
      exact ih _

/-- The set finds the first of the variables with a name. -/
theorem find?_fill (vs : List Variable) (w : Variable) :
    c.find? (c.fill vs).2 w = leftmost? vs w.name := by
  rw [fill, find?_fillFrom, c.find?_empty, Option.none_or]

/-- If the first variables before are found, those with new names are new. -/
theorem fillFrom_fst {set : σ} {before : List Variable}
    (found : ∀ w, c.find? set w = leftmost? before w.name) (vs : List Variable) :
    (c.fillFrom set vs).1 = newNames before vs := by
  induction vs generalizing set before with
  | nil => rfl
  | cons v rest ih =>
      have new : (c.insert set v).1 = decide (v.name ∉ before.map Variable.name) := by
        rw [c.insert_fst, found, Bool.eq_iff_iff, Option.isNone_iff_eq_none, decide_eq_true_iff,
          leftmost?_eq_none_iff]
      have later (w : Variable) :
          c.find? (c.insert set v).2 w = leftmost? (before ++ [v]) w.name := by
        rw [c.find?_insert, found, leftmost?_append]
      rw [fillFrom, newNames, new, ih later]

theorem fill_fst (vs : List Variable) : (c.fill vs).1 = newNames [] vs :=
  c.fillFrom_fst c.find?_empty vs

theorem mem_list_fill {vs : List Variable} {v : Variable} :
    v ∈ c.list (c.fill vs).2 ↔ FirstNamed vs v := by
  rw [c.mem_list_iff, find?_fill, leftmost?_eq_some_iff]

/-- Two ways to keep the set list the same variables, though perhaps in another order. -/
theorem list_fill_perm (vs : List Variable) :
    (c.list (c.fill vs).2).Perm (d.list (d.fill vs).2) := by
  rw [List.perm_ext_iff_of_nodup (c.nodup_list _) (d.nodup_list _)]
  intro v
  rw [mem_list_fill, mem_list_fill]

end Collection

/-! ## Tables, trees and hashes -/

theorem VariableSet.key?_insert (vars : VariableSet) (v : Variable) (name : String) :
    (vars.insert v).key? name = (vars.key? name).or (leftmost? [v] name) :=
  Table.key?_update_eq_or vars v _ name

/-- The sets in which the variables of a model are kept. -/
def VariableSet.collection : Collection VariableSet where
  empty := Table.empty
  find? vars w := vars.find? w.name
  insert vars v := (!vars.hasName v.name, vars.insert v)
  list vars := vars.keys
  find?_empty _ := rfl
  insert_fst vars v := Option.not_isSome (vars.find? v.name)
  find?_insert vars v w := vars.key?_insert v w.name
  mem_list_iff _ _ := Table.mem_keys_iff
  nodup_list vars := List.Nodup.of_map _ vars.nodup_names

/-- A variable that is put in only where no equal one is comes after what is found there. -/
theorem ite_new_eq_or {same present : Prop} [Decidable (same ∧ ¬present)] {v : Variable}
    {name : String} {found : Option Variable} (same_iff : same ↔ v.name = name)
    (present_iff : same → (present ↔ found.isSome = true)) :
    (if same ∧ ¬present then some v else found) = found.or (leftmost? [v] name) := by
  rw [leftmost?_singleton]
  change _ = found.or (if v.name = name then some v else none)
  by_cases equal : same
  · rw [if_pos (same_iff.mp equal)]
    cases found with
    | none =>
        rw [if_pos ⟨equal, fun there => by cases (present_iff equal).mp there⟩]
        rfl
    | some w =>
        rw [if_neg fun new => new.2 ((present_iff equal).mpr rfl)]
        rfl
  · rw [if_neg fun new => equal new.1, if_neg (mt same_iff.mpr equal), Option.or_none]

theorem mem_toList_tree {set : Std.TreeSet Variable} {v : Variable} :
    v ∈ set.toList ↔ set.get? v = some v := by
  change v ∈ set.inner.keys ↔ set.inner.getKey? v = some v
  rw [← Std.TreeMap.map_fst_toList_eq_keys, List.mem_map]
  constructor
  · rintro ⟨entry, present, rfl⟩
    exact (Std.TreeMap.mem_toList_iff_getKey?_eq_some_and_getElem?_eq_some.mp present).1
  · intro found
    have present := Std.TreeMap.mem_of_getKey?_eq_some found
    have stored := Std.TreeMap.getElem?_eq_some_getElem present
    refine ⟨(v, ()), ?_, rfl⟩
    exact Std.TreeMap.mem_toList_iff_getKey?_eq_some_and_getElem?_eq_some.mpr ⟨found, stored⟩

theorem mem_toList_hash {set : Std.HashSet Variable} {v : Variable} :
    v ∈ set.toList ↔ set.get? v = some v := by
  change v ∈ set.inner.keys ↔ set.inner.getKey? v = some v
  rw [← Std.HashMap.map_fst_toList_eq_keys, List.mem_map]
  constructor
  · rintro ⟨entry, present, rfl⟩
    exact (Std.HashMap.mem_toList_iff_getKey?_eq_some_and_getElem?_eq_some.mp present).1
  · intro found
    have present := Std.HashMap.mem_of_getKey?_eq_some found
    have stored := Std.HashMap.getElem?_eq_some_getElem present
    refine ⟨(v, ()), ?_, rfl⟩
    exact Std.HashMap.mem_toList_iff_getKey?_eq_some_and_getElem?_eq_some.mpr ⟨found, stored⟩

/-- Trees in which variables are found by their order. -/
def treeSet : Collection (Std.TreeSet Variable) where
  empty := ∅
  find? := Std.TreeSet.get?
  insert set v := (!(set.containsThenInsert v).1, (set.containsThenInsert v).2)
  list := Std.TreeSet.toList
  find?_empty _ := Std.TreeSet.get?_emptyc
  insert_fst set v := by
    rw [Std.TreeSet.containsThenInsert_fst, Std.TreeSet.contains_eq_isSome_get?, Option.not_isSome]
  find?_insert set v w := by
    rw [Std.TreeSet.containsThenInsert_snd, Std.TreeSet.get?_insert]
    refine ite_new_eq_or Variable.compare_eq_iff fun same => ?_
    rw [Std.TreeSet.mem_iff_isSome_get?, Std.TreeSet.get?_congr same]
  mem_list_iff _ _ := mem_toList_tree
  nodup_list _ := Std.TreeSet.distinct_toList.imp fun {v w} different (equal : v = w) =>
    different (Variable.compare_eq_iff.mpr (congrArg Variable.name equal))

/-- Tables in which variables are found by their hash. -/
def hashSet : Collection (Std.HashSet Variable) where
  empty := ∅
  find? := Std.HashSet.get?
  insert set v := (!(set.containsThenInsert v).1, (set.containsThenInsert v).2)
  list := Std.HashSet.toList
  find?_empty _ := Std.HashSet.get?_empty
  insert_fst set v := by
    rw [Std.HashSet.containsThenInsert_fst, Std.HashSet.contains_eq_isSome_get?, Option.not_isSome]
  find?_insert set v w := by
    rw [Std.HashSet.containsThenInsert_snd, Std.HashSet.get?_insert]
    refine ite_new_eq_or Variable.beq_iff fun same => ?_
    rw [Std.HashSet.mem_iff_isSome_get?, Std.HashSet.get?_congr same]
  mem_list_iff _ _ := mem_toList_hash
  nodup_list _ := Std.HashSet.distinct_toList.imp fun {v w} different (equal : v = w) => by
    rw [Variable.beq_iff.mpr (congrArg Variable.name equal)] at different
    cases different

/-- A tree lists its variables in strictly increasing order of names. -/
theorem treeSet_increasing (set : Std.TreeSet Variable) :
    set.toList.Pairwise fun v w => v.name < w.name :=
  Std.TreeSet.ordered_toList.imp Variable.compare_lt_iff.mp

/-- A tree lists what a table does, in the same order. -/
theorem toList_treeSet (vs : List Variable) :
    (treeSet.fill vs).2.toList = (VariableSet.collection.fill vs).2.keys := by
  refine Named.eq_of_increasing (treeSet_increasing _) (List.pairwise_map.mp ?_) fun v => ?_
  · exact Table.names_increasing _
  · exact (treeSet.list_fill_perm VariableSet.collection vs).mem_iff

/--
The order of variables is a strict total order up to equality.  It is the order of the code
points of their names and of the bytes of these in UTF-8.  Variables are equal just if they
are neither before nor after each other, that is, if they have one name; then their hashes are
equal too.  If variables are put one after another into a table, a tree and a hash table, each
is new to all of them or to none, as no earlier one or some earlier one has its name.  All
three then list the first variable of each name, table and tree in increasing order of names.
-/
theorem Variable.identity_coherent :
    (∀ v w : Variable, compare w v = (compare v w).swap) ∧
    (∀ u v w : Variable, compare u v = .lt → compare v w = .lt → compare u w = .lt) ∧
    (∀ v w : Variable, compare v w = compare (Text.codePoints v.name) (Text.codePoints w.name) ∧
      compare v w = compare (Text.bytes v.name) (Text.bytes w.name)) ∧
    (∀ v w : Variable, (compare v w = .eq ↔ (v == w) = true) ∧
      ((v == w) = true ↔ v.name = w.name) ∧ ((v == w) = true → hash v = hash w)) ∧
    ∀ vs : List Variable,
      (treeSet.fill vs).1 = newNames [] vs ∧ (hashSet.fill vs).1 = newNames [] vs ∧
      (VariableSet.collection.fill vs).1 = newNames [] vs ∧
      (∀ v, v ∈ (treeSet.fill vs).2.toList ↔ FirstNamed vs v) ∧
      (hashSet.fill vs).2.toList.Perm (treeSet.fill vs).2.toList ∧
      (VariableSet.collection.fill vs).2.keys = (treeSet.fill vs).2.toList ∧
      ((treeSet.fill vs).2.toList.map Variable.name).Pairwise (· < ·) := by
  refine ⟨fun v w => Std.OrientedOrd.eq_swap, fun u v w => Std.TransCmp.lt_trans,
    fun v w => ⟨?_, ?_⟩, fun v w => ⟨?_, beq_iff, hash_eq⟩, fun vs => ?_⟩
  · exact (Text.compare_codePoints v.name w.name).symm
  · exact (Text.compare_bytes v.name w.name).symm
  · rw [compare_eq_iff, beq_iff]
  · refine ⟨treeSet.fill_fst vs, hashSet.fill_fst vs, VariableSet.collection.fill_fst vs,
      fun v => treeSet.mem_list_fill, hashSet.list_fill_perm treeSet vs,
      (toList_treeSet vs).symm, List.pairwise_map.mpr (treeSet_increasing _)⟩

/-- Three variables, two of which have one name. -/
def Variable.namesakes : List Variable :=
  [.named .binary "y", .named .integer "x", .named .continuous "y"]

/-- Of the two with one name the first stays, and it is listed after the third variable. -/
theorem Variable.namesakes_kept :
    (hashSet.fill namesakes).1 = [true, true, false] ∧
      (treeSet.fill namesakes).2.toList = [.named .integer "x", .named .binary "y"] ∧
      (hashSet.fill namesakes).2.toList.Perm [.named .integer "x", .named .binary "y"] := by
  obtain ⟨-, -, -, -, filled⟩ := Variable.identity_coherent
  obtain ⟨-, new, -, -, permuted, listed, -⟩ := filled namesakes
  have kept : (treeSet.fill namesakes).2.toList = [.named .integer "x", .named .binary "y"] :=
    listed.symm.trans rfl
  exact ⟨new.trans (by decide), kept, kept ▸ permuted⟩

end MixedInteger
