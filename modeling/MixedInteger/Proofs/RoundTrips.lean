import MixedInteger.Document.Json
import MixedInteger.Proofs.Formula
import MixedInteger.Proofs.Forms
import MixedInteger.Proofs.Keys
import MixedInteger.Settings.Json
import MixedInteger.Solution.Json

/-!
# Round trips of stored values

Documents and their parts, settings and summaries are read back from what is written for
them.  A formula is recognized at every depth by the one key of its object, and what is
passed over in an object that is read is not written again, so that nothing that has been
read is written deeper than it was read.
-/

namespace MixedInteger

open Json

/-! ## Formulas -/

namespace Formula

/-- Every number in a formula is finite. -/
def IsFinite (formula : Formula Float) : Prop :=
  ∀ value, .number value ∈ formula.nodes → value.isFinite = true

variable {value : Float} {items : List (Formula Float)} {left right inner : Formula Float}

@[simp] theorem isFinite_number : (number value).IsFinite ↔ value.isFinite = true := by
  simp [IsFinite, nodes]

@[simp] theorem isFinite_name (text : String) : (name text).IsFinite := by
  simp [IsFinite, nodes]

@[simp] theorem isFinite_sum : (sum items).IsFinite ↔ ∀ item ∈ items, item.IsFinite := by
  simp only [IsFinite, nodes, List.mem_append, mem_nodesOfItems, List.mem_singleton,
    reduceCtorEq, or_false]
  constructor
  · exact fun all item present value found => all value ⟨item, present, found⟩
  · rintro each value ⟨item, present, found⟩
    exact each item present value found

@[simp] theorem isFinite_difference :
    (difference left right).IsFinite ↔ left.IsFinite ∧ right.IsFinite := by
  simp only [IsFinite, nodes, List.mem_append, List.mem_singleton, reduceCtorEq, or_false,
    or_imp, forall_and]

@[simp] theorem isFinite_product :
    (product left right).IsFinite ↔ left.IsFinite ∧ right.IsFinite := by
  simp only [IsFinite, nodes, List.mem_append, List.mem_singleton, reduceCtorEq, or_false,
    or_imp, forall_and]

@[simp] theorem isFinite_opposite : (opposite inner).IsFinite ↔ inner.IsFinite := by
  simp [IsFinite, nodes]

theorem toJsonItems_eq (items : List (Formula Float)) : toJsonItems items = items.map toJson := by
  induction items with
  | nil => rfl
  | cons item rest ih => rw [toJsonItems, ih, List.map_cons]

theorem readingsOfItems_map (each : ∀ item ∈ items, readingOf item.toJson = .formula (some item)) :
    readingsOfItems (items.map toJson) = some items := by
  induction items with
  | nil => rfl
  | cons item rest ih =>
      obtain ⟨one, more⟩ := List.forall_mem_cons.mp each
      rw [List.map_cons, readingsOfItems, one, ih more]
      rfl

theorem readingsOfItems_pair (readLeft : readingOf left.toJson = .formula (some left))
    (readRight : readingOf right.toJson = .formula (some right)) :
    readingsOfItems [left.toJson, right.toJson] = some [left, right] :=
  readingsOfItems_map (List.forall_mem_cons.mpr ⟨readLeft, List.forall_mem_singleton.mpr readRight⟩)

/-- A written formula is read as the formula, by none of the operators tried before its own. -/
theorem readingOf_toJson {formula : Formula Float} (finite : formula.IsFinite) :
    readingOf formula.toJson = .formula (some formula) := by
  induction formula using induct with
  | number value =>
      have finite := isFinite_number.mp finite
      rw [toJson, ofFloat_of_isFinite finite, readingOf, floatOfLiteral?_write finite]
      rfl
  | name text => rfl
  | sum items ih =>
      have each item present := ih item present (isFinite_sum.mp finite item present)
      have items := readingsOfItems_map each
      rw [toJson, toJsonItems_eq]
      change Reading.formula (ofMembers? [(some "add", .items _)]) = _
      rw [items]
      rfl
  | difference left right ihLeft ihRight =>
      obtain ⟨finiteLeft, finiteRight⟩ := isFinite_difference.mp finite
      have items := readingsOfItems_pair (ihLeft finiteLeft) (ihRight finiteRight)
      change Reading.formula (ofMembers? [(some "sub", .items _)]) = _
      rw [items]
      rfl
  | product left right ihLeft ihRight =>
      obtain ⟨finiteLeft, finiteRight⟩ := isFinite_product.mp finite
      have items := readingsOfItems_pair (ihLeft finiteLeft) (ihRight finiteRight)
      change Reading.formula (ofMembers? [(some "mul", .items _)]) = _
      rw [items]
      rfl
  | opposite inner ih =>
      change Reading.formula (ofMembers? [(some "neg", readingOf inner.toJson)]) = _
      rw [ih (isFinite_opposite.mp finite)]
      rfl

theorem areRegular_map (each : ∀ item ∈ items, isRegular item.toJson = true) :
    areRegular (items.map toJson) = true := by
  induction items with
  | nil => rfl
  | cons item rest ih =>
      obtain ⟨one, more⟩ := List.forall_mem_cons.mp each
      rw [List.map_cons, areRegular, one, ih more]
      rfl

theorem isRegular_toJson {formula : Formula Float} (finite : formula.IsFinite) :
    isRegular formula.toJson = true := by
  induction formula using induct with
  | number value =>
      have finite := isFinite_number.mp finite
      rw [toJson, ofFloat_of_isFinite finite, isRegular, floatOfLiteral?_write finite]
      rfl
  | name text => rfl
  | sum items ih =>
      have each := areRegular_map fun item present =>
        ih item present (isFinite_sum.mp finite item present)
      simpa [toJson, toJsonItems_eq, ofFields, isRegular, areRegularMembers] using each
  | difference left right ihLeft ihRight =>
      obtain ⟨finiteLeft, finiteRight⟩ := isFinite_difference.mp finite
      simp [toJson, ofFields, isRegular, areRegularMembers, areRegular, ihLeft finiteLeft,
        ihRight finiteRight]
  | product left right ihLeft ihRight =>
      obtain ⟨finiteLeft, finiteRight⟩ := isFinite_product.mp finite
      simp [toJson, ofFields, isRegular, areRegularMembers, areRegular, ihLeft finiteLeft,
        ihRight finiteRight]
  | opposite inner ih =>
      simp [toJson, ofFields, isRegular, areRegularMembers, ih (isFinite_opposite.mp finite)]

theorem spelled_operator {key : String} {value : Json} (spelled : Spelled value) :
    Spelled (ofFields [(key, value)]) :=
  spelled_ofFields (List.forall_mem_singleton.mpr spelled)

theorem spelled_toJson (formula : Formula Float) : Spelled formula.toJson := by
  induction formula using induct with
  | number value => exact spelled_ofFloat value
  | name text => exact .text _
  | sum items ih =>
      rw [toJson, toJsonItems_eq]
      exact spelled_operator (.array (List.forall_mem_map.mpr ih))
  | difference left right ihLeft ihRight =>
      exact spelled_operator (.array (by simp [ihLeft, ihRight]))
  | product left right ihLeft ihRight =>
      exact spelled_operator (.array (by simp [ihLeft, ihRight]))
  | opposite inner ih => exact spelled_operator ih

/-! ## Formulas that are read -/

/-- What is read is finite, and written no deeper than a bound. -/
structure Bounded (reading : Reading) (bound : Nat) : Prop where
  formula : ∀ formula, reading.formula? = some formula →
    formula.IsFinite ∧ formula.toJson.height ≤ bound
  items : ∀ items, reading.items? = some items →
    (∀ item ∈ items, item.IsFinite) ∧ (Json.array (toJsonItems items)).height ≤ bound

theorem Bounded.mono {reading : Reading} {low high : Nat} (bounded : Bounded reading low)
    (le : low ≤ high) : Bounded reading high :=
  ⟨fun formula found => (bounded.formula formula found).imp_right le.trans',
    fun items found => (bounded.items items found).imp_right le.trans'⟩

theorem cases_orElse {α : Type} {first second : Option α} {a : α}
    (found : (first <|> second) = some a) : first = some a ∨ second = some a := by
  cases first with
  | none => exact .inr found
  | some => exact .inl found

theorem height_operator (key : String) (value : Json) :
    (ofFields [(key, value)]).height = value.height + 1 := by
  change max value.height 0 + 1 = _
  rw [Nat.max_zero]

section

variable {members : List (Option String × Reading)} {bound : Nat}
  (each : ∀ member ∈ members, Bounded member.2 bound)

include each

theorem bounded_only? {key : String} {reading : Reading}
    (found : only? key members = some reading) : Bounded reading bound := by
  unfold only? at found
  split at found
  case h_1 member reading alone =>
    cases found
    have present : (member, reading) ∈ members.filter fun p => p.1 == some key := by
      rw [alone]
      exact List.mem_cons_self
    exact each _ (List.mem_of_mem_filter present)
  case h_2 => cases found

theorem bounded_items {key : String} {items : List (Formula Float)}
    (found : (only? key members).bind Reading.items? = some items) :
    (∀ item ∈ items, item.IsFinite) ∧ (Json.array (toJsonItems items)).height ≤ bound := by
  obtain ⟨reading, only, found⟩ := Option.bind_eq_some_iff.mp found
  exact (bounded_only? each only).items items found

theorem bounded_pair? {key : String} {p : Formula Float × Formula Float}
    (found : pair? key members = some p) :
    (p.1.IsFinite ∧ p.2.IsFinite) ∧ (Json.array [p.1.toJson, p.2.toJson]).height ≤ bound := by
  unfold pair? at found
  split at found
  case h_1 left right two =>
    cases found
    obtain ⟨finite, low⟩ := bounded_items each two
    exact ⟨⟨finite left (by simp), finite right (by simp)⟩, low⟩
  case h_2 => cases found

/-- The operator that an object is read as is written no deeper than the object. -/
theorem bounded_ofMembers? {formula : Formula Float}
    (read : ofMembers? members = some formula) :
    formula.IsFinite ∧ formula.toJson.height ≤ bound + 1 := by
  unfold ofMembers? at read
  rcases cases_orElse read with add | read
  · obtain ⟨items, found, rfl⟩ := Option.map_eq_some_iff.mp add
    obtain ⟨finite, low⟩ := bounded_items each found
    rw [isFinite_sum, toJson, height_operator]
    exact ⟨finite, Nat.succ_le_succ low⟩
  rcases cases_orElse read with sub | read
  · obtain ⟨p, found, rfl⟩ := Option.map_eq_some_iff.mp sub
    obtain ⟨finite, low⟩ := bounded_pair? each found
    rw [isFinite_difference, toJson, height_operator]
    exact ⟨finite, Nat.succ_le_succ low⟩
  rcases cases_orElse read with mul | neg
  · obtain ⟨p, found, rfl⟩ := Option.map_eq_some_iff.mp mul
    obtain ⟨finite, low⟩ := bounded_pair? each found
    rw [isFinite_product, toJson, height_operator]
    exact ⟨finite, Nat.succ_le_succ low⟩
  · obtain ⟨inner, found, rfl⟩ := Option.map_eq_some_iff.mp neg
    obtain ⟨reading, only, found⟩ := Option.bind_eq_some_iff.mp found
    obtain ⟨finite, low⟩ := (bounded_only? each only).formula inner found
    rw [isFinite_opposite, toJson, height_operator]
    exact ⟨finite, Nat.succ_le_succ low⟩

end

theorem readingsOfMembers_eq (members : List (Option String × Json)) :
    readingsOfMembers members = members.map fun member => (member.1, readingOf member.2) := by
  induction members with
  | nil => rfl
  | cons member rest ih => rw [readingsOfMembers, ih, List.map_cons]

theorem bounded_readingsOfItems {items : List Json} {formulas : List (Formula Float)}
    (each : ∀ item ∈ items, Bounded (readingOf item) item.height)
    (found : readingsOfItems items = some formulas) :
    (∀ formula ∈ formulas, formula.IsFinite) ∧
      heightOfItems (toJsonItems formulas) ≤ heightOfItems items := by
  induction items generalizing formulas with
  | nil =>
      cases found
      exact ⟨nofun, le_refl 0⟩
  | cons item rest ih =>
      obtain ⟨one, more⟩ := List.forall_mem_cons.mp each
      rw [readingsOfItems] at found
      split at found
      case h_1 first others read readOthers =>
        cases found
        obtain ⟨finite, low⟩ := one.formula first read
        obtain ⟨finiteOthers, lowOthers⟩ := ih more readOthers
        exact ⟨List.forall_mem_cons.mpr ⟨finite, finiteOthers⟩, max_le_max low lowOthers⟩
      case h_2 => cases found

theorem bounded_readingOf (value : Json) : Bounded (readingOf value) value.height := by
  induction value using Json.induct with
  | null => exact ⟨nofun, nofun⟩
  | boolean value => exact ⟨nofun, nofun⟩
  | number literal =>
      refine ⟨fun formula found => ?_, nofun⟩
      obtain ⟨x, read, rfl⟩ := Option.map_eq_some_iff.mp found
      exact ⟨isFinite_number.mpr (isFinite_of_floatOfLiteral? read), (height_ofFloat x).le⟩
  | text content =>
      refine ⟨fun formula found => ?_, nofun⟩
      obtain ⟨text, -, rfl⟩ := Option.map_eq_some_iff.mp found
      exact ⟨isFinite_name text, le_refl 0⟩
  | array items ih =>
      refine ⟨nofun, fun formulas found => ?_⟩
      obtain ⟨finite, low⟩ := bounded_readingsOfItems ih found
      exact ⟨finite, Nat.succ_le_succ low⟩
  | object members ih =>
      refine ⟨fun formula found => ?_, nofun⟩
      have each : ∀ member ∈ readingsOfMembers members,
          Bounded member.2 (heightOfMembers members) := by
        rw [readingsOfMembers_eq, List.forall_mem_map]
        intro member present
        exact (ih member present).mono (heightOfMembers_le_iff.mp (le_refl _) member present)
      exact bounded_ofMembers? each found

end Formula

theorem Formula.faithful : Faithful (Formula Float) Formula.IsFinite 0 where
  spelled := Formula.spelled_toJson
  read_write {formula room} finite low := by
    have regular := Formula.isRegular_toJson finite
    refine (if_pos (Bool.and_eq_true_iff.mpr ⟨decide_eq_true low, regular⟩)).trans ?_
    exact congrArg Formula.Reading.formula? (Formula.readingOf_toJson finite)
  of_read {formula room value} _ read := by
    change (if _ then Formula.ofJson? value else none) = _ at read
    split at read
    case isTrue within =>
      obtain ⟨low, -⟩ := Bool.and_eq_true_iff.mp within
      obtain ⟨finite, deep⟩ := (Formula.bounded_readingOf value).formula formula read
      exact ⟨finite, deep.trans (of_decide_eq_true low)⟩
    case isFalse => cases read

/-! ## Records -/

theorem Kind.faithful : Faithful Kind (fun _ => True) 0 where
  spelled kind := .text _
  read_write {kind _} _ _ := by cases kind <;> rfl
  of_read _ _ := ⟨trivial, Nat.zero_le _⟩

theorem Relation.faithful : Faithful Relation (fun _ => True) 0 where
  spelled relation := .text _
  read_write {relation _} _ _ := by cases relation <;> rfl
  of_read _ _ := ⟨trivial, Nat.zero_le _⟩

theorem Direction.faithful : Faithful Direction (fun _ => True) 0 where
  spelled direction := .text _
  read_write {direction _} _ _ := by cases direction <;> rfl
  of_read _ _ := ⟨trivial, Nat.zero_le _⟩

theorem Settings.faithful : Faithful Settings (fun _ => True) 0 where
  spelled settings := spelled_ofFields (by simp [ofString, Spelled.text, Spelled.boolean])
  read_write {settings room} _ low := by
    obtain ⟨opened, -⟩ := height_ofFields_le_iff.mp low
    refine (fields?_ofFields_bind (by simp) opened _).trans ?_
    simp [required, ofString, string?, boolean?]
  of_read {settings room value} _ read := by
    obtain ⟨opened, -⟩ := of_fields?_bind read
    refine ⟨trivial, height_ofFields_le_iff.mpr ⟨opened, ?_⟩⟩
    simp only [List.forall_mem_cons]
    exact ⟨Nat.zero_le _, Nat.zero_le _, nofun⟩

theorem Variable.named_name (v : Variable) : named v.kind v.name = v := by
  obtain ⟨name, kind, unspaced⟩ := v
  have same := nameOf_name ⟨name, kind, unspaced⟩
  simp only [named, same]

theorem Variable.faithful : Faithful Variable (fun _ => True) 0 where
  spelled v := spelled_ofFields (by simp [ofString, Spelled.text, Kind.faithful.spelled])
  read_write {v room} _ low := by
    obtain ⟨opened, -⟩ := height_ofFields_le_iff.mp low
    have kind : Form.read? (room - 1) (Form.write v.kind) = some v.kind :=
      Kind.faithful.read_write trivial (Nat.zero_le _)
    refine (fields?_ofFields_bind (by simp) opened _).trans ?_
    simp [required, Json.optional, ofString, string?, kind, named_name]
  of_read {v room value} _ read := by
    obtain ⟨opened, -⟩ := of_fields?_bind read
    refine ⟨trivial, height_ofFields_le_iff.mpr ⟨opened, ?_⟩⟩
    simp only [List.forall_mem_cons]
    exact ⟨Nat.zero_le _, Nat.zero_le _, nofun⟩

theorem Declaration.faithful : Faithful Declaration (fun _ => True) 0 where
  spelled d := by
    refine spelled_ofFields (List.forall_mem_cons.mpr ⟨?_, by simp [Kind.faithful.spelled]⟩)
    cases d.name with
    | none => exact .null
    | some name => exact .text _
  read_write {d room} _ low := by
    obtain ⟨opened, -⟩ := height_ofFields_le_iff.mp low
    have kind : Form.read? (room - 1) (Form.write d.kind) = some d.kind :=
      Kind.faithful.read_write trivial (Nat.zero_le _)
    refine (fields?_ofFields_bind (by simp) opened _).trans ?_
    obtain ⟨name, kind⟩ := d
    cases name with
    | none => simp [Json.optional, kind]
    | some name => simp [Json.optional, ofString, string?, kind]
  of_read {d room value} _ read := by
    obtain ⟨opened, -⟩ := of_fields?_bind read
    refine ⟨trivial, height_ofFields_le_iff.mpr ⟨opened, ?_⟩⟩
    simp only [List.forall_mem_cons]
    refine ⟨?_, Nat.zero_le _, nofun⟩
    cases d.name <;> exact Nat.zero_le _

/-- Both sides of a requirement are finite. -/
def Requirement.IsFinite (requirement : Requirement Float) : Prop :=
  requirement.left.IsFinite ∧ requirement.right.IsFinite

theorem Requirement.faithful : Faithful (Requirement Float) Requirement.IsFinite 0 where
  spelled c := spelled_ofFields (by
    simp [Formula.faithful.spelled, Relation.faithful.spelled])
  read_write {c room} finite low := by
    obtain ⟨opened, each⟩ := height_ofFields_le_iff.mp low
    simp only [List.forall_mem_cons] at each
    obtain ⟨left, relation, right, -⟩ := each
    have left := Formula.faithful.read_write finite.1 left
    have relation := Relation.faithful.read_write trivial relation
    have right := Formula.faithful.read_write finite.2 right
    refine (fields?_ofFields_bind (by simp) opened _).trans ?_
    simp [required, left, relation, right]
  of_read {c room value} _ read := by
    obtain ⟨opened, fields, read⟩ := of_fields?_bind read
    split at read
    case h_1 =>
      obtain ⟨left, readLeft, read⟩ := Option.bind_eq_some_iff.mp read
      obtain ⟨relation, -, read⟩ := Option.bind_eq_some_iff.mp read
      obtain ⟨right, readRight, read⟩ := Option.bind_eq_some_iff.mp read
      cases read
      obtain ⟨_, readLeft⟩ := exists_of_required readLeft
      obtain ⟨_, readRight⟩ := exists_of_required readRight
      obtain ⟨finiteLeft, lowLeft⟩ := Formula.faithful.of_read (Nat.zero_le _) readLeft
      obtain ⟨finiteRight, lowRight⟩ := Formula.faithful.of_read (Nat.zero_le _) readRight
      refine ⟨⟨finiteLeft, finiteRight⟩, height_ofFields_le_iff.mpr ⟨opened, ?_⟩⟩
      simp only [List.forall_mem_cons]
      exact ⟨lowLeft, Nat.zero_le _, lowRight, nofun⟩
    case h_2 => cases read

/-- The objective and both sides of every requirement are finite. -/
def Document.IsFinite (document : Document Float) : Prop :=
  document.objective.IsFinite ∧ ∀ requirement ∈ document.requirements, requirement.IsFinite

/-- Lists that are left out are written as empty ones, which takes room for two openings. -/
theorem Document.faithful : Faithful (Document Float) Document.IsFinite 2 where
  spelled d := spelled_ofFields (by
    simp only [List.forall_mem_cons]
    exact ⟨Direction.faithful.spelled _,
      .array (List.forall_mem_map.mpr fun d _ => Declaration.faithful.spelled d),
      Formula.faithful.spelled _,
      .array (List.forall_mem_map.mpr fun c _ => Requirement.faithful.spelled c), nofun⟩)
  read_write {d room} finite low := by
    obtain ⟨opened, each⟩ := height_ofFields_le_iff.mp low
    simp only [List.forall_mem_cons] at each
    obtain ⟨direction, declarations, objective, requirements, -⟩ := each
    obtain ⟨openedTwice, declarations⟩ := height_array_le_iff.mp declarations
    obtain ⟨-, requirements⟩ := height_array_le_iff.mp requirements
    rw [List.forall_mem_map] at declarations requirements
    have direction := Direction.faithful.read_write trivial direction
    have declarations := list?_array openedTwice fun d present =>
      Declaration.faithful.read_write trivial (declarations d present)
    have objective := Formula.faithful.read_write finite.1 objective
    have requirements := list?_array openedTwice fun c present =>
      Requirement.faithful.read_write (finite.2 c present) (requirements c present)
    refine (fields?_ofFields_bind (by simp) opened _).trans ?_
    simp [required, Json.optional, direction, declarations, objective, requirements]
  of_read {d room value} enough read := by
    obtain ⟨opened, fields, read⟩ := of_fields?_bind read
    split at read
    case h_1 =>
      obtain ⟨direction, -, read⟩ := Option.bind_eq_some_iff.mp read
      obtain ⟨declarations, readDeclarations, read⟩ := Option.bind_eq_some_iff.mp read
      obtain ⟨objective, readObjective, read⟩ := Option.bind_eq_some_iff.mp read
      obtain ⟨requirements, readRequirements, read⟩ := Option.bind_eq_some_iff.mp read
      cases read
      obtain ⟨_, readObjective⟩ := exists_of_required readObjective
      obtain ⟨finite, low⟩ := Formula.faithful.of_read (Nat.zero_le _) readObjective
      have declared := Declaration.faithful.of_optional_list enough readDeclarations
      have required := Requirement.faithful.of_optional_list enough readRequirements
      refine ⟨⟨finite, required.1⟩, height_ofFields_le_iff.mpr ⟨opened, ?_⟩⟩
      simp only [List.forall_mem_cons]
      exact ⟨Nat.zero_le _, declared.2, low, required.2, nofun⟩
    case h_2 => cases read

/-- The objective and all values are finite. -/
def Summary.IsFinite (summary : Summary) : Prop :=
  summary.objective.isFinite = true ∧
    ∀ name value, summary.values.value? name = some value → value.isFinite = true

namespace Summary

/-- The values of members whose names are in order are added at the end. -/
theorem addMembers?_map {added : List (String × Float)} (table : Table String Float)
    (ordered : Table.Ordered (table.entries ++ added))
    (finite : ∀ entry ∈ added, entry.2.isFinite = true) :
    ∃ filled, addMembers? table (added.map fun entry => (some entry.1, ofFloat entry.2)) =
      some filled ∧ filled.entries = table.entries ++ added := by
  induction added generalizing table with
  | nil => exact ⟨table, rfl, (List.append_nil _).symm⟩
  | cons entry rest ih =>
      obtain ⟨one, more⟩ := List.forall_mem_cons.mp finite
      obtain ⟨-, -, below⟩ := List.pairwise_append.mp ordered
      have stored : (table.set entry.1 entry.2).entries = table.entries ++ [entry] :=
        Table.upsert_of_above fun p present => below p present entry List.mem_cons_self
      rw [List.append_cons] at ordered ⊢
      rw [← stored] at ordered ⊢
      obtain ⟨filled, read, entries⟩ := ih _ ordered more
      refine ⟨filled, ?_, entries⟩
      rw [List.map_cons, addMembers?, float?_ofFloat one]
      exact read

theorem values?_ofFields {values : Table String Float} {room : ℕ} (opened : room ≠ 0)
    (finite : ∀ name value, values.value? name = some value → value.isFinite = true) :
    values? room (ofFields (values.entries.map fun entry => (entry.1, ofFloat entry.2))) =
      some values := by
  have each : ∀ entry ∈ values.entries, entry.2.isFinite = true := fun entry present =>
    finite entry.1 entry.2 (congrArg (Option.map Prod.snd) (Table.pair?_of_mem present))
  obtain ⟨filled, read, entries⟩ := addMembers?_map .empty values.ordered each
  rw [ofFields, values?, if_neg opened, List.map_map]
  exact read.trans (congrArg some (Table.eq_of_entries_eq entries))

/-- Only finite values are added. -/
theorem finite_of_addMembers? {members : List (Option String × Json)}
    {table filled : Table String Float}
    (finite : ∀ name value, table.value? name = some value → value.isFinite = true)
    (read : addMembers? table members = some filled) :
    ∀ name value, filled.value? name = some value → value.isFinite = true := by
  induction members generalizing table with
  | nil =>
      cases read
      exact finite
  | cons member rest ih =>
      obtain ⟨key, value⟩ := member
      cases key with
      | none => cases read
      | some key =>
          obtain ⟨x, number, read⟩ := Option.bind_eq_some_iff.mp read
          refine ih (fun name value stored => ?_) read
          rw [Table.set, Table.value?_update] at stored
          split at stored
          case isTrue =>
            cases stored
            exact isFinite_of_float? number
          case isFalse => exact finite name value stored

theorem of_values? {room : ℕ} {value : Json} {values : Table String Float}
    (read : values? room value = some values) :
    room ≠ 0 ∧ ∀ name value, values.value? name = some value → value.isFinite = true := by
  cases value with
  | object members =>
      rw [values?] at read
      split at read
      case isTrue => cases read
      case isFalse opened =>
        refine ⟨opened, finite_of_addMembers? (fun name value stored => ?_) read⟩
        cases stored
  | _ => cases read

end Summary

theorem Summary.faithful : Faithful Summary Summary.IsFinite 0 where
  spelled summary := by
    refine spelled_ofFields (List.forall_mem_cons.mpr ⟨spelled_ofFloat _, ?_⟩)
    refine List.forall_mem_singleton.mpr (spelled_ofFields ?_)
    exact List.forall_mem_map.mpr fun entry _ => spelled_ofFloat entry.2
  read_write {summary room} finite low := by
    obtain ⟨opened, each⟩ := height_ofFields_le_iff.mp low
    simp only [List.forall_mem_cons] at each
    obtain ⟨openedTwice, -⟩ := height_ofFields_le_iff.mp each.2.1
    have objective := float?_ofFloat finite.1
    have values := Summary.values?_ofFields openedTwice finite.2
    refine (fields?_ofFields_bind (by simp) opened _).trans ?_
    simp [required, objective, values]
  of_read {summary room value} _ read := by
    obtain ⟨opened, fields, read⟩ := of_fields?_bind read
    split at read
    case h_1 =>
      obtain ⟨objective, readObjective, read⟩ := Option.bind_eq_some_iff.mp read
      obtain ⟨values, readValues, read⟩ := Option.bind_eq_some_iff.mp read
      cases read
      obtain ⟨_, readObjective⟩ := exists_of_required readObjective
      obtain ⟨_, readValues⟩ := exists_of_required readValues
      obtain ⟨openedTwice, finite⟩ := Summary.of_values? readValues
      refine ⟨⟨isFinite_of_float? readObjective, finite⟩,
        height_ofFields_le_iff.mpr ⟨opened, ?_⟩⟩
      simp only [List.forall_mem_cons]
      refine ⟨(height_ofFloat _).le.trans (Nat.zero_le _), ?_, nofun⟩
      refine height_ofFields_le_iff.mpr ⟨openedTwice, List.forall_mem_map.mpr fun entry _ => ?_⟩
      exact (height_ofFloat entry.2).le.trans (Nat.zero_le _)
    case h_2 => cases read

/-! ## All stored values -/

/--
Documents, formulas, requirements, declarations, variables, settings and summaries of
finite numbers, written with no more arrays and objects open at once than are read, are
read back from their texts.  Whatever any text is read as is such a value, so that it stays
as it is when it is written and read again.
-/
theorem stored_values_round_trip :
    RoundTrips (Document Float) Document.IsFinite ∧
    RoundTrips (Formula Float) Formula.IsFinite ∧
    RoundTrips (Requirement Float) Requirement.IsFinite ∧
    RoundTrips Declaration (fun _ => True) ∧
    RoundTrips Variable (fun _ => True) ∧
    RoundTrips Settings (fun _ => True) ∧
    RoundTrips Summary Summary.IsFinite :=
  ⟨Document.faithful.roundTrips (by decide), Formula.faithful.roundTrips (by decide),
    Requirement.faithful.roundTrips (by decide), Declaration.faithful.roundTrips (by decide),
    Variable.faithful.roundTrips (by decide), Settings.faithful.roundTrips (by decide),
    Summary.faithful.roundTrips (by decide)⟩

/-- An object with the keys of two operators is read as the first of them and stays that. -/
theorem two_operators_settle :
    decode? "\x7b\"neg\": \"x\", \"add\": []\x7d" = some (.sum [] : Formula Float) ∧
      decode? (encode (.sum [] : Formula Float)) = some (.sum [] : Formula Float) := by
  have scanned : Token.scan? "\x7b\"neg\": \"x\", \"add\": []\x7d".toList =
      some [.openObject, .text (some "neg"), .colon, .text (some "x"), .comma,
        .text (some "add"), .colon, .openArray, .closeArray, .closeObject] := by
    decide +kernel
  have read : decode? "\x7b\"neg\": \"x\", \"add\": []\x7d" = some (.sum [] : Formula Float) := by
    rw [decode?, parse?, scanned]
    rfl
  exact ⟨read, (stored_values_round_trip.2.1.of_decode _ _ read).2.2.1⟩

end MixedInteger
