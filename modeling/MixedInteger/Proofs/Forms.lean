import MixedInteger.Json.Form
import MixedInteger.Proofs.Numerals
import MixedInteger.Proofs.Parsing

/-!
# Faithful forms

A form is faithful to some values of its type if these are read back from what is written
for them, and if no reading yields any other value or one that would be written deeper
than what was read.  A record is faithful if the forms of its fields are.
-/

namespace MixedInteger.Json

variable {room : Nat}

/-! ## Heights -/

theorem heightOfItems_le_iff {items : List Json} :
    heightOfItems items ≤ room ↔ ∀ item ∈ items, item.height ≤ room := by
  induction items with
  | nil => simp [heightOfItems]
  | cons item rest ih => rw [heightOfItems, max_le_iff, ih, List.forall_mem_cons]

theorem heightOfMembers_le_iff {members : List (Option String × Json)} :
    heightOfMembers members ≤ room ↔ ∀ member ∈ members, member.2.height ≤ room := by
  induction members with
  | nil => simp [heightOfMembers]
  | cons member rest ih => rw [heightOfMembers, max_le_iff, ih, List.forall_mem_cons]

theorem height_array_le_iff {items : List Json} :
    (array items).height ≤ room ↔ room ≠ 0 ∧ ∀ item ∈ items, item.height ≤ room - 1 := by
  rw [← heightOfItems_le_iff, height]
  omega

theorem height_ofFields_le_iff {fields : List (String × Json)} :
    (ofFields fields).height ≤ room ↔
      room ≠ 0 ∧ ∀ field ∈ fields, field.2.height ≤ room - 1 := by
  have inside := @heightOfMembers_le_iff (room - 1) (fields.map fun p => (some p.1, p.2))
  rw [List.forall_mem_map] at inside
  rw [← inside, ofFields, height]
  omega

theorem spelled_ofFields {fields : List (String × Json)}
    (each : ∀ field ∈ fields, Spelled field.2) : Spelled (ofFields fields) :=
  .object (List.forall_mem_map.mpr each)

/-! ## Numbers and texts -/

theorem floatOfLiteral?_write {x : Float} (finite : x.isFinite = true) :
    floatOfLiteral? (numberStyle.write x) = some x := by
  obtain ⟨read, found, same⟩ := Decimal.strict?_write numberStyle finite
  rw [floatOfLiteral?, found]
  simp only [same, finite, if_true]

theorem isFinite_of_floatOfLiteral? {literal : String} {x : Float}
    (read : floatOfLiteral? literal = some x) : x.isFinite = true := by
  unfold floatOfLiteral? at read
  split at read
  case h_1 =>
    split at read
    case isTrue finite =>
      cases read
      exact finite
    case isFalse => cases read
  case h_2 => cases read

theorem ofFloat_of_isFinite {x : Float} (finite : x.isFinite = true) :
    ofFloat x = .number (numberStyle.write x) :=
  if_pos finite

theorem height_ofFloat (x : Float) : (ofFloat x).height = 0 := by
  unfold ofFloat
  split <;> rfl

theorem spelled_ofFloat (x : Float) : Spelled (ofFloat x) := by
  unfold ofFloat
  split
  case isTrue finite =>
    obtain ⟨read, found, -⟩ := Decimal.strict?_write numberStyle finite
    exact .number (by rw [found]; rfl)
  case isFalse => exact .null

theorem float?_ofFloat {x : Float} (finite : x.isFinite = true) : float? (ofFloat x) = some x := by
  rw [ofFloat_of_isFinite finite]
  exact floatOfLiteral?_write finite

theorem isFinite_of_float? {value : Json} {x : Float} (read : float? value = some x) :
    x.isFinite = true := by
  cases value with
  | number literal => exact isFinite_of_floatOfLiteral? read
  | _ => cases read

/-! ## Fields of records -/

theorem valuesOf_cons (key : String) (field : String × Json) (rest : List (Option String × Json)) :
    valuesOf key ((some field.1, field.2) :: rest) =
      if field.1 = key then field.2 :: valuesOf key rest else valuesOf key rest := by
  by_cases same : field.1 = key
  · simp [valuesOf, same]
  · simp [valuesOf, same]

theorem valuesOf_absent {fields : List (String × Json)} {key : String}
    (absent : key ∉ fields.map Prod.fst) :
    valuesOf key (fields.map fun p => (some p.1, p.2)) = [] := by
  induction fields with
  | nil => rfl
  | cons first others ih =>
      rw [List.map_cons, List.mem_cons, not_or] at absent
      rw [List.map_cons, valuesOf_cons, if_neg (Ne.symm absent.1), ih absent.2]

theorem valuesOf_fields {fields : List (String × Json)} (distinct : (fields.map Prod.fst).Nodup)
    {field : String × Json} (present : field ∈ fields) :
    valuesOf field.1 (fields.map fun p => (some p.1, p.2)) = [field.2] := by
  induction fields with
  | nil => cases present
  | cons first others ih =>
      obtain ⟨new, distinct⟩ := List.nodup_cons.mp distinct
      rw [List.map_cons, valuesOf_cons]
      rcases List.mem_cons.mp present with rfl | later
      · rw [if_pos rfl, valuesOf_absent new]
      · have other : first.1 ≠ field.1 := fun same => new (same ▸ List.mem_map_of_mem later)
        rw [if_neg other, ih distinct later]

theorem fieldsOfMembers?_of_valuesOf {members : List (Option String × Json)}
    {fields : List (String × Json)}
    (each : ∀ field ∈ fields, valuesOf field.1 members = [field.2]) :
    fieldsOfMembers? members (fields.map Prod.fst) = some (fields.map fun p => some p.2) := by
  induction fields with
  | nil => rfl
  | cons first others ih =>
      obtain ⟨one, more⟩ := List.forall_mem_cons.mp each
      rw [List.map_cons, List.map_cons, fieldsOfMembers?, one, ih more]
      rfl

/-- The fields of a written record are the values that were written. -/
theorem fields?_ofFields {fields : List (String × Json)}
    (distinct : (fields.map Prod.fst).Nodup) (opened : room ≠ 0) :
    fields? (fields.map Prod.fst) room (ofFields fields) = some (fields.map fun p => some p.2) := by
  have named : (fields.map fun p => (some p.1, p.2)).all (·.1.isSome) = true := by simp
  rw [ofFields, fields?, named]
  simp only [opened, decide_false, Bool.not_true, Bool.or_false, Bool.false_eq_true, if_false]
  exact fieldsOfMembers?_of_valuesOf fun field present => valuesOf_fields distinct present

theorem ne_zero_of_fields? {keys : List String} {value : Json} {fields : List (Option Json)}
    (read : fields? keys room value = some fields) : room ≠ 0 := by
  rintro rfl
  cases value <;> cases read

/-- A reading of a record goes on with the values that were written. -/
theorem fields?_ofFields_bind {α : Type} {fields : List (String × Json)}
    (distinct : (fields.map Prod.fst).Nodup) (opened : room ≠ 0)
    (make : List (Option Json) → Option α) :
    (fields? (fields.map Prod.fst) room (ofFields fields) >>= make) =
      make (fields.map fun p => some p.2) := by
  rw [fields?_ofFields distinct opened]
  rfl

/-- A record that is read takes room, and is made of its fields. -/
theorem of_fields?_bind {α : Type} {keys : List String} {value : Json} {a : α}
    {make : List (Option Json) → Option α} (read : (fields? keys room value >>= make) = some a) :
    room ≠ 0 ∧ ∃ fields, make fields = some a := by
  obtain ⟨fields, found, read⟩ := Option.bind_eq_some_iff.mp read
  exact ⟨ne_zero_of_fields? found, fields, read⟩

theorem exists_of_required {α : Type} {read : Json → Option α} {field : Option Json} {a : α}
    (found : required read field = some a) : ∃ value, read value = some a := by
  cases field with
  | none => cases found
  | some value => exact ⟨value, found⟩

theorem exists_of_optional {α : Type} {standard a : α} {read : Json → Option α}
    {field : Option Json} (found : optional standard read field = some a) :
    a = standard ∨ ∃ value, read value = some a := by
  cases field with
  | none => exact .inl (Option.some.inj found).symm
  | some value => exact .inr ⟨value, found⟩

/-! ## Lists -/

theorem list?_array {α : Type} {read : Nat → Json → Option α} {write : α → Json} {items : List α}
    (opened : room ≠ 0) (each : ∀ a ∈ items, read (room - 1) (write a) = some a) :
    list? read room (.array (items.map write)) = some items := by
  rw [list?, if_neg opened]
  induction items with
  | nil => rfl
  | cons a rest ih =>
      obtain ⟨one, more⟩ := List.forall_mem_cons.mp each
      rw [List.map_cons, List.mapM_cons, one, ih more]
      rfl

theorem of_list? {α : Type} {read : Nat → Json → Option α} {value : Json} {items : List α}
    (found : list? read room value = some items) :
    room ≠ 0 ∧ ∀ a ∈ items, ∃ item, read (room - 1) item = some a := by
  cases value with
  | array values =>
      rw [list?] at found
      split at found
      case isTrue => cases found
      case isFalse opened =>
        refine ⟨opened, ?_⟩
        induction values generalizing items with
        | nil =>
            cases found
            exact nofun
        | cons first others ih =>
            rw [List.mapM_cons] at found
            obtain ⟨a, one, found⟩ := Option.bind_eq_some_iff.mp found
            obtain ⟨rest, more, found⟩ := Option.bind_eq_some_iff.mp found
            cases found
            exact List.forall_mem_cons.mpr ⟨⟨first, one⟩, ih more⟩
  | _ => cases found

/-! ## Faithful forms -/

/-- The values that fit are read back from what is written, and nothing else is read. -/
structure Faithful (α : Type) [Form α] (Fit : α → Prop) (least : Nat) : Prop where
  spelled (a : α) : Spelled (Form.write a)
  read_write {a : α} {room : Nat} (fit : Fit a) (low : (Form.write a).height ≤ room) :
    Form.read? room (Form.write a) = some a
  of_read {a : α} {room : Nat} {value : Json} (enough : least ≤ room)
    (read : Form.read? room value = some a) : Fit a ∧ (Form.write a).height ≤ room

/-- A list that may be left out is written as an array, for which there is room. -/
theorem Faithful.of_optional_list {α : Type} [Form α] {Fit : α → Prop} (faithful : Faithful α Fit 0)
    (enough : 2 ≤ room) {field : Option Json} {items : List α}
    (found : optional [] (list? Form.read? (room - 1)) field = some items) :
    (∀ a ∈ items, Fit a) ∧ (array (items.map Form.write)).height ≤ room - 1 := by
  rcases exists_of_optional found with rfl | ⟨value, found⟩
  · exact ⟨nofun, height_array_le_iff.mpr ⟨by omega, nofun⟩⟩
  · obtain ⟨opened, each⟩ := of_list? found
    have sound (a : α) (present : a ∈ items) :
        Fit a ∧ (Form.write a).height ≤ room - 1 - 1 := by
      obtain ⟨item, read⟩ := each a present
      exact faithful.of_read (Nat.zero_le _) read
    refine ⟨fun a present => (sound a present).1, height_array_le_iff.mpr ⟨opened, ?_⟩⟩
    exact List.forall_mem_map.mpr fun a present => (sound a present).2

/--
The values that fit, and are not written too deep, are read back from either of their
texts; and any value that is read from any text is such a value.
-/
structure RoundTrips (α : Type) [Form α] (Fit : α → Prop) : Prop where
  compact (a : α) (fit : Fit a) (low : (Form.write a).height ≤ nestingLimit) :
    decode? (encode a) = some a
  indented (a : α) (fit : Fit a) (low : (Form.write a).height ≤ nestingLimit) :
    decode? (Form.write a).writeIndented = some a
  of_decode (text : String) (a : α) (read : decode? text = some a) :
    Fit a ∧ (Form.write a).height ≤ nestingLimit ∧
      decode? (encode a) = some a ∧ decode? (Form.write a).writeIndented = some a

theorem Faithful.roundTrips {α : Type} [Form α] {Fit : α → Prop} {least : Nat}
    (faithful : Faithful α Fit least) (enough : least ≤ nestingLimit) : RoundTrips α Fit := by
  have compact (a : α) (fit : Fit a) (low : (Form.write a).height ≤ nestingLimit) :
      decode? (encode a) = some a := by
    rw [decode?, encode, parse?_write (faithful.spelled a), Option.bind_some]
    exact faithful.read_write fit low
  have indented (a : α) (fit : Fit a) (low : (Form.write a).height ≤ nestingLimit) :
      decode? (Form.write a).writeIndented = some a := by
    rw [decode?, parse?_writeIndented (faithful.spelled a), Option.bind_some]
    exact faithful.read_write fit low
  refine ⟨compact, indented, fun text a read => ?_⟩
  obtain ⟨value, -, read⟩ := Option.bind_eq_some_iff.mp read
  obtain ⟨fit, low⟩ := faithful.of_read enough read
  exact ⟨fit, low, compact a fit low, indented a fit low⟩

end MixedInteger.Json
