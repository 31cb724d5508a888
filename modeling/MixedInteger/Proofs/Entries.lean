import Mathlib.Data.List.Forall2
import Mathlib.Order.Lattice
import MixedInteger.Proofs.Keys
import MixedInteger.Proofs.Magnitude
import MixedInteger.Report

/-!
# What the entries of a report settle

A report has items at places that are in order.  The first item that cannot be used
decides; if there is none, every variable of the model gets the value of the last item
with its name.  This says at which places the deciding items stand, and taking the entries
one after the other comes to the same.
-/

namespace MixedInteger

theorem Answer.eq_of_solved {answer : Answer} {solution : Solution}
    (solved : answer.toOption.join = some solution) : answer = .ok (some solution) := by
  cases answer with
  | error error => cases solved
  | ok outcome => exact congrArg Except.ok solved

/-- The numbers of a solution are finite, and its values are zero or not below the tolerance. -/
structure Solution.Snapped (solution : Solution) : Prop where
  objective : solution.objective.isFinite = true
  finite : ∀ v value, solution.get? v = some value → value.isFinite = true
  apart : ∀ v value, solution.get? v = some value →
    value = 0.0 ∨ Tolerance.epsilon ≤ value.abs

/-- Every variable of a set is at zero at first, and no other name has a value. -/
theorem Solution.value?_zeroed (vars : VariableSet) (objective : Float) (name : String) :
    (Solution.zeroed vars objective).values.value? name =
      if name ∈ vars.keys.map Variable.name then some 0.0 else none := by
  rw [Solution.zeroed, Table.value?_map]
  split
  case isTrue present =>
    obtain ⟨_, stored⟩ := Table.exists_value?_iff.mpr present
    rw [stored]
    rfl
  case isFalse absent =>
    have missing : vars.value? name = none :=
      Option.eq_none_iff_forall_ne_some.mpr fun a stored =>
        absent (Table.exists_value?_iff.mp ⟨a, stored⟩)
    rw [missing]
    rfl

namespace Report

/-- A name and a finite value, as far as they are there. -/
structure Item where
  name? : Option String
  value? : Option Float

/-- The item cannot be used, and what that makes of the report. -/
inductive Item.Fails (vars : VariableSet) (item : Item) : Answer → Prop where
  | incomplete (lacking : item.name? = none ∨ item.value? = none) : Fails vars item (.ok none)
  | unknown {name : String} {value : Float} (named : item.name? = some name)
      (valued : item.value? = some value) (absent : ∀ v ∈ vars.keys, v.name ≠ name) :
      Fails vars item (.error (.unknownVariable name))

section

variable {ι : Type} [LinearOrder ι]

/-- The value of a name: that of the last item with the name, snapped, or zero. -/
inductive Reported (item? : ι → Option Item) (name : String) : Float → Prop where
  | last {place : ι} {item : Item} {value : Float} (there : item? place = some item)
      (named : item.name? = some name) (valued : item.value? = some value)
      (unnamed : ∀ later other, place < later → item? later = some other →
        other.name? ≠ some name) :
      Reported item? name (Tolerance.snapped value)
  | absent (unnamed : ∀ place item, item? place = some item → item.name? ≠ some name) :
      Reported item? name 0.0

/-- What the items of a report come to, given the value of the objective. -/
inductive Settles (vars : VariableSet) (objective : Float) (item? : ι → Option Item) :
    Answer → Prop where
  | fails {place : ι} {item : Item} {answer : Answer} (there : item? place = some item)
      (bad : item.Fails vars answer)
      (first : ∀ earlier other answer, earlier < place → item? earlier = some other →
        ¬ other.Fails vars answer) :
      Settles vars objective item? answer
  | solves {solution : Solution}
      (sound : ∀ place item answer, item? place = some item → ¬ item.Fails vars answer)
      (announced : solution.objective = objective) (keys : solution.values.keys = vars.keys)
      (values : ∀ v ∈ vars.keys, ∃ value, solution.get? v = some value ∧
        Reported item? v.name value) :
      Settles vars objective item? (.ok (some solution))

end

/-! ## Items -/

namespace Item

variable {vars : VariableSet} {item : Item}

/-- The item gives a value to a variable of the model. -/
def Assigns (vars : VariableSet) (item : Item) (v : Variable) (value : Float) : Prop :=
  v ∈ vars.keys ∧ item.name? = some v.name ∧ item.value? = some value

/-- An item with a name and a value lacks neither. -/
theorem complete {name : String} {value : Float} (named : item.name? = some name)
    (valued : item.value? = some value) : ¬ (item.name? = none ∨ item.value? = none) := by
  rintro (absent | absent)
  · cases named.symm.trans absent
  · cases valued.symm.trans absent

theorem Fails.unique {first second : Answer} (one : item.Fails vars first)
    (other : item.Fails vars second) : first = second := by
  cases one with
  | incomplete lacking =>
      cases other with
      | incomplete => rfl
      | unknown named valued => exact absurd lacking (complete named valued)
  | unknown named valued =>
      cases other with
      | incomplete lacking => exact absurd lacking (complete named valued)
      | unknown namedOther =>
          cases named.symm.trans namedOther
          rfl

/-- An item that can be used gives a value to a variable of the model. -/
theorem exists_assigns (sound : ∀ answer, ¬ item.Fails vars answer) :
    ∃ v value, item.Assigns vars v value := by
  cases named : item.name? with
  | none => exact absurd (.incomplete (.inl named)) (sound _)
  | some name =>
      cases valued : item.value? with
      | none => exact absurd (.incomplete (.inr valued)) (sound _)
      | some value =>
          cases found : vars.find? name with
          | none =>
              exact absurd (.unknown named valued (VariableSet.find?_eq_none_iff.mp found)) (sound _)
          | some v =>
              obtain ⟨present, rfl⟩ := VariableSet.find?_eq_some_iff.mp found
              exact ⟨v, value, present, named, valued⟩

/-- The entry of a report that an item is read as. -/
inductive ReadAs (item : Item) : Entry → Prop where
  | pair {name : String} {value : Float} (named : item.name? = some name)
      (valued : item.value? = some value) : ReadAs item (.ok (name, value))
  | unusable {ending : Reading} (lacking : item.name? = none ∨ item.value? = none)
      (without : ending.answer = .ok none) : ReadAs item (.error ending)

variable {entry : Entry} {rest : List Entry} {solution : Solution}

theorem fill_of_assigns {v : Variable} {value : Float} (read : item.ReadAs entry)
    (assigns : item.Assigns vars v value) :
    fill vars solution (entry :: rest) =
      fill vars (solution.set v (Tolerance.snapped value)) rest := by
  obtain ⟨present, named, valued⟩ := assigns
  cases read with
  | unusable lacking => exact absurd lacking (complete named valued)
  | pair namedToo valuedToo =>
      cases named.symm.trans namedToo
      cases valued.symm.trans valuedToo
      rw [fill, VariableSet.find?_eq_some_iff.mpr ⟨present, rfl⟩]

theorem fill_of_fails {answer : Answer} (read : item.ReadAs entry) (fails : item.Fails vars answer) :
    (fill vars solution (entry :: rest)).answer = answer := by
  cases read with
  | unusable lacking without =>
      cases fails.unique (.incomplete lacking)
      exact without
  | pair named valued =>
      cases fails with
      | incomplete lacking => exact absurd lacking (complete named valued)
      | unknown namedToo valuedToo absent =>
          cases named.symm.trans namedToo
          rw [fill, VariableSet.find?_eq_none_iff.mpr absent]
          rfl

end Item

/-! ## Entries one after the other -/

section

variable {ι : Type} {vars : VariableSet} {found : List (ι × Item)} {entries : List Entry}

/-- Entries that can be used are all taken, and the last one of a name counts. -/
theorem fill_assigned (solution : Solution) (keys : solution.values.keys = vars.keys)
    (read : List.Forall₂ (fun p entry => p.2.ReadAs entry) found entries)
    (sound : ∀ p ∈ found, ∃ v value, p.2.Assigns vars v value) :
    ∃ filled, fill vars solution entries = .give (.ok (some filled)) ∧
      filled.objective = solution.objective ∧ filled.values.keys = vars.keys ∧
      ∀ name,
        (∃ front p back value, found = front ++ p :: back ∧ p.2.name? = some name ∧
          p.2.value? = some value ∧ (∀ q ∈ back, q.2.name? ≠ some name) ∧
          filled.values.value? name = some (Tolerance.snapped value)) ∨
        ((∀ p ∈ found, p.2.name? ≠ some name) ∧
          filled.values.value? name = solution.values.value? name) := by
  induction read generalizing solution with
  | nil => exact ⟨solution, rfl, rfl, keys, fun name => .inr ⟨nofun, rfl⟩⟩
  | @cons p entry found entries head tail ih =>
      obtain ⟨⟨v, value, assigns⟩, later⟩ := List.forall_mem_cons.mp sound
      have ⟨present, named, valued⟩ := assigns
      have kept : (solution.set v (Tolerance.snapped value)).values.keys = vars.keys :=
        (Table.keys_set (keys ▸ present) _).trans keys
      obtain ⟨filled, taken, objective, same, values⟩ := ih _ kept later
      refine ⟨filled, (Item.fill_of_assigns head assigns).trans taken, objective, same,
        fun name => ?_⟩
      rcases values name with ⟨front, q, back, last, split, rest⟩ | ⟨unnamed, unchanged⟩
      · exact .inl ⟨p :: front, q, back, last, congrArg (p :: ·) split, rest⟩
      · by_cases same : v.name = name
        · subst same
          refine .inl ⟨[], p, found, value, rfl, named, valued, unnamed, unchanged.trans ?_⟩
          exact (Table.value?_update ..).trans (if_pos rfl)
        · have other : p.2.name? ≠ some name := by
            rw [named]
            exact fun equal => same (Option.some.inj equal)
          refine .inr ⟨List.forall_mem_cons.mpr ⟨other, unnamed⟩, unchanged.trans ?_⟩
          exact (Table.value?_update ..).trans (if_neg same)

/-- The first entry that cannot be used decides. -/
theorem fill_failed {front back : List (ι × Item)} {p : ι × Item} {answer : Answer}
    (solution : Solution) (sound : ∀ q ∈ front, ∃ v value, q.2.Assigns vars v value)
    (bad : p.2.Fails vars answer)
    (read : List.Forall₂ (fun p entry => p.2.ReadAs entry) (front ++ p :: back) entries) :
    (fill vars solution entries).answer = answer := by
  induction front generalizing solution entries with
  | nil =>
      cases read with
      | cons head tail => exact Item.fill_of_fails head bad
  | cons q front ih =>
      obtain ⟨⟨v, value, assigns⟩, later⟩ := List.forall_mem_cons.mp sound
      cases read with
      | cons head tail =>
          rw [Item.fill_of_assigns head assigns]
          exact ih _ later tail

end

/-! ## Places in order -/

section

variable {ι : Type} [LinearOrder ι] {vars : VariableSet} {objective : Float}
  {item? : ι → Option Item} {found : List (ι × Item)} {entries : List Entry}

/-- The items of a report are listed with their places, in order. -/
structure Lists (item? : ι → Option Item) (found : List (ι × Item)) : Prop where
  increasing : found.Pairwise fun p q => p.1 < q.1
  mem_iff : ∀ p, p ∈ found ↔ item? p.1 = some p.2

namespace Lists

variable {front back : List (ι × Item)} {p q : ι × Item}

theorem mem_front (lists : Lists item? (front ++ p :: back)) (there : item? q.1 = some q.2)
    (before : q.1 < p.1) : q ∈ front := by
  obtain ⟨-, above, -⟩ := List.pairwise_append.mp lists.increasing
  rcases List.mem_append.mp ((lists.mem_iff q).mpr there) with earlier | later
  · exact earlier
  · rcases List.mem_cons.mp later with rfl | later
    · exact absurd before (lt_irrefl _)
    · exact absurd before (lt_asymm (List.rel_of_pairwise_cons above later))

theorem mem_back (lists : Lists item? (front ++ p :: back)) (there : item? q.1 = some q.2)
    (after : p.1 < q.1) : q ∈ back := by
  obtain ⟨-, -, below⟩ := List.pairwise_append.mp lists.increasing
  rcases List.mem_append.mp ((lists.mem_iff q).mpr there) with earlier | later
  · exact absurd after (lt_asymm (below q earlier p List.mem_cons_self))
  · rcases List.mem_cons.mp later with rfl | later
    · exact absurd after (lt_irrefl _)
    · exact later

theorem there (lists : Lists item? (front ++ p :: back)) : item? p.1 = some p.2 :=
  (lists.mem_iff p).mp (List.mem_append_right _ List.mem_cons_self)

end Lists

/-- A list has a first element with a property, or none has it. -/
theorem exists_first {α : Type} (P : α → Prop) (list : List α) :
    (∃ front a back, list = front ++ a :: back ∧ P a ∧ ∀ b ∈ front, ¬ P b) ∨
      ∀ a ∈ list, ¬ P a := by
  classical
  cases found : list.find? fun a => decide (P a) with
  | none => exact .inr fun a present => by simpa using List.find?_eq_none.mp found a present
  | some a =>
      obtain ⟨holds, front, back, rfl, others⟩ := List.find?_eq_some_iff_append.mp found
      exact .inl ⟨front, a, back, rfl, of_decide_eq_true holds, by simpa using others⟩

/-- Taking the entries one after the other comes to what the places of the items say. -/
theorem settles_ofEntries (lists : Lists item? found)
    (read : List.Forall₂ (fun p entry => p.2.ReadAs entry) found entries) :
    Settles vars objective item? (ofEntries vars objective entries).answer := by
  rcases exists_first (fun p : ι × Item => ∃ answer, p.2.Fails vars answer) found with
    ⟨front, p, back, rfl, ⟨answer, bad⟩, sound⟩ | sound
  · rw [ofEntries, fill_failed _ (fun q earlier => Item.exists_assigns fun answer fails =>
      sound q earlier ⟨answer, fails⟩) bad read]
    refine .fails lists.there bad fun earlier other answer before there fails => ?_
    exact sound (earlier, other) (lists.mem_front there before) ⟨answer, fails⟩
  · obtain ⟨filled, taken, announced, keys, values⟩ := fill_assigned
      (Solution.zeroed vars objective) (Table.keys_congr fun _ => Table.key?_map ..) read
      fun p present => Item.exists_assigns fun answer fails => sound p present ⟨answer, fails⟩
    rw [ofEntries, taken]
    refine .solves (fun place item answer there fails => ?_) announced keys fun v present => ?_
    · exact sound (place, item) ((lists.mem_iff _).mpr there) ⟨answer, fails⟩
    · rcases values v.name with ⟨front, p, back, value, rfl, named, valued, unnamed, stored⟩ |
        ⟨unnamed, unchanged⟩
      · refine ⟨_, stored, .last lists.there named valued fun later other after there => ?_⟩
        exact unnamed (later, other) (lists.mem_back there after)
      · refine ⟨0.0, unchanged.trans ?_, .absent fun place item there => ?_⟩
        · exact (Solution.value?_zeroed ..).trans (if_pos (List.mem_map_of_mem present))
        · exact unnamed (place, item) ((lists.mem_iff _).mpr there)

theorem Reported.unique {name : String} {first second : Float} (one : Reported item? name first)
    (other : Reported item? name second) : first = second := by
  cases one with
  | absent unnamed =>
      cases other with
      | absent => rfl
      | last there named => exact absurd named (unnamed _ _ there)
  | @last place item value there named valued unnamed =>
      cases other with
      | absent unnamedToo => exact absurd named (unnamedToo _ _ there)
      | @last placeToo itemToo valueToo thereToo namedToo valuedToo unnamedToo =>
          rcases lt_trichotomy place placeToo with before | rfl | after
          · exact absurd namedToo (unnamed _ _ before thereToo)
          · cases there.symm.trans thereToo
            cases valued.symm.trans valuedToo
            rfl
          · exact absurd named (unnamedToo _ _ after there)

/-- The items come to one answer only. -/
theorem Settles.unique {first second : Answer} (one : Settles vars objective item? first)
    (other : Settles vars objective item? second) : first = second := by
  cases one with
  | @fails place item _ there bad earliest =>
      cases other with
      | solves sound => exact absurd bad (sound _ _ _ there)
      | @fails placeToo itemToo _ thereToo badToo earliestToo =>
          rcases lt_trichotomy place placeToo with before | rfl | after
          · exact absurd bad (earliestToo _ _ _ before there)
          · cases there.symm.trans thereToo
            exact bad.unique badToo
          · exact absurd badToo (earliest _ _ _ after thereToo)
  | @solves solution sound announced keys values =>
      cases other with
      | fails there bad => exact absurd bad (sound _ _ _ there)
      | @solves solutionToo _ announcedToo keysToo valuesToo =>
          have same : solution.values = solutionToo.values := by
            refine Table.eq_of_values (keys.trans keysToo.symm) fun v present => ?_
            obtain ⟨value, stored, reported⟩ := values v (keys ▸ present)
            obtain ⟨valueToo, storedToo, reportedToo⟩ := valuesToo v (keys ▸ present)
            exact stored.trans (reported.unique reportedToo ▸ storedToo.symm)
          have objectives := announced.trans announcedToo.symm
          cases solution
          cases solutionToo
          cases same
          cases objectives
          rfl

/-- The answer that the entries of a report give is the one that its items come to. -/
theorem answer_ofEntries_iff (lists : Lists item? found)
    (read : List.Forall₂ (fun p entry => p.2.ReadAs entry) found entries) {answer : Answer} :
    (ofEntries vars objective entries).answer = answer ↔ Settles vars objective item? answer := by
  have settled : Settles vars objective item? (ofEntries vars objective entries).answer :=
    settles_ofEntries lists read
  constructor
  · rintro rfl
    exact settled
  · exact settled.unique

/-- A value that is reported for a name is one of an item, snapped, or zero. -/
theorem Reported.snapped {name : String} {value : Float}
    (finite : ∀ place item value, item? place = some item → item.value? = some value →
      value.isFinite = true) (reported : Reported item? name value) :
    value.isFinite = true ∧ (value = 0.0 ∨ Tolerance.epsilon ≤ value.abs) := by
  cases reported with
  | absent => exact ⟨rfl, .inl rfl⟩
  | last there named valued =>
      have number := finite _ _ _ there valued
      exact ⟨Tolerance.snapped_finite number, Tolerance.snapped_eq_zero_or number⟩

/-- A solution from finite numbers is finite, and no value of it is near zero without being zero. -/
theorem Settles.snapped {solution : Solution} (announced : objective.isFinite = true)
    (finite : ∀ place item value, item? place = some item → item.value? = some value →
      value.isFinite = true)
    (settled : Settles vars objective item? (.ok (some solution))) : solution.Snapped := by
  cases settled with
  | fails there bad => cases bad
  | solves sound same keys values =>
      have reported (v : Variable) (value : Float) (stored : solution.get? v = some value) :
          Reported item? v.name value := by
        obtain ⟨w, present, named⟩ := Table.exists_key_of_value? stored
        change w.name = v.name at named
        obtain ⟨other, storedToo, reported⟩ := values w (keys ▸ present)
        have equal : other = value := by
          rw [Solution.get?, named] at storedToo
          exact Option.some.inj (storedToo.symm.trans stored)
        rw [← named, ← equal]
        exact reported
      exact ⟨same ▸ announced, fun v value stored => ((reported v value stored).snapped finite).1,
        fun v value stored => ((reported v value stored).snapped finite).2⟩

end

/-! ## Positions in a list -/

section

variable {α β : Type} {f : α → Option β} {list : List α}

/-- What the elements of a list give, with their positions. -/
def located (f : α → Option β) (list : List α) : List (Nat × β) :=
  list.zipIdx.filterMap fun p => (f p.1).map fun b => (p.2, b)

theorem mem_located {p : Nat × β} : p ∈ located f list ↔ list[p.1]?.bind f = some p.2 := by
  unfold located
  rw [List.mem_filterMap, Option.bind_eq_some_iff]
  constructor
  · rintro ⟨⟨a, i⟩, present, given⟩
    obtain ⟨b, gives, rfl⟩ := Option.map_eq_some_iff.mp given
    exact ⟨a, List.mem_zipIdx_iff_getElem?.mp present, gives⟩
  · rintro ⟨a, present, gives⟩
    refine ⟨(a, p.1), List.mem_zipIdx_iff_getElem?.mpr present, ?_⟩
    rw [gives]
    rfl

theorem located_increasing : (located f list).Pairwise fun p q => p.1 < q.1 := by
  have positions : list.zipIdx.Pairwise fun p q => p.2 < q.2 := by
    rw [← List.pairwise_map (f := Prod.snd), List.zipIdx_map_snd]
    exact List.pairwise_lt_range'
  refine List.pairwise_filterMap.mpr (positions.imp fun before => ?_)
  rintro _ given _ givenToo
  obtain ⟨b, -, rfl⟩ := Option.map_eq_some_iff.mp given
  obtain ⟨c, -, rfl⟩ := Option.map_eq_some_iff.mp givenToo
  exact before

theorem map_located : (located f list).map Prod.snd = list.filterMap f := by
  unfold located
  rw [List.map_filterMap]
  conv_rhs => rw [← List.zipIdx_map_fst 0 list, List.filterMap_map]
  congr 1
  funext p
  simp only [Function.comp, Option.map_map]
  exact Option.map_id'

end

end Report

end MixedInteger
