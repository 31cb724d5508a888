import MixedInteger.FileSystem
import MixedInteger.Settings

/-!
# Where paths lead

A path leads to a place if every directory on its way stands.  So where it leads to
depends on the directories alone, and files can come and go.  The path of a report is
that of the model with a longer last name: the two lead to different places of one
directory.
-/

namespace MixedInteger

namespace FileSystem

variable {files other : FileSystem} {path : String} {place : Location}

theorem eq_of_node? (working : files.working = other.working)
    (nodes : ∀ place, files.node? place = other.node? place) : files = other := by
  obtain ⟨node?, start⟩ := files
  obtain ⟨otherNode?, otherStart⟩ := other
  obtain rfl : node? = otherNode? := funext nodes
  obtain rfl : start = otherStart := working
  rfl

@[simp] theorem put_node?_self (node : Option Node) : (files.put place node).node? place = node :=
  if_pos rfl

theorem put_node?_of_ne {node : Option Node} {spot : Location} (elsewhere : spot ≠ place) :
    (files.put place node).node? spot = files.node? spot :=
  if_neg elsewhere

@[simp] theorem put_put (first second : Option Node) :
    (files.put place first).put place second = files.put place second := by
  refine eq_of_node? rfl fun spot => ?_
  by_cases same : spot = place
  · rw [same, put_node?_self, put_node?_self]
  · rw [put_node?_of_ne same, put_node?_of_ne same, put_node?_of_ne same]

/-- What is absent already is removed without any change. -/
theorem put_none_of_absent (absent : files.node? place = none) : files.put place none = files := by
  refine eq_of_node? rfl fun spot => ?_
  by_cases same : spot = place
  · rw [same, put_node?_self, absent]
  · rw [put_node?_of_ne same]

/-! ## The way of a path -/

theorem walk_cons_ok_iff {start : Location} {part : String} {rest : List String} :
    files.walk start (part :: rest) = .ok place ↔
      files.node? start = some .directory ∧ part.utf8ByteSize ≤ nameLimit ∧
        files.walk (enter start part) rest = .ok place := by
  rw [walk]
  cases files.node? start with
  | none => simp
  | some node =>
      cases node with
      | file content => simp
      | directory =>
          by_cases long : nameLimit < part.utf8ByteSize
          · simp [long, Nat.not_le.mpr long]
          · simp [long, Nat.not_lt.mp long]

theorem walk_concat_ok_iff {start : Location} {parts : List String} {last : String} :
    files.walk start (parts ++ [last]) = .ok place ↔
      ∃ directory, files.walk start parts = .ok directory ∧
        files.node? directory = some .directory ∧ last.utf8ByteSize ≤ nameLimit ∧
        place = enter directory last := by
  induction parts generalizing start with
  | nil =>
      rw [List.nil_append, walk_cons_ok_iff]
      simp [walk, eq_comm]
  | cons part rest ih =>
      rw [List.cons_append, walk_cons_ok_iff, ih]
      constructor
      · rintro ⟨stands, short, directory, walked, last⟩
        exact ⟨directory, walk_cons_ok_iff.mpr ⟨stands, short, walked⟩, last⟩
      · rintro ⟨directory, walked, last⟩
        obtain ⟨stands, short, walked⟩ := walk_cons_ok_iff.mp walked
        exact ⟨stands, short, directory, walked, last⟩

/-- The directory that a path starts from. -/
def origin (working : Location) (path : String) : Location :=
  match path.toList with
  | '/' :: _ => []
  | _ => working

/-- The names along a path. -/
def names (path : String) : List String :=
  match path.toList with
  | '/' :: rest => partsOf rest
  | chars => partsOf chars

theorem resolve_ok_iff :
    files.resolve path = .ok place ↔
      '\x00' ∉ path.toList ∧ path.utf8ByteSize ≤ pathLimit ∧ path ≠ "" ∧
        files.walk (origin files.working path) (names path) = .ok place := by
  unfold resolve origin names
  by_cases null : '\x00' ∈ path.toList
  · simp [null]
  by_cases long : pathLimit < path.utf8ByteSize
  · simp [null, long, Nat.not_le.mpr long]
  rw [if_neg (by simpa using null), if_neg long]
  have named : path = "" ↔ path.toList = [] := String.toList_eq_nil_iff.symm
  simp only [null, Nat.not_lt.mp long, not_false_eq_true, true_and, ne_eq, named]
  split
  · simp_all
  · simp_all
  · simp_all

/-! ## Directories -/

/-- The same directories stand in two file systems, whatever files there are. -/
structure SameDirectories (files other : FileSystem) : Prop where
  working : files.working = other.working
  iff : ∀ place, files.node? place = some .directory ↔ other.node? place = some .directory

theorem SameDirectories.walk_ok_iff (same : SameDirectories files other) {start : Location}
    {parts : List String} :
    files.walk start parts = .ok place ↔ other.walk start parts = .ok place := by
  induction parts generalizing start with
  | nil => rfl
  | cons part rest ih => rw [walk_cons_ok_iff, walk_cons_ok_iff, same.iff, ih]

/-- Where a path leads to depends on the directories alone. -/
theorem SameDirectories.resolve_ok_iff (same : SameDirectories files other) :
    files.resolve path = .ok place ↔ other.resolve path = .ok place := by
  rw [FileSystem.resolve_ok_iff, FileSystem.resolve_ok_iff, same.working, same.walk_ok_iff]

/-- Files come and go without a directory changing. -/
theorem sameDirectories_put {node : Option Node} (free : files.node? place ≠ some .directory)
    (file : node ≠ some .directory) : SameDirectories files (files.put place node) := by
  refine ⟨rfl, fun spot => ?_⟩
  by_cases same : spot = place
  · rw [same, put_node?_self]
    exact iff_of_false free file
  · rw [put_node?_of_ne same]

/-! ## Operations -/

theorem clear_of_resolve (leads : files.resolve path = .ok place)
    (free : files.node? place ≠ some .directory) : files.clear path = .ok (files.put place none) := by
  cases stands : files.node? place with
  | none => simp [clear, remove, leads, stands, put_none_of_absent stands]
  | some node =>
      cases node with
      | file content => simp [clear, remove, leads, stands]
      | directory => exact absurd stands free

theorem clear_ok_iff {cleared : FileSystem} :
    files.clear path = .ok cleared ↔
      (∃ place, files.resolve path = .ok place ∧ files.node? place ≠ some .directory ∧
        cleared = files.put place none) ∨
      (files.resolve path = .error .missing ∧ cleared = files) := by
  cases leads : files.resolve path with
  | error error => cases error <;> simp [clear, remove, leads, eq_comm]
  | ok place =>
      by_cases stands : files.node? place = some .directory
      · simp [clear, remove, leads, stands]
      · simp [clear_of_resolve leads stands, stands, eq_comm (a := cleared)]

theorem write_of_resolve (leads : files.resolve path = .ok place)
    (free : files.node? place ≠ some .directory) (content : ByteArray) :
    files.write path content = .ok (files.put place (some (.file content))) := by
  cases stands : files.node? place with
  | none => simp [write, leads, stands]
  | some node =>
      cases node with
      | file old => simp [write, leads, stands]
      | directory => exact absurd stands free

theorem write_ok_iff {content : ByteArray} {written : FileSystem} :
    files.write path content = .ok written ↔
      ∃ place, files.resolve path = .ok place ∧ files.node? place ≠ some .directory ∧
        written = files.put place (some (.file content)) := by
  cases leads : files.resolve path with
  | error error => simp [write, leads]
  | ok place =>
      by_cases stands : files.node? place = some .directory
      · simp [write, leads, stands]
      · simp [write_of_resolve leads stands, stands, eq_comm (a := written)]

theorem read_of_resolve {content : ByteArray} (leads : files.resolve path = .ok place)
    (stands : files.node? place = some (.file content)) : files.read path = .ok content := by
  simp [read, leads, stands]

theorem at?_of_resolve (leads : files.resolve path = .ok place) :
    files.at? path = files.node? place := by
  simp [at?, leads]

/-! ## Paths with a longer last name -/

/-- What is put behind a text without a separator in it makes the last piece longer. -/
theorem splitOnP_append {p : Char → Bool} {more : List Char} (whole : ∀ c ∈ more, p c = false)
    (chars : List Char) :
    ∃ before last, chars.splitOnP p = before ++ [last] ∧
      (chars ++ more).splitOnP p = before ++ [last ++ more] := by
  induction chars with
  | nil => exact ⟨[], [], rfl, List.splitOnP_eq_singleton whole⟩
  | cons c rest ih =>
      obtain ⟨before, last, pieces, longer⟩ := ih
      rw [List.cons_append, List.splitOnP_cons_eq_if_modifyHead,
        List.splitOnP_cons_eq_if_modifyHead, pieces, longer]
      by_cases separates : p c = true
      · rw [if_pos separates, if_pos separates]
        exact ⟨[] :: before, last, rfl, rfl⟩
      · rw [if_neg separates, if_neg separates]
        cases before with
        | nil => exact ⟨[], c :: last, rfl, rfl⟩
        | cons first others => exact ⟨(c :: first) :: others, last, rfl, rfl⟩

theorem partsOf_append {more : List Char} (whole : '/' ∉ more) (chars : List Char) :
    ∃ before last, partsOf chars = before ++ [last] ∧
      partsOf (chars ++ more) = before ++ [last ++ String.ofList more] := by
  have clear : ∀ c ∈ more, (c == '/') = false := fun c present =>
    beq_eq_false_iff_ne.mpr fun slash => whole (slash ▸ present)
  obtain ⟨before, last, pieces, longer⟩ := splitOnP_append clear chars
  refine ⟨before.map String.ofList, String.ofList last, ?_, ?_⟩
  · rw [partsOf, pieces, List.map_append, List.map_singleton]
  · rw [partsOf, longer, List.map_append, List.map_singleton, String.ofList_append]

/-- A path and the same path with a longer last name go the same way up to that name. -/
theorem names_append {path more : String} (named : path ≠ "") (whole : '/' ∉ more.toList) :
    (∃ before last, names path = before ++ [last] ∧
      names (path ++ more) = before ++ [last ++ more]) ∧
    ∀ working, origin working (path ++ more) = origin working path := by
  have nonempty : path.toList ≠ [] := fun empty => named (String.toList_eq_nil_iff.mp empty)
  unfold names origin
  rw [String.toList_append]
  match chars : path.toList, nonempty with
  | c :: rest, _ =>
      by_cases slash : c = '/'
      · subst slash
        refine ⟨?_, fun _ => rfl⟩
        simpa using partsOf_append whole rest
      · have parts := partsOf_append whole (c :: rest)
        rw [String.ofList_toList] at parts
        simp only [List.cons_append] at parts ⊢
        constructor
        · split
          · simp_all
          · split
            · simp_all
            · exact parts
        · intro working
          split <;> split <;> simp_all

/-- With a longer last name a path leads somewhere only if it did before. -/
theorem exists_resolve_of_append {more : String} (named : path ≠ "") (whole : '/' ∉ more.toList)
    (leads : files.resolve (path ++ more) = .ok place) :
    ∃ shorter, files.resolve path = .ok shorter := by
  obtain ⟨⟨before, last, parts, longer⟩, start⟩ := names_append named whole
  obtain ⟨null, short, -, walked⟩ := resolve_ok_iff.mp leads
  rw [longer, start, walk_concat_ok_iff] at walked
  obtain ⟨directory, walked, stands, fits, -⟩ := walked
  rw [String.toList_append, List.mem_append, not_or] at null
  rw [String.utf8ByteSize_append] at short fits
  refine ⟨enter directory last, resolve_ok_iff.mpr ⟨null.1, by omega, named, ?_⟩⟩
  rw [parts, walk_concat_ok_iff]
  exact ⟨directory, walked, stands, by omega, rfl⟩

/-- A name of three characters or more names a place of the directory. -/
theorem enter_of_length {part : String} (long : 3 ≤ part.length) (directory : Location) :
    enter directory part = part :: directory := by
  have notEmpty : part ≠ "" := by rintro rfl; exact absurd long (by decide)
  have notHere : part ≠ "." := by rintro rfl; exact absurd long (by decide)
  have notUp : part ≠ ".." := by rintro rfl; exact absurd long (by decide)
  simp [enter, notEmpty, notHere, notUp]

/-- With a longer last name a path leads to another place. -/
theorem resolve_append_ne {more : String} (long : 3 ≤ more.length) (whole : '/' ∉ more.toList)
    {first second : Location} (leads : files.resolve path = .ok first)
    (leadsLonger : files.resolve (path ++ more) = .ok second) : first ≠ second := by
  obtain ⟨-, -, named, walked⟩ := resolve_ok_iff.mp leads
  obtain ⟨-, -, -, walkedLonger⟩ := resolve_ok_iff.mp leadsLonger
  obtain ⟨⟨before, last, parts, longer⟩, start⟩ := names_append named whole
  rw [parts, walk_concat_ok_iff] at walked
  rw [longer, start, walk_concat_ok_iff] at walkedLonger
  obtain ⟨directory, walked, -, -, rfl⟩ := walked
  obtain ⟨sameDirectory, walkedLonger, -, -, rfl⟩ := walkedLonger
  cases walked.symm.trans walkedLonger
  have lengths : (last ++ more).length = last.length + more.length := String.length_append last more
  have far : 3 ≤ (last ++ more).length := by omega
  rw [enter_of_length far]
  -- The shorter name may lead to the directory itself or out of it, but to no longer name.
  unfold enter
  split
  · exact (List.cons_ne_self _ _).symm
  · split
    · intro same
      have shorter := congrArg List.length same
      rw [List.length_tail, List.length_cons] at shorter
      omega
    · intro same
      have equal := congrArg String.length (List.head_eq_of_cons_eq same)
      omega

end FileSystem

end MixedInteger
