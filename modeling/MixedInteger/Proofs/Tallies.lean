import Mathlib.Data.List.Basic
import Mathlib.Data.List.Perm.Basic
import MixedInteger.Proofs.Layout
import MixedInteger.Proofs.Numerals
import MixedInteger.Proofs.Outcomes
import MixedInteger.Proofs.Support

/-!
# Tallies and exports

A check accepts the files that an export accepts, and what it counts can be found again in
the document and in the exported text: the kinds add up to the declarations, the constraints
are the labelled lines, and the variables that it calls unmentioned are just those that the
export leaves out.
-/

namespace MixedInteger

/-! ## Counting variables -/

namespace Model

variable {R : Type}

/-- Each variable is counted under one kind. -/
theorem countOfKind_add (model : Model R) :
    model.countOfKind .continuous + model.countOfKind .integer + model.countOfKind .binary =
      model.vars.length := by
  unfold countOfKind
  induction model.vars with
  | nil => rfl
  | cons v rest ih =>
      cases kinded : v.kind <;> simp [kinded] <;> omega

variable [Zero R] [One R] [Add R] [Mul R] [Neg R] {document : Document R} {model : Model R}

/-- The exported variables are those variables of the model that have an exported name. -/
theorem mem_keys_declared_iff (compiled : document.compile = .ok model) {v : Variable} :
    v ∈ model.declared.keys ↔ v ∈ model.vars ∧ model.declared.hasName v.name = true := by
  have within {w : Variable} (present : w ∈ model.declared.keys) : w ∈ model.vars := by
    rw [Document.mem_vars_iff compiled]
    exact ((Document.mem_declared_iff compiled).mp present).1
  constructor
  · intro present
    refine ⟨within present, ?_⟩
    rw [VariableSet.hasName, VariableSet.find?_eq_some_iff.mpr ⟨present, rfl⟩]
    rfl
  · rintro ⟨present, named⟩
    obtain ⟨w, found⟩ := Option.isSome_iff_exists.mp named
    obtain ⟨member, same⟩ := VariableSet.find?_eq_some_iff.mp found
    have distinct := Document.nodup_names compiled
    rwa [← List.inj_on_of_nodup_map distinct (within member) present same]

/-- The variables of a model are exported or unmentioned. -/
theorem length_unmentioned_add_size (compiled : document.compile = .ok model) :
    model.unmentioned.length + model.declared.size = model.vars.length := by
  have distinct := Document.nodup_names compiled
  have exported : model.declared.keys.Perm
      (model.vars.filter fun v => model.declared.hasName v.name) := by
    apply (List.perm_ext_iff_of_nodup model.declared.nodup_names.of_map (distinct.of_map.filter _)).mpr
    intro v
    rw [mem_keys_declared_iff compiled, List.mem_filter]
  rw [← model.declared.length_keys, exported.length_eq, unmentioned, Nat.add_comm]
  exact (List.length_eq_length_filter_add fun v : Variable => model.declared.hasName v.name).symm

theorem mem_unmentioned_iff (compiled : document.compile = .ok model) {v : Variable} :
    v ∈ model.unmentioned ↔ document.Declares v.name v.kind ∧ v ∉ model.declared.keys := by
  rw [unmentioned, List.mem_filter, mem_keys_declared_iff compiled,
    ← Document.mem_vars_iff compiled, Bool.not_eq_true']
  constructor
  · rintro ⟨present, unnamed⟩
    refine ⟨present, ?_⟩
    rintro ⟨-, named⟩
    cases unnamed.symm.trans named
  · rintro ⟨present, absent⟩
    refine ⟨present, ?_⟩
    cases named : model.declared.hasName v.name with
    | false => rfl
    | true => exact absurd ⟨present, named⟩ absent

theorem nodup_unmentioned (compiled : document.compile = .ok model) : model.unmentioned.Nodup :=
  (Document.nodup_names compiled).of_map.filter _

theorem length_vars (compiled : document.compile = .ok model) :
    model.vars.length = document.declarations.length := by
  obtain ⟨-, kinds, -⟩ := Declaration.resolve_ok (Document.denotes_of_compile compiled).vars
  simpa using congrArg List.length kinds

end Model

/-! ## Labelled lines -/

namespace LpText

/-- The text starts with the label of a constraint, whatever its number. -/
def isLabelled (text : String) : Bool :=
  match text.toList with
  | 'c' :: rest =>
    !(rest.takeWhile Char.isDigit).isEmpty && [':', ' '].isPrefixOf (rest.dropWhile Char.isDigit)
  | _ => false

/-- The labelled lines that stand below the heading of the constraints. -/
def labelledLines (text : String) : List String :=
  (sections "subject to" text).flatten.filter isLabelled

theorem isLabelled_label (index : Nat) (text : String) :
    isLabelled (label index ++ text) = true := by
  obtain ⟨front, back⟩ := Text.digits_append index (c := ':') (by decide) (' ' :: text.toList)
  unfold isLabelled
  rw [String.toList_append, toList_label_append]
  simp only [front, back]
  simp

theorem length_labelled (index : Nat) (constraints : List (Constraint Float)) :
    (labelled index constraints).length = constraints.length := by
  induction constraints generalizing index with
  | nil => rfl
  | cons c rest ih => rw [labelled, List.length_cons, List.length_cons, ih]

theorem isLabelled_of_mem {index : Nat} {constraints : List (Constraint Float)} {member : String}
    (present : member ∈ labelled index constraints) : isLabelled member = true := by
  obtain ⟨n, c, rfl⟩ := exists_of_mem_labelled present
  exact isLabelled_label n c.text

/-- The labelled lines are those of the constraints, one for each. -/
theorem labelledLines_write (direction : Direction) (objective : Expression Float)
    (constraints : List (Constraint Float)) (declared : VariableSet) :
    labelledLines (write direction objective constraints declared) = labelled 0 constraints := by
  have found : sections "subject to" (write direction objective constraints declared) =
      [labelled 0 constraints] := by
    rw [sections, read_write]
    unfold blocks sectionBlocks
    cases direction <;> split <;> split <;> simp [Direction.keyword]
  rw [labelledLines, found, List.flatten_singleton]
  exact List.filter_eq_self.mpr fun member present => isLabelled_of_mem present

end LpText

/-! ## Reading a tally -/

namespace CommandLine

/-- The number on an indented line, if only the description stands behind it. -/
def countOn? (what : String) : List Char → Option Nat
  | ' ' :: ' ' :: rest =>
    if rest.dropWhile Char.isDigit = ' ' :: what.toList then
      some (Decimal.ofDigits (rest.takeWhile Char.isDigit))
    else none
  | _ => none

/-- The first count with a description in a text, zero if no line has one. -/
def counted (what text : String) : Nat :=
  ((Text.lines text.toList).findSome? (countOn? what)).getD 0

theorem countOn?_countLine (what other : String) (count : Nat) :
    countOn? what (countLine count other).toList = if other = what then some count else none := by
  have line : (countLine count other).toList =
      ' ' :: ' ' :: (Nat.toDigits 10 count ++ ' ' :: other.toList) := by
    simp [countLine]
  obtain ⟨front, back⟩ := Text.digits_append count (c := ' ') (by decide) other.toList
  rw [line, countOn?, front, back, Decimal.ofDigits_toDigits]
  simp [String.toList_inj]

/-- What is counted in a tally, in the order of its lines. -/
def counts (tally : Tally) : List (Nat × String) :=
  [(tally.continuous, "continuous variables"), (tally.integer, "integer variables"),
    (tally.binary, "binary variables"), (tally.constraints, "constraints")] ++
  if tally.unmentioned = 0 then []
  else [(tally.unmentioned, "variables appear in no constraint and will not be declared")]

/-- The lines of a tally below the first one, which names the file. -/
def countsText (tally : Tally) : String :=
  joinLines ((counts tally).map fun p => countLine p.1 p.2)

theorem tallyText_eq (file : String) (tally : Tally) :
    tallyText file tally = "✓ " ++ file ++ " is valid\n" ++ countsText tally := by
  have ending : " is valid\n" = " is valid" ++ "\n" := rfl
  unfold tallyText countsText counts joinLines
  split <;> simp [ending, String.append_assoc, String.join]

theorem spaced_countLine {what : String} (spaced : Text.Spaced what.toList) (count : Nat) :
    Text.Spaced (countLine count what).toList := by
  have digits : Text.Spaced (toString count).toList := by
    simpa using (Text.solid_toDigits count).spaced
  simp only [countLine, String.toList_append, Text.spaced_append]
  exact ⟨⟨⟨Text.spaced_indent, digits⟩, Text.spaced_space⟩, spaced⟩

theorem spaced_of_mem_counts {tally : Tally} {p : Nat × String} (present : p ∈ counts tally) :
    Text.Spaced p.2.toList := by
  rcases List.mem_append.mp present with always | sometimes
  · simp only [List.mem_cons, List.not_mem_nil, or_false] at always
    rcases always with rfl | rfl | rfl | rfl <;> simp [Text.Spaced, Text.isBlank]
  · split at sometimes
    · cases sometimes
    · rw [List.mem_singleton.mp sometimes]
      simp [Text.Spaced, Text.isBlank]

theorem spaced_countsText (tally : Tally) :
    ∀ line ∈ (counts tally).map fun p => countLine p.1 p.2, Text.Spaced line.toList :=
  List.forall_mem_map.mpr fun p present => spaced_countLine (spaced_of_mem_counts present) p.1

/-- A count is read off the first line with its description. -/
theorem counted_countsText (what : String) (tally : Tally) :
    counted what (countsText tally) =
      ((counts tally).findSome? fun p => if p.2 = what then some p.1 else none).getD 0 := by
  rw [counted, countsText, joinLines, Text.lines_join (spaced_countsText tally), List.findSome?_map,
    List.findSome?_map]
  simp only [Function.comp_def, countOn?_countLine]

/-- Every count of a tally is read back from its lines. -/
theorem counted_tally (tally : Tally) :
    counted "continuous variables" (countsText tally) = tally.continuous ∧
    counted "integer variables" (countsText tally) = tally.integer ∧
    counted "binary variables" (countsText tally) = tally.binary ∧
    counted "constraints" (countsText tally) = tally.constraints ∧
    counted "variables appear in no constraint and will not be declared" (countsText tally) =
      tally.unmentioned := by
  simp only [counted_countsText, counts]
  split
  case isTrue zero => simp [zero]
  case isFalse some => simp

/-! ## Checks and exports -/

variable {launcher : Launcher} {files : FileSystem} {file : String} {model : Model Float}

theorem run_check (described : Describes files file model) :
    (Command.check file).run launcher files =
      .success (tallyText file model.tally) (World.ofFiles files) := by
  rw [Command.run, Command.file, loadModel_ok_iff.mpr described]

/-- Both commands succeed just for a file that describes a model. -/
theorem check_code_eq_zero_iff :
    ((Command.check file).run launcher files).code = 0 ↔
      ((Command.exportModel file none).run launcher files).code = 0 := by
  by_cases described : ∃ model, Describes files file model
  case pos =>
    obtain ⟨model, described⟩ := described
    rw [run_check described, run_export described]
    rfl
  case neg =>
    have undescribed := not_exists.mp described
    obtain ⟨complaint, checked⟩ := run_of_undescribed launcher (.check file) undescribed
    obtain ⟨complaintToo, exported⟩ :=
      run_of_undescribed launcher (.exportModel file none) undescribed
    rw [checked, exported]
    rfl

/--
A check agrees with an export.  It succeeds just where the text of the model can be printed.
Below the line with the name of the file, the counts of the kinds add up to the number of
declarations; the count of the constraints is that of the labelled lines in the printed
model; and the count of the variables in no constraint, which is zero if there is no such
line, makes with the number of exported variables the number of declarations.  The
variables counted last are just the declared ones that are not exported.
-/
theorem check_agrees (launcher : Launcher) (files : FileSystem) (file : String) :
    let checking := (Command.check file).run launcher files
    let exporting := (Command.exportModel file none).run launcher files
    (checking.code = 0 ↔ exporting.code = 0) ∧
    ∀ document model, Holds files file document → document.compile = .ok model →
      checking.code = 0 ∧
      ∃ counts, checking.printed = "✓ " ++ file ++ " is valid\n" ++ counts ∧
        counted "continuous variables" counts + counted "integer variables" counts +
          counted "binary variables" counts = document.declarations.length ∧
        counted "constraints" counts = (LpText.labelledLines exporting.printed).length ∧
        counted "variables appear in no constraint and will not be declared" counts +
          (Constraint.declared model.constraints).size = document.declarations.length ∧
        ∃ missing : List Variable, missing.Nodup ∧
          missing.length =
            counted "variables appear in no constraint and will not be declared" counts ∧
          ∀ v : Variable, v ∈ missing ↔ document.Declares v.name v.kind ∧
            v ∉ (Constraint.declared model.constraints).keys := by
  intro checking exporting
  refine ⟨check_code_eq_zero_iff, fun document model holds compiled => ?_⟩
  have described : Describes files file model := ⟨document, holds, compiled⟩
  have code : checking.code = 0 := congrArg Outcome.code (run_check described)
  have printed : checking.printed = tallyText file model.tally :=
    congrArg Outcome.printed (run_check described)
  have exported : exporting.printed = model.lpText :=
    congrArg Outcome.printed (run_export described)
  obtain ⟨continuous, integer, binary, constraints, unmentioned⟩ := counted_tally model.tally
  refine ⟨code, countsText model.tally, printed.trans (tallyText_eq _ _), ?_, ?_, ?_,
    model.unmentioned, Model.nodup_unmentioned compiled, unmentioned.symm,
    fun v => Model.mem_unmentioned_iff compiled⟩
  · rw [continuous, integer, binary, ← Model.length_vars compiled]
    exact model.countOfKind_add
  · rw [constraints, exported, Model.lpText, LpText.labelledLines_write, LpText.length_labelled]
    rfl
  · rw [unmentioned, ← Model.length_vars compiled]
    exact Model.length_unmentioned_add_size compiled

/-- Of the three variables in the file two are exported, and one is in no constraint. -/
theorem shelf_check :
    ∃ counts, ((Command.check "m.json").run Launcher.terse shelf).printed =
        "✓ m.json is valid\n" ++ counts ∧
      counted "variables appear in no constraint and will not be declared" counts = 1 := by
  obtain ⟨-, accepted⟩ := check_agrees Launcher.terse shelf "m.json"
  obtain ⟨model, compiled⟩ : ∃ model, Document.cancelling.compile = .ok model := ⟨_, rfl⟩
  have size : (Document.cancelling.compile.toOption.map fun model =>
      (Constraint.declared model.constraints).size) = some 2 := by
    decide +kernel
  rw [compiled] at size
  have size : (Constraint.declared model.constraints).size = 2 := Option.some.inj size
  obtain ⟨-, counts, printed, -, -, unmentioned, -⟩ := accepted _ _ holds_shelf compiled
  refine ⟨counts, printed, ?_⟩
  rw [size] at unmentioned
  exact Nat.add_right_cancel (unmentioned.trans (by decide : _ = 1 + 2))

end CommandLine

end MixedInteger
