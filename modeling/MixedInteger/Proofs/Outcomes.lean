import MixedInteger.CommandLine.Outcome
import MixedInteger.Proofs.Exported
import MixedInteger.Proofs.Handout

/-!
# What the commands come to

A script sees the exit code of a command and what it prints.  Both follow from the model
that the file describes and from the answer of the solve, and from nothing else; a command
that fails prints nothing.  Printed, written to a file or handed to a solver, the text of a
model is the same.
-/

namespace MixedInteger.CommandLine

open FileSystem

/-! ## Model files -/

/-- The file holds a text that reads as the document. -/
def Holds (files : FileSystem) (file : String) (document : Document Float) : Prop :=
  ∃ content text, files.read file = .ok content ∧ String.fromUTF8? content = some text ∧
    Json.decode? text = some document

/-- The file holds a document that compiles to the model. -/
def Describes (files : FileSystem) (file : String) (model : Model Float) : Prop :=
  ∃ document, Holds files file document ∧ document.compile = .ok model

variable {launcher : Launcher} {files : FileSystem} {file : String} {model : Model Float}

theorem modelOfText_ok_iff {text : String} :
    modelOfText text = .ok model ↔
      ∃ document : Document Float, Json.decode? text = some document ∧
        document.compile = .ok model := by
  unfold modelOfText
  cases read : (Json.decode? text : Option (Document Float)) with
  | none => simp
  | some document => cases compiled : document.compile <;> simp [Except.mapError, compiled]

theorem loadModel_ok_iff : loadModel files file = .ok model ↔ Describes files file model := by
  unfold loadModel Describes Holds
  cases opened : files.read file with
  | error error => simp
  | ok content =>
      cases decoded : String.fromUTF8? content with
      | none => simp [decoded]
      | some text => simp [decoded, modelOfText_ok_iff]

theorem Describes.unique {other : Model Float} (one : Describes files file model)
    (more : Describes files file other) : model = other := by
  have loaded := loadModel_ok_iff.mpr one
  cases loaded.symm.trans (loadModel_ok_iff.mpr more)
  rfl

theorem fromUTF8?_toUTF8 (text : String) : String.fromUTF8? text.toUTF8 = some text :=
  dif_pos text.isValidUTF8

/-- A file that a document was written to holds the document. -/
theorem holds_of_encode {document : Document Float} (finite : document.IsFinite)
    (low : (Json.Form.write document).height ≤ Json.nestingLimit)
    (stored : files.read file = .ok (Json.encode document).toUTF8) :
    Holds files file document :=
  ⟨_, _, stored, fromUTF8?_toUTF8 _,
    (Document.faithful.roundTrips (by decide)).compact document finite low⟩

theorem exists_loadModel_error (undescribed : ∀ model, ¬Describes files file model) :
    ∃ error, loadModel files file = .error error := by
  cases loaded : loadModel files file with
  | error error => exact ⟨error, rfl⟩
  | ok model => exact absurd (loadModel_ok_iff.mp loaded) (undescribed model)

/-- A file that describes no model fails every command before anything is done. -/
theorem run_of_undescribed (launcher : Launcher) (command : Command)
    (undescribed : ∀ model, ¬Describes files command.file model) :
    ∃ complaint, command.run launcher files = .failure complaint (World.ofFiles files) := by
  obtain ⟨error, failed⟩ := exists_loadModel_error undescribed
  refine ⟨error.message, ?_⟩
  rw [Command.run, failed]

/-! ## Requests to solve -/

/-- The file describes a model, and the solve of this model has the answer. -/
def Answers (launcher : Launcher) (files : FileSystem) (file : String) (options : SolveOptions)
    (answer : Answer) : Prop :=
  ∃ model, Describes files file model ∧
    (options.solver.solve launcher (Export.ofModel model) (World.ofFiles files)).1 = answer

/-- The ways in which a request to solve ends. -/
inductive Ends (launcher : Launcher) (files : FileSystem) (file : String)
    (options : SolveOptions) : Outcome → Prop where
  | unusable {complaint : String} (undescribed : ∀ model, ¬Describes files file model) :
      Ends launcher files file options (.failure complaint (World.ofFiles files))
  | solved {solution : Solution} {world : World}
      (answered : Answers launcher files file options (.ok (some solution))) :
      Ends launcher files file options (.success (solutionText options.format solution) world)
  | unsolved {world : World} (answered : Answers launcher files file options (.ok none)) :
      Ends launcher files file options ⟨1, noSolutionText options.solver.name, "", world⟩
  | failed {error : SolveError} {complaint : String} {world : World}
      (answered : Answers launcher files file options (.error error)) :
      Ends launcher files file options (.failure complaint world)

variable {options : SolveOptions} {outcome : Outcome}

theorem answers_iff (described : Describes files file model) {answer : Answer} :
    Answers launcher files file options answer ↔
      (options.solver.solve launcher (Export.ofModel model) (World.ofFiles files)).1 = answer := by
  constructor
  · rintro ⟨same, describedToo, answered⟩
    rwa [described.unique describedToo]
  · exact fun answered => ⟨model, described, answered⟩

theorem Answers.unique {first second : Answer} (one : Answers launcher files file options first)
    (other : Answers launcher files file options second) : first = second := by
  obtain ⟨model, described, rfl⟩ := one
  obtain ⟨same, describedToo, rfl⟩ := other
  rw [described.unique describedToo]

theorem run_solve (described : Describes files file model) :
    (Command.solve file options).run launcher files =
      runSolve launcher model options (World.ofFiles files) := by
  rw [Command.run, Command.file, loadModel_ok_iff.mpr described]

theorem runSolve_world (world : World) :
    (runSolve launcher model options world).world =
      (options.solver.solve launcher (Export.ofModel model) world).2 := by
  unfold runSolve
  split <;> rename_i solved <;> rw [solved] <;> rfl

theorem ends_run :
    Ends launcher files file options ((Command.solve file options).run launcher files) := by
  by_cases described : ∃ model, Describes files file model
  case neg =>
    have undescribed := not_exists.mp described
    obtain ⟨complaint, failed⟩ := run_of_undescribed launcher (.solve file options) undescribed
    rw [failed]
    exact .unusable undescribed
  case pos =>
    obtain ⟨model, described⟩ := described
    rw [run_solve described, runSolve]
    split
    case h_1 solution world solved => exact .solved ⟨model, described, congrArg Prod.fst solved⟩
    case h_2 world unsolved => exact .unsolved ⟨model, described, congrArg Prod.fst unsolved⟩
    case h_3 error world failed => exact .failed ⟨model, described, congrArg Prod.fst failed⟩

theorem noSolutionText_ne_empty (solver : String) : noSolutionText solver ≠ "" := by
  intro empty
  have chars := congrArg String.toList empty
  simp [noSolutionText, joinLines] at chars

/-- The exit code is zero just for a solution. -/
theorem Ends.code_eq_zero_iff (ended : Ends launcher files file options outcome) :
    outcome.code = 0 ↔ ∃ solution, Answers launcher files file options (.ok (some solution)) := by
  cases ended with
  | unusable undescribed =>
      refine iff_of_false Nat.one_ne_zero ?_
      rintro ⟨solution, model, described, -⟩
      exact undescribed model described
  | solved answered => exact iff_of_true rfl ⟨_, answered⟩
  | unsolved answered =>
      refine iff_of_false Nat.one_ne_zero ?_
      rintro ⟨solution, other⟩
      cases answered.unique other
  | failed answered =>
      refine iff_of_false Nat.one_ne_zero ?_
      rintro ⟨solution, other⟩
      cases answered.unique other

theorem Ends.unsolved_iff (ended : Ends launcher files file options outcome) :
    outcome.code = 1 ∧ outcome.printed = noSolutionText options.solver.name ↔
      Answers launcher files file options (.ok none) := by
  have silent (text : String) : "" ≠ noSolutionText text := (noSolutionText_ne_empty text).symm
  cases ended with
  | unusable undescribed =>
      refine iff_of_false (fun both => silent _ both.2) ?_
      rintro ⟨model, described, -⟩
      exact undescribed model described
  | solved answered =>
      refine iff_of_false (fun both => Nat.zero_ne_one both.1) fun other => ?_
      cases answered.unique other
  | unsolved answered => exact iff_of_true ⟨rfl, rfl⟩ answered
  | failed answered =>
      refine iff_of_false (fun both => silent _ both.2) fun other => ?_
      cases answered.unique other

/-- Nothing is printed unless there is an answer. -/
theorem Ends.silent (ended : Ends launcher files file options outcome)
    (unanswered : ∀ answer, ¬Answers launcher files file options (.ok answer)) :
    outcome.code = 1 ∧ outcome.printed = "" := by
  cases ended with
  | unusable undescribed => exact ⟨rfl, rfl⟩
  | solved answered => exact absurd answered (unanswered _)
  | unsolved answered => exact absurd answered (unanswered _)
  | failed answered => exact ⟨rfl, rfl⟩

theorem Ends.printed_of_solved (ended : Ends launcher files file options outcome)
    {solution : Solution} (solved : Answers launcher files file options (.ok (some solution))) :
    outcome.printed = solutionText options.format solution := by
  cases ended with
  | unusable undescribed =>
      obtain ⟨model, described, -⟩ := solved
      exact absurd described (undescribed model)
  | solved answered => cases answered.unique solved; rfl
  | unsolved answered => cases answered.unique solved
  | failed answered => cases answered.unique solved

/-- No solver is started just if there is no model or the exchange cannot be prepared. -/
theorem attempts_run_eq_nil_iff :
    ((Command.solve file options).run launcher files).world.attempts = [] ↔
      (∀ model, ¬Describes files file model) ∨
        ∃ error, Answers launcher files file options (.error (.file error)) := by
  by_cases described : ∃ model, Describes files file model
  case neg =>
    have undescribed := not_exists.mp described
    obtain ⟨complaint, failed⟩ := run_of_undescribed launcher (.solve file options) undescribed
    rw [failed]
    exact iff_of_true rfl (.inl undescribed)
  case pos =>
    obtain ⟨model, described⟩ := described
    rw [run_solve described, runSolve_world, show [] = (World.ofFiles files).attempts from rfl,
      Solver.solve_attempts_eq_iff]
    simp only [answers_iff described]
    constructor
    · exact .inr
    · rintro (undescribed | failed)
      · exact absurd described (undescribed model)
      · exact failed

/-! ## Reports of solutions -/

/--
The words of a line are a name, unless it is empty, and the text of a number, which is read
back as the value.
-/
structure ShowsValue (line name : String) (value : Float) : Prop where
  words : Text.words line.toList =
    ((if name = "" then [] else [name]) ++ [numberStyle.write value]).map String.toList
  number : ∃ read, Decimal.strict? (numberStyle.write value).toList = some read ∧
    read.toFloat = value

/--
The text is the status and the objective, and below them a line for each of the names,
every name once, in increasing order and with its value.  No name breaks a line.
-/
def Reports (solution : Solution) (names : List String) (text : String) : Prop :=
  ∃ (listed : List (String × Float)) (lines : List String),
    (listed.map Prod.fst).Pairwise (· < ·) ∧
    (∀ name, name ∈ listed.map Prod.fst ↔ name ∈ names) ∧
    (∀ entry ∈ listed, solution.summary.values.value? entry.1 = some entry.2) ∧
    (∀ entry ∈ listed, ShowsValue (valueLine entry.1 entry.2) entry.1 entry.2) ∧
    lines = ["Status: OPTIMAL", "Objective: " ++ numberStyle.write solution.objective, "",
      "Variables:"] ++ listed.map (fun entry => valueLine entry.1 entry.2) ∧
    text = joinLines lines ∧ Text.lines text.toList = lines.map String.toList

/-! ### Lines of values -/

theorem words_blanks_append (count : Nat) (text : List Char) :
    Text.words (List.replicate count ' ' ++ text) = Text.words text := by
  induction count with
  | zero => rfl
  | succ count ih =>
      rw [List.replicate_succ, List.cons_append]
      exact (Text.words_append_space [] _).trans ih

theorem words_append_blanks (text : List Char) (count : Nat) :
    Text.words (text ++ List.replicate count ' ') = Text.words text := by
  induction count with
  | zero => rw [List.replicate_zero, List.append_nil]
  | succ count ih =>
      rw [List.replicate_succ', ← List.append_assoc, Text.words_append_space, ih]
      exact List.append_nil _

/-- However wide its columns are, a line holds the words of a name and of a number. -/
theorem words_valueLine (name : String) (value : Float) :
    Text.words (valueLine name value).toList =
      Text.words name.toList ++ Text.words (numberStyle.write value).toList := by
  have line : (valueLine name value).toList =
      List.replicate 2 ' ' ++ (paddedRight 20 name).toList ++
        ' ' :: (paddedLeft 12 (numberStyle.write value)).toList := by
    simp [valueLine, List.replicate_succ]
  rw [line, Text.words_append_space, words_blanks_append, paddedRight, paddedLeft,
    String.toList_append, String.toList_append, String.toList_ofList, String.toList_ofList,
    words_append_blanks, words_blanks_append]

theorem showsValue_valueLine {name : String} (solid : Text.Solid name.toList) {value : Float}
    (finite : value.isFinite = true) : ShowsValue (valueLine name value) name value := by
  obtain ⟨read, found, same⟩ := Decimal.strict?_write numberStyle finite
  refine ⟨?_, read, found, same⟩
  have written : (numberStyle.write value).toList ≠ [] := by
    intro empty
    rw [empty] at found
    cases found
  rw [words_valueLine, Text.words_of_solid (numberStyle.solid_write value) written]
  split
  case isTrue empty =>
    rw [empty]
    rfl
  case isFalse named =>
    rw [Text.words_of_solid solid fun empty => named (String.toList_eq_nil_iff.mp empty)]
    rfl

theorem spaced_blanks (count : Nat) :
    Text.Spaced (String.ofList (List.replicate count ' ')).toList := by
  rw [String.toList_ofList]
  exact fun c present => .inl (List.eq_of_mem_replicate present)

theorem spaced_valueLine {name : String} (solid : Text.Solid name.toList) (value : Float) :
    Text.Spaced (valueLine name value).toList := by
  have number := (numberStyle.solid_write value).spaced
  simp only [valueLine, paddedRight, paddedLeft, String.toList_append, Text.spaced_append]
  exact ⟨⟨⟨Text.spaced_indent, solid.spaced, spaced_blanks _⟩, Text.spaced_space⟩,
    spaced_blanks _, number⟩

theorem spaced_solutionLines (solution : Solution) :
    ∀ line ∈ solutionLines solution, Text.Spaced line.toList := by
  intro line present
  rcases List.mem_append.mp present with above | below
  · simp only [List.mem_cons, List.not_mem_nil, or_false] at above
    rcases above with rfl | rfl | rfl | rfl
    · simp [Text.Spaced, Text.isBlank]
    · rw [String.toList_append, Text.spaced_append]
      exact ⟨by simp [Text.Spaced, Text.isBlank], (numberStyle.solid_write _).spaced⟩
    · exact Text.spaced_nil
    · simp [Text.Spaced, Text.isBlank]
  · obtain ⟨entry, stored, rfl⟩ := List.mem_map.mp below
    obtain ⟨⟨v, value⟩, -, rfl⟩ := List.mem_map.mp stored
    exact spaced_valueLine v.name_unspaced value

theorem reports_solutionText {e : Export} {world : World} {solver : Solver} {solution : Solution}
    (solved : (solver.solve launcher e world).1 = .ok (some solution)) :
    Reports solution e.names (joinLines (solutionLines solution)) := by
  have keys (name : String) : name ∈ solution.summary.values.keys ↔ name ∈ e.names := by
    rw [solution.keys_summary, (Solver.solved_of_solve solved).1]
    exact VariableSet.mem_names_collect
  have listed : ∀ entry ∈ solution.byName.entries,
      solution.summary.values.value? entry.1 = some entry.2 := fun entry present =>
    congrArg (Option.map Prod.snd) (Table.pair?_of_mem present)
  refine ⟨solution.byName.entries, solutionLines solution, ?_, keys, listed, ?_, rfl, rfl, ?_⟩
  · have increasing := solution.values.names_increasing
    rw [← solution.keys_summary] at increasing
    exact increasing
  · intro entry present
    have finite := Solution.isFinite_summary (Solver.solved_of_solve solved).2
    obtain ⟨⟨v, value⟩, -, rfl⟩ := List.mem_map.mp present
    exact showsValue_valueLine v.name_unspaced (finite.2 _ _ (listed _ present))
  · exact Text.lines_join (spaced_solutionLines solution)

/-! ## Routes of an export -/

theorem run_export {output : Option String} (described : Describes files file model) :
    (Command.exportModel file output).run launcher files =
      runExport model output (World.ofFiles files) := by
  rw [Command.run, Command.file, loadModel_ok_iff.mpr described]

/-- An export succeeds just where a file may stand, and then the text stands there. -/
theorem export_cases (e : Export) (path : String) (quiet : Bool) (world : World) :
    (∃ place left, world.files.resolve path = .ok place ∧
      world.files.node? place ≠ some .directory ∧ e.run path quiet world = (.ok e.declared, left) ∧
      left.files.read path = .ok e.text.toUTF8) ∨
    (∀ place, world.files.resolve path = .ok place →
      world.files.node? place = some .directory) ∧
      ∃ error left, e.run path quiet world = (.error error, left) := by
  unfold Export.run
  cases removed : world.files.clear path with
  | error error =>
      refine .inr ⟨fun place leads => ?_, _, _, rfl⟩
      by_contra free
      cases removed.symm.trans (clear_of_resolve leads free)
  | ok cleared =>
      dsimp only [World.tell_files, World.withFiles_files]
      cases wrote : cleared.write path e.text.toUTF8 with
      | error error =>
          refine .inr ⟨fun place leads => ?_, _, _, rfl⟩
          by_contra free
          cases removed.symm.trans (clear_of_resolve leads free)
          have same : SameDirectories world.files (world.files.put place none) :=
            sameDirectories_put free nofun
          cases wrote.symm.trans (write_of_resolve (same.resolve_ok_iff.mp leads) (by simp) _)
      | ok written =>
          obtain ⟨place, leads, free, rfl⟩ := Solver.put_of_clear_of_write removed wrote
          have same : SameDirectories world.files
              (world.files.put place (some (.file e.text.toUTF8))) := sameDirectories_put free nofun
          exact .inl ⟨place, _, leads, free, rfl,
            read_of_resolve (same.resolve_ok_iff.mp leads) (put_node?_self _)⟩

/-- The exit code of an export to a path, and what it leaves there. -/
theorem runExport_path (path : String) {outcome : Outcome}
    (ran : runExport model (some path) (World.ofFiles files) = outcome) :
    (outcome.code = 0 ↔
      ∃ place, files.resolve path = .ok place ∧ files.node? place ≠ some .directory) ∧
    outcome.printed = "" ∧
    (outcome.code = 0 → outcome.world.files.read path = .ok model.lpText.toUTF8) := by
  subst ran
  dsimp only [runExport]
  rcases export_cases (Export.ofModel model) path false (World.ofFiles files) with
    ⟨place, left, leads, free, ran, stands⟩ | ⟨barred, error, left, ran⟩
  · rw [ran]
    exact ⟨iff_of_true rfl ⟨place, leads, free⟩, rfl, fun _ => stands⟩
  · rw [ran]
    refine ⟨iff_of_false Nat.one_ne_zero ?_, rfl, nofun⟩
    rintro ⟨place, leads, free⟩
    exact free (barred place leads)

/-- Whatever a solver finds at the path of the model is the text of the model. -/
theorem read_of_attempt (described : Describes files file model) {attempt : Attempt}
    (made : attempt ∈ ((Command.solve file options).run launcher files).world.attempts) :
    attempt.found.read options.solver.settings.modelPath = .ok model.lpText.toUTF8 := by
  rw [run_solve described, runSolve_world, Solver.solve_attempts] at made
  cases prepared : options.solver.prepare (Export.ofModel model) (World.ofFiles files).files with
  | error error =>
      rw [prepared] at made
      cases made
  | ok found =>
      rw [prepared] at made
      cases List.mem_singleton.mp made
      exact (Solver.freshExchange_of_prepare prepared).model

/-! ## All commands -/

/-- A directory with one model file, in which a variable cancels. -/
def shelf : FileSystem :=
  (bare []).put ["m.json"] (some (.file (Json.encode Document.cancelling).toUTF8))

theorem holds_shelf : Holds shelf "m.json" Document.cancelling := by
  apply holds_of_encode
  · have finite : Formula.IsFinite (.number (1 : Float)) := by
      rw [Formula.isFinite_number]
      decide +kernel
    simp [Document.IsFinite, Document.cancelling, Requirement.IsFinite, finite,
      -Formula.isFinite_number]
  · decide
  · rfl

/-- A request to solve with SCIP that is to be quiet and to print lines. -/
def plainly : SolveOptions := ⟨.scip, true, "scip", some "m.lp", "text"⟩

/-- What comes of it. -/
def shelved : Outcome := (Command.solve "m.json" plainly).run Launcher.terse shelf

end MixedInteger.CommandLine
