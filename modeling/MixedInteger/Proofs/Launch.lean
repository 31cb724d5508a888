import MixedInteger.Proofs.Exits
import MixedInteger.Proofs.Path

/-!
# When a solver is started

Three steps come before a launch: the old model is removed, the new one is written and
the old report is removed.  A solver is started only when all three are done, and then
once; it finds the model that was to be written, no report, and everything else as it
was.
-/

namespace MixedInteger

open FileSystem

/-- The files that are there after a launch among some files. -/
def Launch.left (found : FileSystem) : Launch → FileSystem
  | failed => found
  | exited _ files _ => files

namespace World

variable {world : World}

@[simp] theorem tell_files (event : Event) : (world.tell event).files = world.files := rfl

@[simp] theorem tell_attempts (event : Event) : (world.tell event).attempts = world.attempts := rfl

@[simp] theorem tellAll_files (events : List Event) :
    (world.tellAll events).files = world.files := rfl

@[simp] theorem tellAll_attempts (events : List Event) :
    (world.tellAll events).attempts = world.attempts := rfl

@[simp] theorem withFiles_files (files : FileSystem) : (world.withFiles files).files = files := rfl

@[simp] theorem withFiles_attempts (files : FileSystem) :
    (world.withFiles files).attempts = world.attempts := rfl

@[simp] theorem attempt_attempts (invocation : Invocation) (result : Launch) :
    (world.attempt invocation result).attempts =
      world.attempts ++ [⟨invocation, world.files, result⟩] := by
  cases result <;> rfl

end World

namespace Solver

variable {solver : Solver} {launcher : Launcher} {e : Export} {files found : FileSystem}
  {world : World}

/-- What happens to the files before a launch. -/
def prepare (solver : Solver) (e : Export) (files : FileSystem) : Except FileError FileSystem := do
  let cleared ← files.clear solver.settings.modelPath
  let written ← cleared.write solver.settings.modelPath e.text.toUTF8
  written.clear solver.settings.reportPath

/--
The model stands at its path, byte for byte; there is no report; and no other place has
changed.
-/
structure FreshExchange (solver : Solver) (e : Export) (before found : FileSystem) : Prop where
  model : found.read solver.settings.modelPath =
    .ok (LpText.write e.direction e.objective e.constraints
      (Constraint.declared e.constraints)).toUTF8
  report : found.at? solver.settings.reportPath = none
  working : found.working = before.working
  elsewhere : ∀ place, before.resolve solver.settings.modelPath ≠ .ok place →
    before.resolve solver.settings.reportPath ≠ .ok place → found.node? place = before.node? place

/-! ## Preparation -/

/-- With the model written, preparation is the removal of the old report. -/
theorem prepare_of_write {cleared written : FileSystem}
    (removed : files.clear solver.settings.modelPath = .ok cleared)
    (wrote : cleared.write solver.settings.modelPath e.text.toUTF8 = .ok written) :
    solver.prepare e files = written.clear solver.settings.reportPath := by
  simp only [prepare, bind, Except.bind, removed, wrote]

/-- Preparation ends at the first of its three steps that fails, or with the third. -/
theorem prepare_cases (solver : Solver) (e : Export) (files : FileSystem) :
    (∃ error, files.clear solver.settings.modelPath = .error error ∧
      solver.prepare e files = .error error) ∨
    (∃ cleared error, files.clear solver.settings.modelPath = .ok cleared ∧
      cleared.write solver.settings.modelPath e.text.toUTF8 = .error error ∧
      solver.prepare e files = .error error) ∨
    (∃ cleared written, files.clear solver.settings.modelPath = .ok cleared ∧
      cleared.write solver.settings.modelPath e.text.toUTF8 = .ok written ∧
      solver.prepare e files = written.clear solver.settings.reportPath) := by
  cases removed : files.clear solver.settings.modelPath with
  | error error => exact .inl ⟨error, rfl, by simp only [prepare, bind, Except.bind, removed]⟩
  | ok cleared =>
      cases wrote : cleared.write solver.settings.modelPath e.text.toUTF8 with
      | error error =>
          refine .inr (.inl ⟨cleared, error, rfl, wrote, ?_⟩)
          simp only [prepare, bind, Except.bind, removed, wrote]
      | ok written =>
          exact .inr (.inr ⟨cleared, written, rfl, wrote, prepare_of_write removed wrote⟩)

/-- What is cleared and then written to is the place that the path leads to. -/
theorem put_of_clear_of_write {path : String} {content : ByteArray} {cleared written : FileSystem}
    (removed : files.clear path = .ok cleared) (wrote : cleared.write path content = .ok written) :
    ∃ place, files.resolve path = .ok place ∧ files.node? place ≠ some .directory ∧
      written = files.put place (some (.file content)) := by
  obtain ⟨place, leads, free, rfl⟩ := write_ok_iff.mp wrote
  rcases clear_ok_iff.mp removed with ⟨there, led, freed, rfl⟩ | ⟨missing, rfl⟩
  · have same : SameDirectories files (files.put there none) := sameDirectories_put freed nofun
    cases (same.resolve_ok_iff.mpr leads).symm.trans led
    exact ⟨place, led, freed, put_put _ _⟩
  · exact ⟨place, leads, free, rfl⟩

theorem freshExchange_of_prepare (ready : solver.prepare e files = .ok found) :
    solver.FreshExchange e files found := by
  rcases prepare_cases solver e files with ⟨error, -, failed⟩ | ⟨_, error, -, -, failed⟩ |
    ⟨cleared, written, removed, wrote, last⟩
  · cases ready.symm.trans failed
  · cases ready.symm.trans failed
  obtain ⟨place, leads, free, rfl⟩ := put_of_clear_of_write removed wrote
  have same : SameDirectories files (files.put place (some (.file e.text.toUTF8))) :=
    sameDirectories_put free nofun
  have leadsStill := same.resolve_ok_iff.mp leads
  rcases clear_ok_iff.mp (last.symm.trans ready) with
    ⟨beside, leadsBeside, freeBeside, rfl⟩ | ⟨missing, rfl⟩
  · have apart : place ≠ beside :=
      resolve_append_ne (by decide) (by decide) leadsStill leadsBeside
    have sameAgain : SameDirectories _ (FileSystem.put _ beside none) :=
      sameDirectories_put freeBeside nofun
    refine ⟨read_of_resolve (sameAgain.resolve_ok_iff.mp leadsStill) ?_, ?_, rfl, ?_⟩
    · rw [put_node?_of_ne apart, put_node?_self]
      rfl
    · rw [at?_of_resolve (sameAgain.resolve_ok_iff.mp leadsBeside), put_node?_self]
    · intro other notModel notReport
      have first : other ≠ place := fun equal => notModel (equal ▸ leads)
      have second : other ≠ beside := fun equal =>
        notReport (equal ▸ same.resolve_ok_iff.mpr leadsBeside)
      rw [put_node?_of_ne second, put_node?_of_ne first]
  · refine ⟨read_of_resolve leadsStill (put_node?_self _), ?_, rfl, ?_⟩
    · rw [at?, missing]
    · intro other notModel _
      exact put_node?_of_ne fun equal => notModel (equal ▸ leads)

/-! ## Solving -/

/-- The event that tells of an export. -/
def exporting (solver : Solver) (e : Export) : Event :=
  .exporting solver.settings.quiet e.declared.size e.constraints.length

theorem solve_of_clear_error {error : FileError}
    (failed : world.files.clear solver.settings.modelPath = .error error) :
    solver.solve launcher e world = (.error (.file error), world) := by
  simp only [solve, Export.run, failed]

theorem solve_of_write_error {cleared : FileSystem} {error : FileError}
    (removed : world.files.clear solver.settings.modelPath = .ok cleared)
    (failed : cleared.write solver.settings.modelPath e.text.toUTF8 = .error error) :
    solver.solve launcher e world =
      (.error (.file error), (world.tell (solver.exporting e)).withFiles cleared) := by
  simp only [solve, Export.run, removed, World.tell_files, World.withFiles_files, failed]
  rfl

/-- Once the model is written, only the written files and the record of the export matter. -/
theorem solve_of_write {cleared written : FileSystem}
    (removed : world.files.clear solver.settings.modelPath = .ok cleared)
    (wrote : cleared.write solver.settings.modelPath e.text.toUTF8 = .ok written) :
    solver.solve launcher e world =
      match written.clear solver.settings.reportPath with
      | .error error => (.error (.file error), (world.tell (solver.exporting e)).withFiles written)
      | .ok found => solver.readSolution e.declared
          (solver.start launcher ((world.tell (solver.exporting e)).withFiles found)) := by
  simp only [solve, Export.run, removed, World.tell_files, World.withFiles_files, wrote, optimize]
  cases written.clear solver.settings.reportPath with
  | error error => rfl
  | ok found => rfl

theorem solve_of_prepare_error {error : FileError}
    (unready : solver.prepare e world.files = .error error) :
    (solver.solve launcher e world).1 = .error (.file error) ∧
      (solver.solve launcher e world).2.attempts = world.attempts := by
  rcases prepare_cases solver e world.files with ⟨early, failed, ended⟩ |
    ⟨cleared, early, removed, failed, ended⟩ | ⟨cleared, written, removed, wrote, ended⟩
  · cases unready.symm.trans ended
    rw [solve_of_clear_error failed]
    exact ⟨rfl, rfl⟩
  · cases unready.symm.trans ended
    rw [solve_of_write_error removed failed]
    exact ⟨rfl, rfl⟩
  · rw [solve_of_write removed wrote, ← ended, unready]
    exact ⟨rfl, rfl⟩

theorem solve_of_prepare (ready : solver.prepare e world.files = .ok found) :
    solver.solve launcher e world = solver.readSolution e.declared
      (solver.start launcher ((world.tell (solver.exporting e)).withFiles found)) := by
  rcases prepare_cases solver e world.files with ⟨error, -, ended⟩ | ⟨_, error, -, -, ended⟩ |
    ⟨cleared, written, removed, wrote, ended⟩
  · cases ready.symm.trans ended
  · cases ready.symm.trans ended
  · rw [solve_of_write removed wrote, ← ended, ready]

/-- The attempt to start the solver among the files that it finds. -/
def attemptAt (solver : Solver) (launcher : Launcher) (found : FileSystem) : Attempt :=
  ⟨solver.invocation, found, launcher solver.invocation found⟩

theorem start_attempts :
    (solver.start launcher world).attempts =
      world.attempts ++ [solver.attemptAt launcher world.files] := by
  unfold start
  cases result : launcher solver.invocation world.files with
  | failed => simp [attemptAt, result]
  | exited status files printed =>
      by_cases success : status.isSuccess = true <;> simp [attemptAt, result, success]

/-- What the solver does is asked for once, among the files that it finds. -/
theorem start_congr {other : Launcher}
    (agree : other solver.invocation world.files = launcher solver.invocation world.files) :
    solver.start other world = solver.start launcher world := by
  unfold start
  simp only [World.tell_files, agree]

theorem start_files :
    (solver.start launcher world).files =
      (launcher solver.invocation world.files).left world.files := by
  unfold start
  cases result : launcher solver.invocation world.files with
  | failed => simp [Launch.left, result, World.attempt]
  | exited status files printed =>
      by_cases success : status.isSuccess = true <;>
        simp [Launch.left, result, success, World.attempt]

/-- The report is read among the files that are left, and what its reader tells is told. -/
theorem readSolution_eq (vars : VariableSet) :
    solver.readSolution vars world = ((solver.reading vars world.files).answer,
      world.tellAll (solver.reading vars world.files).events) := rfl

/-- A solve that was prepared makes one attempt, any other none. -/
theorem solve_attempts :
    (solver.solve launcher e world).2.attempts = world.attempts ++
      match solver.prepare e world.files with
      | .error _ => []
      | .ok found => [solver.attemptAt launcher found] := by
  cases prepared : solver.prepare e world.files with
  | error error => rw [(solve_of_prepare_error prepared).2, List.append_nil]
  | ok found =>
      rw [solve_of_prepare prepared, readSolution_eq, World.tellAll_attempts, start_attempts]
      rfl

/-- Two solvers that do the same among the files they find make for the same solve. -/
theorem solve_congr {other : Launcher}
    (agree : ∀ found, solver.prepare e world.files = .ok found →
      other solver.invocation found = launcher solver.invocation found) :
    solver.solve other e world = solver.solve launcher e world := by
  rcases prepare_cases solver e world.files with ⟨error, failed, -⟩ |
    ⟨cleared, error, removed, failed, -⟩ | ⟨cleared, written, removed, wrote, ended⟩
  · rw [solve_of_clear_error failed, solve_of_clear_error failed]
  · rw [solve_of_write_error removed failed, solve_of_write_error removed failed]
  · rw [solve_of_write removed wrote, solve_of_write removed wrote]
    cases last : written.clear solver.settings.reportPath with
    | error error => rfl
    | ok found =>
        dsimp only
        rw [start_congr]
        exact agree found (ended.trans last)

/-- Only the preparation of a solve fails for want of a file. -/
theorem exists_prepare_of_ne_file
    (ended : ∀ error, (solver.solve launcher e world).1 ≠ .error (.file error)) :
    ∃ found, solver.prepare e world.files = .ok found := by
  cases prepared : solver.prepare e world.files with
  | error error => exact absurd (solve_of_prepare_error prepared).1 (ended error)
  | ok found => exact ⟨found, rfl⟩

/-- A solve ends for want of a file just where its preparation does. -/
theorem solve_eq_file_error_iff {error : FileError} :
    (solver.solve launcher e world).1 = .error (.file error) ↔
      solver.prepare e world.files = .error error := by
  cases prepared : solver.prepare e world.files with
  | error early =>
      rw [(solve_of_prepare_error prepared).1, Except.error.injEq, Except.error.injEq,
        SolveError.file.injEq]
  | ok found =>
      rw [solve_of_prepare prepared, readSolution_eq]
      exact iff_of_false ((tells_reading ..).ne_file error) nofun

/-- Nothing is started just in a solve that ends for want of a file. -/
theorem solve_attempts_eq_iff :
    (solver.solve launcher e world).2.attempts = world.attempts ↔
      ∃ error, (solver.solve launcher e world).1 = .error (.file error) := by
  simp only [solve_attempts, solve_eq_file_error_iff]
  cases solver.prepare e world.files with
  | error error => exact iff_of_true (List.append_nil _) ⟨error, rfl⟩
  | ok found => exact iff_of_false (by simp) nofun

/--
A solver is only started on a complete and fresh exchange.  A solve makes at most one
attempt, and the solver has a say in it only there.  At that moment the model stands at
its path, there is no report, and nothing else has changed.  If the old model or the old
report cannot be removed or the new model cannot be written, that error is the result
and nothing is started; a solve with an answer, or with a name that is not in the model,
made its one attempt.  If the old model cannot be removed, no file changes.
-/
theorem solve_launches (solver : Solver) (launcher : Launcher) (e : Export) (world : World) :
    ∃ attempts, (solver.solve launcher e world).2.attempts = world.attempts ++ attempts ∧
      attempts.length ≤ 1 ∧
      (∀ attempt ∈ attempts, attempt.invocation = solver.invocation ∧
        attempt.result = launcher attempt.invocation attempt.found ∧
        solver.FreshExchange e world.files attempt.found) ∧
      (∀ other : Launcher,
        (∀ attempt ∈ attempts, other attempt.invocation attempt.found = attempt.result) →
        solver.solve other e world = solver.solve launcher e world) ∧
      (∀ error, solver.prepare e world.files = .error error →
        (solver.solve launcher e world).1 = .error (.file error) ∧ attempts = []) ∧
      ((∃ answer, (solver.solve launcher e world).1 = .ok answer) ∨
        (∃ name, (solver.solve launcher e world).1 = .error (.unknownVariable name)) →
        attempts.length = 1) ∧
      ∀ error, world.files.clear solver.settings.modelPath = .error error →
        (solver.solve launcher e world).2.files = world.files := by
  refine ⟨_, solve_attempts, ?_, ?_, ?_, ?_, ?_, ?_⟩
  · cases solver.prepare e world.files with
    | error error => exact Nat.zero_le 1
    | ok found => exact Nat.le_refl 1
  · intro attempt present
    cases prepared : solver.prepare e world.files with
    | error error => rw [prepared] at present; cases present
    | ok found =>
        rw [prepared] at present
        cases List.mem_singleton.mp present
        exact ⟨rfl, rfl, freshExchange_of_prepare prepared⟩
  · intro other agree
    apply solve_congr
    intro found prepared
    rw [prepared] at agree
    exact agree _ List.mem_cons_self
  · intro error prepared
    rw [prepared]
    exact ⟨(solve_of_prepare_error prepared).1, rfl⟩
  · intro ended
    obtain ⟨found, prepared⟩ : ∃ found, solver.prepare e world.files = .ok found := by
      apply exists_prepare_of_ne_file
      intro error failed
      rcases ended with ⟨answer, same⟩ | ⟨name, same⟩
      · cases same.symm.trans failed
      · cases same.symm.trans failed
    rw [prepared]
    rfl
  · intro error failed
    rw [solve_of_clear_error failed]

/-- A directory where an old report was left, and one where a directory is in the way. -/
def leftover : FileSystem :=
  (bare []).put ["m.lp.sol"] (some (.file "solution status: optimal solution found\n".toUTF8))

def blocked : FileSystem := (bare []).put ["m.lp"] (some .directory)

/-- The one solve is started where there is no report; the other is not and changes nothing. -/
theorem leftover_launches :
    let solve := (Solver.scip ⟨"m.lp", true⟩ "scip").solve (fun _ _ => .failed)
      ⟨.minimize, Expression.ofConstant 0, []⟩
    (∃ attempt, (solve (World.ofFiles leftover)).2.attempts = [attempt] ∧
      attempt.found.at? "m.lp.sol" = none) ∧
    (solve (World.ofFiles blocked)).1 = .error (.file .isDirectory) ∧
    (solve (World.ofFiles blocked)).2.attempts = [] ∧
    (solve (World.ofFiles blocked)).2.files = blocked := by
  intro solve
  obtain ⟨attempts, made, -, fresh, -, -, ended, -⟩ := solve_launches
    (.scip ⟨"m.lp", true⟩ "scip") (fun _ _ => .failed) ⟨.minimize, Expression.ofConstant 0, []⟩
    (World.ofFiles leftover)
  obtain ⟨unstarted, unmade, -, -, -, failed, -, unchanged⟩ := solve_launches
    (.scip ⟨"m.lp", true⟩ "scip") (fun _ _ => .failed) ⟨.minimize, Expression.ofConstant 0, []⟩
    (World.ofFiles blocked)
  obtain ⟨attempt, rfl⟩ := List.length_eq_one_iff.mp (ended (.inl ⟨none, rfl⟩))
  obtain ⟨result, rfl⟩ := failed .isDirectory rfl
  exact ⟨⟨attempt, made, (fresh attempt List.mem_cons_self).2.2.report⟩, result, unmade,
    unchanged .isDirectory rfl⟩

end Solver

end MixedInteger
