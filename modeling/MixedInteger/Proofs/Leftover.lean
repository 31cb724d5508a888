import Mathlib.Data.List.Forall2
import MixedInteger.Proofs.Agreement
import MixedInteger.Proofs.Launch

/-!
# Leftovers of earlier solves

A solve removes what stands at the paths of its model and its report before it starts
the solver.  What an earlier solve left there is therefore without influence: calls that
share a path end as each of them ends alone in a directory without the two files.
-/

namespace MixedInteger

namespace FileSystem

/-- What is in the regular file at a path, if there is one. -/
def content? (files : FileSystem) (path : String) : Option ByteArray :=
  (files.read path).toOption

end FileSystem

open FileSystem

/-- The paths at which a model and its report are exchanged. -/
def exchangePaths (path : String) : List String := [path, path ++ ".sol"]

theorem agreeBeside_report {files : FileSystem} {path : String} {place : Location}
    (free : ∀ there ∈ exchangePaths path, ∀ place, files.resolve there = .ok place →
      files.node? place ≠ some .directory)
    (leads : files.resolve (path ++ ".sol") = .ok place) {report : ByteArray} :
    AgreeBeside (exchangePaths path) (files.put place (some (.file report))) files := by
  have file : some (Node.file report) ≠ some .directory := nofun
  exact (agreeBeside_put free (List.mem_cons_of_mem _ List.mem_cons_self) leads file).symm

/-! ## Two solves -/

namespace Solver

variable {solver : Solver} {launcher : Launcher} {e : Export} {files other : FileSystem}
  {world : World}

/-- Where a path leads and no directory stands, the old file goes and the new one comes. -/
theorem clear_write_of_resolve {path : String} {place : Location}
    (leads : files.resolve path = .ok place) (free : files.node? place ≠ some .directory)
    (content : ByteArray) :
    files.clear path = .ok (files.put place none) ∧
      (files.put place none).write path content = .ok (files.put place (some (.file content))) := by
  refine ⟨clear_of_resolve leads free, ?_⟩
  have same : SameDirectories files (files.put place none) := sameDirectories_put free nofun
  rw [write_of_resolve (same.resolve_ok_iff.mp leads) (by rw [put_node?_self]; nofun), put_put]

/-- With an empty path nothing is removed, nothing is written and nothing is started. -/
theorem solve_of_path_empty (nameless : solver.settings.modelPath = "") :
    solver.solve launcher e world =
      (.error (.file .missing), world.tell (solver.exporting e)) := by
  have removed : world.files.clear solver.settings.modelPath = .ok world.files := by
    rw [nameless]
    rfl
  have failed : world.files.write solver.settings.modelPath e.text.toUTF8 = .error .missing := by
    rw [nameless]
    rfl
  exact solve_of_write_error removed failed

/-- What stood at the two paths makes no difference to a solve. -/
theorem solve_eq_of_agree (world : World) (named : solver.settings.modelPath ≠ "")
    (agree : AgreeBeside (exchangePaths solver.settings.modelPath) files other) :
    solver.solve launcher e (world.withFiles files) =
      solver.solve launcher e (world.withFiles other) := by
  by_cases leads : ∃ place, files.resolve solver.settings.modelPath = .ok place
  · obtain ⟨place, leads⟩ := leads
    have free := agree.free _ List.mem_cons_self place leads
    obtain ⟨removed, wrote⟩ := clear_write_of_resolve leads free.1 e.text.toUTF8
    obtain ⟨removedOther, wroteOther⟩ := clear_write_of_resolve
      (agree.sameDirectories.resolve_ok_iff.mp leads) free.2 e.text.toUTF8
    have ended : solver.solve launcher e (world.withFiles files) = _ := solve_of_write removed wrote
    have endedOther : solver.solve launcher e (world.withFiles other) = _ :=
      solve_of_write removedOther wroteOther
    rw [ended, endedOther]
    -- The model is the same now; only an old report can still make a difference.
    have written : AgreeBeside [solver.settings.reportPath]
        (files.put place (some (.file e.text.toUTF8)))
        (other.put place (some (.file e.text.toUTF8))) := agree.put leads nofun
    by_cases leadsReport : ∃ beside,
        (files.put place (some (.file e.text.toUTF8))).resolve solver.settings.reportPath = .ok beside
    · obtain ⟨beside, leadsReport⟩ := leadsReport
      have freeReport := written.free _ List.mem_cons_self beside leadsReport
      have alike := (written.put leadsReport (nofun : none ≠ some Node.directory)).eq_of_nowhere nofun
      rw [clear_of_resolve leadsReport freeReport.1, clear_of_resolve
        (written.sameDirectories.resolve_ok_iff.mp leadsReport) freeReport.2, alike]
      rfl
    · have alike := written.eq_of_nowhere fun path listed beside led => by
        cases List.mem_singleton.mp listed
        exact leadsReport ⟨beside, led⟩
      rw [alike]
      rfl
  · -- Then the path of the report leads nowhere either, and the two are the same.
    have same : files = other := by
      apply agree.eq_of_nowhere
      intro path listed place led
      rcases List.mem_cons.mp listed with rfl | listed
      · exact leads ⟨place, led⟩
      · cases List.mem_singleton.mp listed
        exact leads (exists_resolve_of_append named (by decide) led)
    rw [same]

/-- Started where there is no report, the solver changes nothing but the file of its report. -/
def WritesOnlyReport (solver : Solver) (launcher : Launcher) : Prop :=
  ∀ found : FileSystem, found.at? solver.settings.reportPath = none →
    AgreeBeside [solver.settings.reportPath] found
      ((launcher solver.invocation found).left found)

/-- A solve with such a solver changes nothing but the two files of the exchange. -/
theorem agreeBeside_solve (world : World) (writes : solver.WritesOnlyReport launcher)
    (free : ∀ path ∈ exchangePaths solver.settings.modelPath, ∀ place,
      world.files.resolve path = .ok place → world.files.node? place ≠ some .directory) :
    AgreeBeside (exchangePaths solver.settings.modelPath) world.files
      (solver.solve launcher e world).2.files := by
  have model : solver.settings.modelPath ∈ exchangePaths solver.settings.modelPath :=
    List.mem_cons_self
  have report : solver.settings.reportPath ∈ exchangePaths solver.settings.modelPath :=
    List.mem_cons_of_mem _ List.mem_cons_self
  rcases prepare_cases solver e world.files with ⟨error, failed, -⟩ |
    ⟨cleared, error, removed, failed, -⟩ | ⟨cleared, written, removed, wrote, ended⟩
  · rw [solve_of_clear_error failed]
    exact agreeBeside_self free
  · rw [solve_of_write_error removed failed]
    exact agreeBeside_of_clear free model removed
  · have first := agreeBeside_of_clear free model removed
    have second := first.trans (agreeBeside_of_write first.free_right model wrote)
    cases last : written.clear solver.settings.reportPath with
    | error error =>
        rw [solve_of_write removed wrote, last]
        exact second
    | ok found =>
        have ready := ended.trans last
        have third := second.trans (agreeBeside_of_clear second.free_right report last)
        have left := (writes found (freshExchange_of_prepare ready).report).mono
          (List.subset_cons_self _ _)
          third.free_right
        rw [solve_of_prepare ready, readSolution_eq, World.tellAll_files, start_files]
        exact third.trans left

/-- The result of a started solve is what is there to be read in the end. -/
theorem solve_result_of_prepare {found : FileSystem}
    (ready : solver.prepare e world.files = .ok found) :
    (solver.solve launcher e world).1 =
      (solver.reading e.declared (solver.solve launcher e world).2.files).answer := by
  rw [solve_of_prepare ready, readSolution_eq, World.tellAll_files]

theorem readText?_eq {path : String} :
    files.readText? path = (files.content? path).bind String.fromUTF8? := by
  unfold readText? content?
  cases files.read path <;> rfl

theorem answer_of_no_report {vars : VariableSet}
    (absent : files.content? solver.settings.reportPath = none) :
    (solver.reading vars files).answer = .ok none := by
  rw [reading, readText?_eq, absent]
  rfl

/-- Only the content of the report counts, and not how the program that left it ended. -/
theorem answer_congr {vars : VariableSet} (alike : files.content? solver.settings.reportPath =
    other.content? solver.settings.reportPath) :
    (solver.reading vars files).answer = (solver.reading vars other).answer := by
  rw [reading, reading, readText?_eq, readText?_eq, alike]

/-- Where both paths lead to places without a directory, a solve is prepared. -/
theorem exists_prepare
    (free : ∀ path ∈ exchangePaths solver.settings.modelPath, ∃ place,
      files.resolve path = .ok place ∧ files.node? place ≠ some .directory) :
    ∃ found, solver.prepare e files = .ok found := by
  obtain ⟨place, leads, free, beside, leadsReport, freeReport⟩ :
      ∃ place, files.resolve solver.settings.modelPath = .ok place ∧
        files.node? place ≠ some .directory ∧ ∃ beside,
        files.resolve solver.settings.reportPath = .ok beside ∧
          files.node? beside ≠ some .directory := by
    obtain ⟨place, leads, first⟩ := free _ List.mem_cons_self
    exact ⟨place, leads, first, free _ (List.mem_cons_of_mem _ List.mem_cons_self)⟩
  obtain ⟨removed, wrote⟩ := clear_write_of_resolve leads free e.text.toUTF8
  have same : SameDirectories files (files.put place (some (.file e.text.toUTF8))) :=
    sameDirectories_put free nofun
  have last := clear_of_resolve (same.resolve_ok_iff.mp leadsReport)
    fun stands => freeReport ((same.iff beside).mpr stands)
  exact ⟨_, (prepare_of_write removed wrote).trans last⟩

end Solver

/-! ## Calls one after the other -/

/-- A solve that is asked for: the solver, what its program does, and the model. -/
structure Call where
  solver : Solver
  launcher : Launcher
  task : Export

namespace Call

def path (call : Call) : String := call.solver.settings.modelPath

/-- The result of a call among some files, and the world that it leaves. -/
def outcome (call : Call) (files : FileSystem) : Except SolveError (Option Solution) × World :=
  call.solver.solve call.launcher call.task (World.ofFiles files)

/-- The outcomes of calls, each made among the files that the one before it left. -/
def run : List Call → FileSystem → List (Except SolveError (Option Solution) × World)
  | [], _ => []
  | call :: rest, files => call.outcome files :: run rest (call.outcome files).2.files

/--
Two outcomes of a call are the same: the result, the events and the files, the last unless
the path is empty.
-/
structure SameEnd (path : String) (first second : Except SolveError (Option Solution) × World) :
    Prop where
  result : first.1 = second.1
  events : first.2.events = second.2.events
  files : path ≠ "" → first.2.files = second.2.files

section

variable {call : Call} {path : String} {files other : FileSystem}

theorem sameEnd_of_agree (agree : AgreeBeside (exchangePaths call.path) files other) :
    SameEnd call.path (call.outcome files) (call.outcome other) := by
  by_cases named : call.path = ""
  · unfold outcome
    rw [Solver.solve_of_path_empty named, Solver.solve_of_path_empty named]
    exact ⟨rfl, rfl, fun nonempty => absurd named nonempty⟩
  · have same : call.outcome files = call.outcome other :=
      Solver.solve_eq_of_agree (World.ofFiles files) named agree
    rw [same]
    exact ⟨rfl, rfl, fun _ => rfl⟩

/-- By an empty path no file can be reached, and all files are left as they were. -/
theorem files_of_path_empty (nameless : call.path = "") : (call.outcome files).2.files = files := by
  unfold outcome
  rw [Solver.solve_of_path_empty nameless]
  rfl

/-- After a call nothing has changed but the two files of the exchange. -/
theorem agreeBeside_outcome (writes : call.solver.WritesOnlyReport call.launcher)
    (agree : AgreeBeside (exchangePaths call.path) files other) :
    AgreeBeside (exchangePaths call.path) (call.outcome files).2.files other := by
  have free := agree.symm.free_right
  exact (Solver.agreeBeside_solve (World.ofFiles files) writes free).symm.trans agree

/-- Every call of a run ends as it ends alone among files that agree beside the exchange. -/
theorem run_sameEnd {calls : List Call}
    (each : ∀ call ∈ calls, call.path = path ∧ call.solver.WritesOnlyReport call.launcher)
    (agree : AgreeBeside (exchangePaths path) files other) :
    List.Forall₂ (fun call ended => SameEnd path ended (call.outcome other)) calls
      (run calls files) := by
  induction calls generalizing files with
  | nil => exact .nil
  | cons call rest ih =>
      obtain ⟨⟨shared, writes⟩, later⟩ := List.forall_mem_cons.mp each
      subst shared
      exact .cons (sameEnd_of_agree agree) (ih later (agreeBeside_outcome writes agree))

theorem started_iff :
    (call.outcome files).2.attempts ≠ [] ↔
      ∃ found, call.solver.prepare call.task files = .ok found := by
  unfold outcome
  rw [Solver.solve_attempts]
  have same : (World.ofFiles files).files = files := rfl
  rw [same]
  cases call.solver.prepare call.task files with
  | error error => exact iff_of_false (fun started => started rfl) nofun
  | ok found => exact iff_of_true nofun ⟨found, rfl⟩

/-- A failed preparation is the result, whatever the program of the solver does. -/
theorem outcome_of_prepare_error {error : FileError}
    (failed : call.solver.prepare call.task files = .error error) {launcher : Launcher} :
    (outcome { call with launcher := launcher } files).1 = .error (.file error) := by
  have failed : call.solver.prepare call.task (World.ofFiles files).files = .error error := failed
  exact (Solver.solve_of_prepare_error failed).1

/-- Otherwise the result is what is there to be read in the end. -/
theorem outcome_of_prepare {found : FileSystem}
    (ready : call.solver.prepare call.task files = .ok found) {launcher : Launcher} :
    (outcome { call with launcher := launcher } files).1 =
      (call.solver.reading call.task.declared
        (outcome { call with launcher := launcher } files).2.files).answer := by
  have ready : call.solver.prepare call.task (World.ofFiles files).files = .ok found := ready
  exact Solver.solve_result_of_prepare ready

/--
What earlier solves left behind is without influence.  Among two file systems that agree
beside the two files of the exchange, each of which is a file or nothing, a call ends the
same, and with an empty path it changes no file; so does each call of a run end as it ends
alone, if the solvers of the run write their reports only.  A solver that is started and
leaves no report gives no solution, and it is started wherever the two paths lead to
places.  And only the content of the report counts for the result.
-/
theorem leftovers_without_influence {path : String} {files other : FileSystem}
    (agree : AgreeBeside (exchangePaths path) files other) :
    (∀ call : Call, call.path = path → SameEnd path (call.outcome files) (call.outcome other) ∧
      (path = "" → (call.outcome files).2.files = files)) ∧
    (∀ calls : List Call,
      (∀ call ∈ calls, call.path = path ∧ call.solver.WritesOnlyReport call.launcher) →
      List.Forall₂ (fun call ended => SameEnd path ended (call.outcome other)) calls
        (run calls files)) ∧
    (∀ call : Call, call.path = path → (call.outcome files).2.attempts ≠ [] →
      (call.outcome files).2.files.content? (path ++ ".sol") = none →
      (call.outcome files).1 = .ok none) ∧
    (∀ call : Call, call.path = path →
      (∀ there ∈ exchangePaths path, ∃ place, files.resolve there = .ok place) →
      (call.outcome files).2.attempts ≠ []) ∧
    ∀ (call : Call) (launcher : Launcher), call.path = path →
      (outcome { call with launcher := launcher } files).2.files.content? (path ++ ".sol") =
        (call.outcome files).2.files.content? (path ++ ".sol") →
      (outcome { call with launcher := launcher } files).1 = (call.outcome files).1 := by
  refine ⟨?_, ?_, ?_, ?_, ?_⟩
  · rintro call rfl
    exact ⟨sameEnd_of_agree agree, files_of_path_empty⟩
  · intro calls each
    exact run_sameEnd each agree
  · rintro call rfl started absent
    obtain ⟨found, ready⟩ := started_iff.mp started
    exact (outcome_of_prepare ready).trans (Solver.answer_of_no_report absent)
  · rintro call rfl leads
    apply started_iff.mpr
    apply Solver.exists_prepare
    intro there listed
    obtain ⟨place, led⟩ := leads there listed
    exact ⟨place, led, (agree.free there listed place led).1⟩
  · rintro call launcher rfl alike
    cases prepared : call.solver.prepare call.task files with
    | error error =>
        exact (outcome_of_prepare_error prepared).trans (outcome_of_prepare_error prepared).symm
    | ok found =>
        exact (outcome_of_prepare prepared).trans
          ((Solver.answer_congr alike).trans (outcome_of_prepare prepared).symm)

end

/-- A call of a solver that fails and leaves no report. -/
def crashing : Call :=
  ⟨.scip ⟨"m.lp", true⟩ "scip", fun _ found => .exited (.code 3) found "",
    ⟨.minimize, Expression.ofConstant 0, []⟩⟩

theorem crashing_writes : crashing.solver.WritesOnlyReport crashing.launcher := by
  intro found absent
  apply agreeBeside_self
  intro path listed place leads
  cases List.mem_singleton.mp listed
  rw [← at?_of_resolve leads, absent]
  nofun

theorem leftover_agrees : AgreeBeside (exchangePaths "m.lp") Solver.leftover (bare []) := by
  refine agreeBeside_report ?_ rfl
  intro there listed place leads
  rcases List.mem_cons.mp listed with rfl | listed
  · cases leads
    nofun
  · cases List.mem_singleton.mp listed
    cases leads
    nofun

/-- The old report of an optimal solution is not taken for one of the two crashed solves. -/
theorem crashing_without_influence :
    crashing.path = "m.lp" ∧ AgreeBeside (exchangePaths "m.lp") Solver.leftover (bare []) ∧
      (run [crashing, crashing] Solver.leftover).map (·.1) = [.ok none, .ok none] := by
  refine ⟨rfl, leftover_agrees, ?_⟩
  obtain ⟨-, each, -⟩ := leftovers_without_influence leftover_agrees
  have ended := each [crashing, crashing] (by
    intro call listed
    obtain rfl : call = crashing := by simpa using listed
    exact ⟨rfl, crashing_writes⟩)
  have alone : (crashing.outcome (bare [])).1 = .ok none := rfl
  obtain ⟨first, second, -⟩ := by simpa only [run, List.forall₂_cons] using ended
  simp only [run, List.map, first.result, second.result, alone]

/-- A call without a path, and a directory in which a report stands where it would look. -/
def nameless : Call :=
  ⟨.scip ⟨"", true⟩ "scip", fun _ _ => .failed, ⟨.minimize, Expression.ofConstant 0, []⟩⟩

def stray : FileSystem := (bare []).put [".sol"] (some (.file "infeasible\n".toUTF8))

/-- Without a path nothing is removed: two calls leave different files, and without an answer. -/
theorem nameless_leaves_stray :
    AgreeBeside (exchangePaths nameless.path) stray (bare []) ∧
      (nameless.outcome stray).2.files ≠ (nameless.outcome (bare [])).2.files ∧
      (nameless.outcome (bare [])).2.files.content? (nameless.path ++ ".sol") = none ∧
      (nameless.outcome (bare [])).1 ≠ .ok none := by
  have ended (files : FileSystem) : nameless.outcome files = _ := Solver.solve_of_path_empty rfl
  rw [ended, ended]
  refine ⟨?_, ?_, rfl, nofun⟩
  · refine agreeBeside_report ?_ rfl
    intro there listed place leads
    rcases List.mem_cons.mp listed with rfl | listed
    · cases leads
    · cases List.mem_singleton.mp listed
      cases leads
      nofun
  · intro same
    have stands : stray.node? [".sol"] ≠ none := nofun
    exact stands (congrArg (fun files : FileSystem => files.node? [".sol"]) same)

end Call

end MixedInteger
