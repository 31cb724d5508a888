import MixedInteger.Proofs.Launch

/-!
# What a solve tells

A solve that cannot remove the old model tells nothing.  Any other one tells of its export
first; if the solver is started, it tells of that, of a launch that failed or of an
unsuccessful exit, and of a report that was rejected.  To the caller all rejections are the
same, so that their one event is where they differ.
-/

namespace MixedInteger

/-! ## Launches and readings -/

/-- The program was started and ended as a success. -/
def Launch.succeeded : Launch → Bool
  | .failed => false
  | .exited status _ _ => status.isSuccess

/-- The warnings about a launch: one, unless the program ended as a success. -/
inductive Launch.Warns (solver : String) : Launch → List Event → Prop where
  | failed : Warns solver .failed [.launchFailed solver]
  | abnormal {status : ExitStatus} {files : FileSystem} {printed : String}
      (unsuccessful : status.isSuccess = false) :
      Warns solver (.exited status files printed) [.exitedAbnormally solver status]
  | silent {status : ExitStatus} {files : FileSystem} {printed : String}
      (successful : status.isSuccess = true) : Warns solver (.exited status files printed) []

/-- The answer is that there is no solution. -/
def Answer.lacks : Answer → Bool
  | .ok none => true
  | _ => false

theorem Launch.Warns.map_level {solver : String} {launch : Launch} {warnings : List Event}
    (warned : launch.Warns solver warnings) :
    warnings.map Event.level = if launch.succeeded then [] else [.warn] := by
  cases warned with
  | failed => rfl
  | abnormal unsuccessful =>
      rw [succeeded, unsuccessful]
      rfl
  | silent successful =>
      rw [succeeded, successful]
      rfl

theorem Answer.Tells.map_level {fault : Report.Rejection → Prop} {answer : Answer}
    {told : List Event} (tells : Tells fault answer told) :
    told.map Event.level = if lacks answer then [.debug] else [] := by
  cases tells <;> rfl

/-! ## Steps of a solve -/

namespace World

variable {world : World}

@[simp] theorem tell_events (event : Event) : (world.tell event).events = world.events ++ [event] :=
  rfl

@[simp] theorem tellAll_events (events : List Event) :
    (world.tellAll events).events = world.events ++ events := rfl

@[simp] theorem withFiles_events (files : FileSystem) :
    (world.withFiles files).events = world.events := rfl

@[simp] theorem attempt_events (invocation : Invocation) (result : Launch) :
    (world.attempt invocation result).events = world.events := by
  cases result <;> rfl

end World

namespace Solver

variable {solver : Solver} {launcher : Launcher} {e : Export} {world : World}

theorem start_events :
    ∃ warnings, (launcher solver.invocation world.files).Warns solver.name warnings ∧
      (solver.start launcher world).events =
        world.events ++ .launching solver.name :: warnings := by
  unfold start
  dsimp only [World.tell_files]
  cases result : launcher solver.invocation world.files with
  | failed => exact ⟨_, .failed, by simp⟩
  | exited status files printed =>
      cases success : status.isSuccess with
      | false => exact ⟨_, .abnormal success, by simp [success]⟩
      | true => exact ⟨_, .silent success, by simp [success]⟩

/-! ## The whole solve -/

theorem exists_clear_of_prepare {files found : FileSystem}
    (ready : solver.prepare e files = .ok found) :
    ∃ cleared, files.clear solver.settings.modelPath = .ok cleared := by
  rcases prepare_cases solver e files with ⟨error, -, failed⟩ | ⟨cleared, _, removed, -⟩ |
    ⟨cleared, _, removed, -⟩
  · cases ready.symm.trans failed
  · exact ⟨cleared, removed⟩
  · exact ⟨cleared, removed⟩

/-- The events of a solve in order, and the answer that it comes to. -/
inductive Tells (solver : Solver) (launcher : Launcher) (e : Export) (files : FileSystem) :
    Answer → List Event → Prop where
  /-- The old model cannot be removed. -/
  | blocked {error : FileError}
      (stuck : files.clear solver.settings.modelPath = .error error) :
      Tells solver launcher e files (.error (.file error)) []
  /-- The new model cannot be written, or the old report cannot be removed. -/
  | unprepared {cleared : FileSystem} {error : FileError}
      (removed : files.clear solver.settings.modelPath = .ok cleared)
      (unready : solver.prepare e files = .error error) :
      Tells solver launcher e files (.error (.file error)) [solver.exporting e]
  | launched {found : FileSystem} {answer : Answer} {warnings rejections : List Event}
      (ready : solver.prepare e files = .ok found)
      (warned : (launcher solver.invocation found).Warns solver.name warnings)
      (read : Answer.Tells
        (solver.ReportFault ((launcher solver.invocation found).left found)) answer rejections) :
      Tells solver launcher e files answer
        ([solver.exporting e, .launching solver.name] ++ warnings ++ rejections)

theorem exists_tells : ∃ told, (solver.solve launcher e world).2.events = world.events ++ told ∧
    solver.Tells launcher e world.files (solver.solve launcher e world).1 told := by
  rcases prepare_cases solver e world.files with ⟨error, stuck, -⟩ |
    ⟨cleared, error, removed, failed, unready⟩ | ⟨cleared, written, removed, wrote, prepared⟩
  · rw [solve_of_clear_error stuck]
    exact ⟨[], (List.append_nil _).symm, .blocked stuck⟩
  · rw [solve_of_write_error removed failed]
    exact ⟨_, rfl, .unprepared removed unready⟩
  · cases last : written.clear solver.settings.reportPath with
    | error error =>
        rw [solve_of_write removed wrote, last]
        exact ⟨_, rfl, .unprepared removed (prepared.trans last)⟩
    | ok found =>
        have ready := prepared.trans last
        obtain ⟨warnings, warned, started⟩ :=
          @start_events solver launcher ((world.tell (solver.exporting e)).withFiles found)
        rw [solve_of_prepare ready, readSolution_eq, World.tellAll_events, started, start_files]
        exact ⟨_, by simp, .launched ready warned (tells_reading ..)⟩

/-- The levels of the events say which of the steps were made, and how they ended. -/
theorem Tells.map_level {answer : Answer} {told : List Event}
    (tells : solver.Tells launcher e world.files answer told) :
    told.map Event.level =
      match world.files.clear solver.settings.modelPath, solver.prepare e world.files with
      | .error _, _ => []
      | .ok _, .error _ => [if solver.settings.quiet then .debug else .info]
      | .ok _, .ok found =>
        [if solver.settings.quiet then .debug else .info, .debug] ++
          (if (launcher solver.invocation found).succeeded then [] else [.warn]) ++
          (if Answer.lacks answer then [.debug] else []) := by
  cases tells with
  | blocked stuck => rw [stuck]; rfl
  | unprepared removed unready => rw [removed, unready]; rfl
  | launched ready warned read =>
      obtain ⟨cleared, removed⟩ := exists_clear_of_prepare ready
      rw [removed, ready, List.map_append, List.map_append, warned.map_level, read.map_level]
      rfl

/--
What a solve tells, in order.  Nothing, if the old model cannot be removed; otherwise first
the export with the number of declared variables and of constraints, softly if the solver is
to be quiet.  A solve that ends for want of a file tells no more.  Any other one tells that
the solver is started, then warns if it was not or did not end as a success, and then tells
what is wrong with the report if that gives no solution.  Either reader tells one event if
its report gives no solution, the first thing that is wrong with it, and none otherwise.
-/
theorem solve_tells (solver : Solver) (launcher : Launcher) (e : Export) (world : World) :
    (∃ told, (solver.solve launcher e world).2.events = world.events ++ told ∧
      solver.Tells launcher e world.files (solver.solve launcher e world).1 told ∧
      told.map Event.level =
        match world.files.clear solver.settings.modelPath, solver.prepare e world.files with
        | .error _, _ => []
        | .ok _, .error _ => [if solver.settings.quiet then .debug else .info]
        | .ok _, .ok found =>
          [if solver.settings.quiet then .debug else .info, .debug] ++
            (if (launcher solver.invocation found).succeeded then [] else [.warn]) ++
            (if Answer.lacks (solver.solve launcher e world).1 then [.debug] else [])) ∧
    ∀ (vars : VariableSet) (text : String),
      Answer.Tells (Report.LineFault (Text.lines text.toList))
        (Report.readText vars text).answer (Report.readText vars text).events ∧
      Answer.Tells (Report.DocumentFault text)
        (Report.readXml vars text).answer (Report.readXml vars text).events := by
  constructor
  · obtain ⟨told, events, tells⟩ := @exists_tells solver launcher e world
    exact ⟨told, events, tells, tells.map_level⟩
  · intro vars text
    exact ⟨Report.tells_readText vars text, Report.tells_readXml vars text⟩

/-- A loud export, a launch that fails, and a report that is missing. -/
example : ((Solver.scip ⟨"m.lp", false⟩ "scip").solve (fun _ _ => .failed)
    ⟨.minimize, Expression.ofConstant 0, []⟩ (World.ofFiles (FileSystem.bare []))).2.events =
      [.exporting false 0 0, .launching "SCIP", .launchFailed "SCIP", .rejected .missing] := by
  decide +kernel

end Solver

end MixedInteger
