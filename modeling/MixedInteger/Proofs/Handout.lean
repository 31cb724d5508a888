import Mathlib.Data.Finset.Card
import MixedInteger.Proofs.Elements
import MixedInteger.Proofs.Launch
import MixedInteger.Proofs.Lines
import MixedInteger.Proofs.RoundTrips

/-!
# Solutions that are handed out

Whatever a solver does, a solution that comes out of a solve has a value for each name that
a constraint mentions and for no other name.  Its numbers are finite, so that the text of
its summary holds no null and the summary is read back from it.
-/

namespace MixedInteger

/-! ## Names of tables -/

namespace Table

variable {κ α : Type} [Named κ]

/-- Each name is counted once. -/
theorem size_eq_card (table : Table κ α) {names : List String}
    (listed : ∀ name, name ∈ table.keys.map Named.name ↔ name ∈ names) :
    table.size = names.toFinset.card := by
  have same : (table.keys.map Named.name).toFinset = names.toFinset := by
    ext name
    rw [List.mem_toFinset, List.mem_toFinset, listed]
  rw [← same, List.toFinset_card_of_nodup table.nodup_names, List.length_map, length_keys]

end Table

/-- The names that the constraints of an export mention, as often as they do. -/
def Export.names (e : Export) : List String :=
  (e.constraints.flatMap Constraint.vars).map Variable.name

/-! ## Solutions -/

namespace Solution

/-- The solution has a value for each of some names, and for no other name. -/
structure Covers (solution : Solution) (names : List String) : Prop where
  present : ∀ v : Variable, v.name ∈ names →
    ∃ value, solution.index v = .ok value ∧ solution.get? v = some value
  absent : ∀ v : Variable, v.name ∉ names → solution.get? v = none
  size : solution.size = names.toFinset.card

theorem covers_of_names {solution : Solution} {names : List String}
    (listed : ∀ name, name ∈ solution.values.keys.map Named.name ↔ name ∈ names) :
    solution.Covers names := by
  refine ⟨fun v mentioned => ?_, fun v unmentioned => ?_, solution.values.size_eq_card listed⟩
  · obtain ⟨value, stored⟩ := Table.exists_value?_iff.mpr ((listed v.name).mpr mentioned)
    have found : solution.get? v = some value := stored
    exact ⟨value, by rw [index, found], found⟩
  · refine Option.eq_none_iff_forall_ne_some.mpr fun value found => unmentioned ?_
    exact (listed v.name).mp (Table.exists_value?_iff.mp ⟨value, found⟩)

/-- A value that was snapped is no negative zero. -/
theorem Snapped.ne_negZero {solution : Solution} (snapped : solution.Snapped) {v : Variable}
    {value : Float} (found : solution.get? v = some value) : value ≠ -0.0 := by
  rintro rfl
  rcases snapped.apart v _ found with zero | apart
  · have signs := congrArg (fun x : Float => x.toModel.unpack) zero
    cases signs
  · cases apart

end Solution

/-! ## Readings -/

/-- The solution that the items of a report settle is of the variables of the model. -/
theorem Report.Settles.keys_eq {ι : Type} [LinearOrder ι] {vars : VariableSet} {objective : Float}
    {item? : ι → Option Item} {solution : Solution}
    (settled : Settles vars objective item? (.ok (some solution))) :
    solution.values.keys = vars.keys := by
  cases settled with
  | fails there bad => cases bad
  | solves sound announced keys values => exact keys

theorem Report.solved_of_readText {vars : VariableSet} {text : String} {solution : Solution}
    (read : (readText vars text).answer = .ok (some solution)) :
    solution.values.keys = vars.keys ∧ solution.Snapped := by
  cases answer_readLines_iff.mp read with
  | announced announces settled =>
      exact ⟨settled.keys_eq, settled.snapped announces.isFinite
        fun position item value there valued => isFinite_of_itemAt there valued⟩

theorem Report.solved_of_readXml {vars : VariableSet} {text : String} {solution : Solution}
    (read : (readXml vars text).answer = .ok (some solution)) :
    solution.values.keys = vars.keys ∧ solution.Snapped := by
  rw [readXml] at read
  cases parsed : Xml.parse? text with
  | none =>
      rw [parsed] at read
      cases read
  | some root =>
      rw [parsed] at read
      cases answer_readRoot_iff.mp read with
      | headed heads settled =>
          exact ⟨settled.keys_eq, settled.snapped heads.isFinite
            fun place item value there valued => isFinite_of_variableAt there valued⟩

/-- Both solvers' reports are read as solutions of the exported variables, if as any. -/
theorem Solver.solved_of_reading {solver : Solver} {vars : VariableSet} {files : FileSystem}
    {solution : Solution} (read : (solver.reading vars files).answer = .ok (some solution)) :
    solution.values.keys = vars.keys ∧ solution.Snapped := by
  rw [reading] at read
  cases found : files.readText? solver.settings.reportPath with
  | none =>
      rw [found] at read
      cases read
  | some text =>
      rw [found] at read
      cases solver with
      | cplex settings => exact Report.solved_of_readXml read
      | scip settings executable => exact Report.solved_of_readText read

theorem Solver.solved_of_solve {solver : Solver} {launcher : Launcher} {e : Export} {world : World}
    {solution : Solution} (solved : (solver.solve launcher e world).1 = .ok (some solution)) :
    solution.values.keys = e.declared.keys ∧ solution.Snapped := by
  obtain ⟨found, ready⟩ := exists_prepare_of_ne_file fun error failed => by
    cases solved.symm.trans failed
  rw [solve_of_prepare ready, readSolution_eq] at solved
  exact solved_of_reading solved

/-! ## Summaries -/

namespace Json

/-- A written object holds no null if none of its values does. -/
theorem null_notMem_tokens {fields : List (String × Json)}
    (each : ∀ field ∈ fields, Token.null ∉ field.2.tokens) :
    Token.null ∉ (ofFields fields).tokens := by
  have inside (fields : List (String × Json))
      (each : ∀ field ∈ fields, Token.null ∉ field.2.tokens) :
      Token.null ∉ tokensOfMembers (fields.map fun p => (some p.1, p.2)) := by
    induction fields with
    | nil => exact List.not_mem_nil
    | cons field rest ih =>
        obtain ⟨one, more⟩ := List.forall_mem_cons.mp each
        cases rest with
        | nil => simpa [tokensOfMembers] using one
        | cons next rest =>
            have later := ih more
            simp only [List.map_cons] at later ⊢
            simp [tokensOfMembers, one, later]
  simpa [ofFields, tokens] using inside fields each

theorem null_notMem_tokens_ofFloat {x : Float} (finite : x.isFinite = true) :
    Token.null ∉ (ofFloat x).tokens := by
  rw [ofFloat_of_isFinite finite]
  simp [tokens]

end Json

namespace Summary

open Json

/-- The text holds no null, and the summary is read back from it. -/
structure ToldBy (summary : Summary) (text : String) : Prop where
  nullless : ∃ tokens, Token.scan? text.toList = some tokens ∧ Token.null ∉ tokens
  read : decode? text = some summary

variable {summary : Summary}

theorem null_notMem_tokens (finite : summary.IsFinite) :
    Token.null ∉ (Form.write summary).tokens := by
  refine Json.null_notMem_tokens
    (List.forall_mem_cons.mpr ⟨null_notMem_tokens_ofFloat finite.1, ?_⟩)
  refine List.forall_mem_singleton.mpr (Json.null_notMem_tokens ?_)
  refine List.forall_mem_map.mpr fun entry present => null_notMem_tokens_ofFloat ?_
  exact finite.2 entry.1 entry.2 (congrArg (Option.map Prod.snd) (Table.pair?_of_mem present))

theorem height_write_le (summary : Summary) : (Form.write summary).height ≤ 2 := by
  refine height_ofFields_le_iff.mpr ⟨by decide, List.forall_mem_cons.mpr ⟨?_, ?_⟩⟩
  · exact (height_ofFloat _).le.trans (Nat.zero_le _)
  · refine List.forall_mem_singleton.mpr (height_ofFields_le_iff.mpr ⟨by decide, ?_⟩)
    exact List.forall_mem_map.mpr fun entry _ => (height_ofFloat entry.2).le

/-- A summary of finite numbers is told by both of its texts. -/
theorem toldBy_texts (finite : summary.IsFinite) :
    summary.ToldBy (encode summary) ∧ summary.ToldBy (Form.write summary).writeIndented := by
  have spelled := faithful.spelled summary
  have low : (Form.write summary).height ≤ nestingLimit :=
    (height_write_le summary).trans (by decide)
  have trips := faithful.roundTrips (Nat.zero_le _)
  refine ⟨⟨⟨_, ?_, null_notMem_tokens finite⟩, trips.compact summary finite low⟩,
    ⟨⟨_, ?_, null_notMem_tokens finite⟩, trips.indented summary finite low⟩⟩
  · rw [encode, write, String.toList_ofList]
    exact scan?_of_scans (Token.scans_compact spelled [] Token.endsWord_nil)
  · rw [writeIndented, String.toList_ofList]
    exact scan?_of_scans (Token.scans_indented spelled 0 [] Token.endsWord_nil)

end Summary

/-- A summary has the names of the variables, and the same values under them. -/
theorem Solution.keys_summary (solution : Solution) :
    solution.summary.values.keys = solution.values.keys.map Named.name :=
  Table.keys_rekey solution.values Variable.name fun _ => rfl

theorem Solution.value?_summary (solution : Solution) (name : String) :
    solution.summary.values.value? name = solution.values.value? name :=
  Table.value?_rekey solution.values Variable.name (fun _ => rfl) name

theorem Solution.isFinite_summary {solution : Solution} (snapped : solution.Snapped) :
    solution.summary.IsFinite := by
  refine ⟨snapped.objective, fun name value stored => ?_⟩
  rw [value?_summary] at stored
  obtain ⟨v, present, rfl⟩ := Table.exists_key_of_value? stored
  exact snapped.finite v value stored

/--
A solution that is handed out has a value for each name in the constraints, whatever its
kinds and coefficients, and for no other name.  Its numbers are finite, and each value is
zero, not a negative one, or at least the tolerance in magnitude.  Its summary lists just
these names in increasing order with the same values, and both of its texts hold no null
and are read back as the summary.
-/
theorem Solver.handed_out_whole {solver : Solver} {launcher : Launcher} {e : Export}
    {world : World} {solution : Solution}
    (solved : (solver.solve launcher e world).1 = .ok (some solution)) :
    solution.Covers e.names ∧ solution.Snapped ∧
    (∀ v value, solution.get? v = some value → value ≠ -0.0) ∧
    solution.summary.ToldBy (Json.encode solution.summary) ∧
    solution.summary.ToldBy (Json.Form.write solution.summary).writeIndented ∧
    solution.summary.objective = solution.objective ∧
    solution.summary.values.keys.Pairwise (· < ·) ∧
    (∀ name, name ∈ solution.summary.values.keys ↔ name ∈ e.names) ∧
    ∀ v : Variable, solution.summary.values.value? v.name = solution.get? v := by
  obtain ⟨keys, snapped⟩ := solved_of_solve solved
  have listed (name : String) : name ∈ solution.values.keys.map Named.name ↔ name ∈ e.names := by
    rw [keys]
    exact VariableSet.mem_names_collect
  obtain ⟨compact, indented⟩ := Summary.toldBy_texts (Solution.isFinite_summary snapped)
  refine ⟨Solution.covers_of_names listed, snapped, fun v value => snapped.ne_negZero, compact,
    indented, rfl, ?_, fun name => ?_, fun v => solution.value?_summary v.name⟩
  · rw [solution.keys_summary]
    exact solution.values.names_increasing
  · rw [solution.keys_summary, listed]

/-- The variable of one constraint cancels, and another one is bounded. -/
def Export.cancelled : Export where
  direction := .minimize
  objective := Expression.ofConstant 0
  constraints :=
    [.between (.ofVariable (.named .integer "x")) .lessEqual (.ofVariable (.named .integer "x")),
      .between (.ofVariable (.named .binary "y")) .lessEqual (.ofConstant 1)]

/-- A solver that reports one of the two variables, with a value near zero. -/
def Launcher.terse : Launcher := fun _ found =>
  .exited (.code 0) (found.put ["m.lp.sol"] (some (.file
    "solution status: optimal solution found\nobjective value: 2.5\ny -1e-9\n".toUTF8))) ""

/-- The cancelled variable has a value under any kind, and the summary is read back. -/
theorem Solver.cancelled_handed_out :
    ∃ solution, ((Solver.scip ⟨"m.lp", true⟩ "scip").solve Launcher.terse Export.cancelled
        (World.ofFiles (FileSystem.bare []))).1 = .ok (some solution) ∧
      solution.size = 2 ∧ (∃ value, solution.index (.named .continuous "x") = .ok value) ∧
      Json.decode? (Json.encode solution.summary) = some solution.summary := by
  have read : (((Solver.scip ⟨"m.lp", true⟩ "scip").solve Launcher.terse Export.cancelled
      (World.ofFiles (FileSystem.bare []))).1.toOption.join.map fun _ => ()) = some () := by
    decide +kernel
  obtain ⟨solution, solved, -⟩ := Option.map_eq_some_iff.mp read
  have solved := Answer.eq_of_solved solved
  obtain ⟨covers, -, -, told, -⟩ := handed_out_whole solved
  have mentioned : (Variable.named .continuous "x").name ∈ Export.cancelled.names := by
    decide +kernel
  obtain ⟨value, indexed, -⟩ := covers.present _ mentioned
  refine ⟨solution, solved, covers.size.trans ?_, ⟨value, indexed⟩, told.read⟩
  decide +kernel

end MixedInteger
