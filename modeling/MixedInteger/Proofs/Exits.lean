import MixedInteger.Proofs.Elements
import MixedInteger.Proofs.Lines
import MixedInteger.Solver.Exchange

/-!
# Where readers end

A reader gives up at several places, and at each of them it tells what is wrong and then
answers that there is no solution.  Wherever else it ends, with a solution or with a name
that is not in the model, it tells nothing.  As a reader stops at the first place where it
gives up, one event is told if there is no solution, and none otherwise; and the event
names the first thing that is wrong with the report.
-/

namespace MixedInteger

open Report

/-- What is told along with an answer: one thing that is wrong, if there is no solution. -/
inductive Answer.Tells (fault : Rejection → Prop) : Answer → List Event → Prop where
  | rejected {why : Rejection} (wrong : fault why) : Tells fault (.ok none) [.rejected why]
  | solved (solution : Solution) : Tells fault (.ok (some solution)) []
  | unknownVariable (name : String) : Tells fault (.error (.unknownVariable name)) []

namespace Answer.Tells

variable {fault other : Rejection → Prop} {answer : Answer} {told : List Event}

theorem mono (tells : Tells fault answer told) (weaker : ∀ why, fault why → other why) :
    Tells other answer told := by
  cases tells with
  | rejected wrong => exact .rejected (weaker _ wrong)
  | solved solution => exact .solved solution
  | unknownVariable name => exact .unknownVariable name

/-- A reader has no trouble with files: a report that cannot be had is no error. -/
theorem ne_file (tells : Tells fault answer told) (error : FileError) :
    answer ≠ .error (.file error) := by
  cases tells <;> nofun

end Answer.Tells

namespace Report

/-- What a reading tells goes with its answer. -/
def Reading.Tells (fault : Rejection → Prop) (reading : Reading) : Prop :=
  Answer.Tells fault reading.answer reading.events

/-! ## Entries from their sources -/

/-- A source without a fault makes for an entry or for none; with one, the reader gives up. -/
inductive Reads (fault : Rejection → Prop) : Option Entry → Prop where
  | nothing (right : ∀ why, ¬ fault why) : Reads fault none
  | pair {name : String} {value : Float} (right : ∀ why, ¬ fault why) :
      Reads fault (some (.ok (name, value)))
  | ending {why : Rejection} (wrong : fault why) :
      Reads fault (some (.error (.tell (.rejected why) (.give (.ok none)))))

/-- The fault of the first source that has one. -/
inductive FirstFault {α : Type} (fault : α → Rejection → Prop) : List α → Rejection → Prop where
  | here {source : α} {rest : List α} {why : Rejection} (wrong : fault source why) :
      FirstFault fault (source :: rest) why
  | later {source : α} {rest : List α} {why : Rejection} (right : ∀ why, ¬ fault source why)
      (first : FirstFault fault rest why) : FirstFault fault (source :: rest) why

/-- Taking entries tells of the first fault of their sources, if that is where it ends. -/
theorem tells_fill {α : Type} {entryOf? : α → Option Entry} {fault : α → Rejection → Prop}
    {vars : VariableSet} (reads : ∀ source, Reads (fault source) (entryOf? source))
    (sources : List α) (solution : Solution) :
    (fill vars solution (sources.filterMap entryOf?)).Tells (FirstFault fault sources) := by
  induction sources generalizing solution with
  | nil => exact .solved solution
  | cons source rest ih =>
      have read := reads source
      rw [List.filterMap_cons]
      generalize entryOf? source = entry at read
      cases read with
      | nothing right => exact (ih solution).mono fun _ => .later right
      | @pair name value right =>
          dsimp only
          unfold fill
          cases vars.find? name with
          | none => exact .unknownVariable name
          | some v => exact (ih _).mono fun _ => .later right
      | ending wrong => exact .rejected (.here wrong)

/-! ## Lines -/

/-- A line has words, but the second of them is not there or is no finite number. -/
inductive ItemFault (line : List Char) : Rejection → Prop where
  | valueless {item : Item} (gives : Item.ofLine? line = some item)
      (lacking : item.value? = none) : ItemFault line (.unusableLine (String.ofList line))

/-- What is wrong with the lines of a report, where a reader of lines finds it. -/
inductive LineFault (lines : List (List Char)) : Rejection → Prop where
  | status {status : String} (first : String.ofList (Text.trimmed (lines.headD [])) = status)
      (other : status ≠ optimalStatus) : LineFault lines (.notOptimal status)
  | objective (status : String.ofList (Text.trimmed (lines.headD [])) = optimalStatus)
      (nothing : ∀ objective later, ¬ Announces lines objective later) :
      LineFault lines .noObjectiveLine
  | item {objective : Float} {later : List (List Char)} {why : Rejection}
      (announces : Announces lines objective later) (first : FirstFault ItemFault later why) :
      LineFault lines why

theorem reads_entryOfLine (line : List Char) : Reads (ItemFault line) (entryOfLine? line) := by
  rcases entryOfLine?_cases line with ⟨item, entry⟩ | ⟨name, ⟨value, item, entry⟩ | ⟨item, entry⟩⟩
  · rw [entry]
    refine .nothing fun why wrong => ?_
    cases wrong with
    | valueless gives => cases item.symm.trans gives
  · rw [entry]
    refine .pair fun why wrong => ?_
    cases wrong with
    | valueless gives lacking =>
        cases item.symm.trans gives
        cases lacking
  · rw [entry]
    exact .ending (.valueless item rfl)

theorem tells_readLines (vars : VariableSet) (lines : List (List Char)) :
    (readLines vars lines).Tells (LineFault lines) := by
  by_cases announced : ∃ objective later, Announces lines objective later
  · obtain ⟨objective, later, announces⟩ := announced
    rw [readLines_of_announces announces]
    exact (tells_fill reads_entryOfLine later _).mono fun _ => .item announces
  · have nothing : ∀ objective later, ¬ Announces lines objective later :=
      fun objective later announces => announced ⟨objective, later, announces⟩
    rcases readLines_of_unannounced nothing with ⟨other, ended⟩ | ⟨optimal, ended⟩
    · rw [ended]
      exact .rejected (.status rfl other)
    · rw [ended]
      exact .rejected (.objective optimal nothing)

/-! ## Documents -/

/-- What is wrong with a variable element. -/
inductive ElementFault (element : Xml.Node) : Rejection → Prop where
  | incomplete (lacking : element.attribute? "name" = none ∨ element.attribute? "value" = none) :
      ElementFault element .incompleteVariable
  | value {name token : String} (named : element.attribute? "name" = some name)
      (given : element.attribute? "value" = some token) (unusable : finite? token.toList = none) :
      ElementFault element (.unusableValue name token)

/-- What is wrong with the tree of a report. -/
inductive TreeFault (root : Xml.Node) : Rejection → Prop where
  | header (nothing : ∀ objective, ¬ Heads root objective) : TreeFault root .noObjective
  | element {objective : Float} {why : Rejection} (heads : Heads root objective)
      (first : FirstFault ElementFault (variableElements root) why) : TreeFault root why

/-- What is wrong with a report that should be a document. -/
inductive DocumentFault (text : String) : Rejection → Prop where
  | malformed (unparsed : Xml.parse? text = none) : DocumentFault text .malformed
  | tree {root : Xml.Node} {why : Rejection} (parsed : Xml.parse? text = some root)
      (wrong : TreeFault root why) : DocumentFault text why

theorem reads_entryOfElement (element : Xml.Node) :
    Reads (ElementFault element) (some (entryOfElement element)) := by
  rcases entryOfElement_cases element with
    ⟨name, token, named, given, ⟨value, finite, entry⟩ | ⟨unusable, entry⟩⟩ | ⟨lacking, entry⟩
  · rw [entry]
    refine .pair fun why wrong => ?_
    cases wrong with
    | incomplete lacking =>
        rw [named, given] at lacking
        exact lacking.elim nofun nofun
    | value _ givenToo unusable =>
        cases given.symm.trans givenToo
        cases finite.symm.trans unusable
  · rw [entry]
    exact .ending (.value named given unusable)
  · rw [entry]
    exact .ending (.incomplete lacking)

theorem tells_readRoot (vars : VariableSet) (root : Xml.Node) :
    (readRoot vars root).Tells (TreeFault root) := by
  by_cases headed : ∃ objective, Heads root objective
  · obtain ⟨objective, heads⟩ := headed
    rw [readRoot_of_heads heads, ← List.filterMap_eq_map']
    exact (tells_fill reads_entryOfElement _ _).mono fun _ => .element heads
  · have nothing : ∀ objective, ¬ Heads root objective := not_exists.mp headed
    rw [readRoot_of_headless nothing]
    exact .rejected (.header nothing)

/-! ## Reports of solvers -/

theorem tells_readText (vars : VariableSet) (text : String) :
    (readText vars text).Tells (LineFault (Text.lines text.toList)) :=
  tells_readLines vars _

/-- Of two lines that cannot be used only the first is told of. -/
example : (readText (VariableSet.ofList [.named .integer "x"])
    (optimalStatus ++ "\nobjective value: 1\nx 1\nx one\nx\n")).events =
      [.rejected (.unusableLine "x one")] := by
  decide +kernel

theorem tells_readXml (vars : VariableSet) (text : String) :
    (readXml vars text).Tells (DocumentFault text) := by
  unfold readXml
  cases parsed : Xml.parse? text with
  | none => exact .rejected (.malformed parsed)
  | some root => exact (tells_readRoot vars root).mono fun _ => .tree parsed

end Report

namespace Solver

/-- What is wrong with a report in the form that the solver writes. -/
def TextFault : Solver → String → Rejection → Prop
  | cplex _ => DocumentFault
  | scip _ _ => fun text => LineFault (Text.lines text.toList)

/-- What is wrong with the report that is left at its path, or with its being there. -/
inductive ReportFault (solver : Solver) (files : FileSystem) : Rejection → Prop where
  | missing (absent : files.readText? solver.settings.reportPath = none) :
      ReportFault solver files .missing
  | text {text : String} {why : Rejection}
      (there : files.readText? solver.settings.reportPath = some text)
      (wrong : solver.TextFault text why) : ReportFault solver files why

theorem tells_reading (solver : Solver) (vars : VariableSet) (files : FileSystem) :
    (solver.reading vars files).Tells (solver.ReportFault files) := by
  unfold reading
  cases there : files.readText? solver.settings.reportPath with
  | none => exact .rejected (.missing there)
  | some text =>
      have tells : (solver.readReport vars text).Tells (solver.TextFault text) := by
        cases solver with
        | cplex settings => exact tells_readXml vars text
        | scip settings executable => exact tells_readText vars text
      exact tells.mono fun _ => .text there

end Solver

end MixedInteger
