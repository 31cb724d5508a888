import Mathlib.Data.Nat.Basic
import MixedInteger.Proofs.Endings
import MixedInteger.Proofs.Entries
import MixedInteger.Report.Lines

/-!
# Reports in lines

The two leading lines of a report announce a solution and the value of its objective, and
every later line with words is an item: its first word is the name, and the second is the
value if it is a finite number.  Only words count, so that neither the endings of the
lines nor blank lines among the items make a difference.
-/

namespace MixedInteger.Report

/-- The item that the words of a line are, if there are any. -/
def Item.ofWords? : List (List Char) → Option Item
  | [] => none
  | name :: rest => some ⟨some (String.ofList name), rest.head?.bind finite?⟩

/-- The item of a line: its first word, and its second if that is a finite number. -/
def Item.ofLine? (line : List Char) : Option Item :=
  ofWords? (Text.words line)

/-- The item in the line at a position. -/
def itemAt? (later : List (List Char)) (position : Nat) : Option Item :=
  later[position]?.bind Item.ofLine?

/--
The first line is, blanks around it aside, that of a solved model, and the second ends
with the value of the objective; the items are in the lines after them.
-/
inductive Announces : List (List Char) → Float → List (List Char) → Prop where
  | leading {first second token : List Char} {objective : Float} {later : List (List Char)}
      (status : String.ofList (Text.trimmed first) = optimalStatus)
      (last : (Text.words second).getLast? = some token)
      (finite : finite? token = some objective) :
      Announces (first :: second :: later) objective later

/-- What the lines of a report come to. -/
inductive LinesGive (vars : VariableSet) (lines : List (List Char)) : Answer → Prop where
  | unannounced (nothing : ∀ objective later, ¬ Announces lines objective later) :
      LinesGive vars lines (.ok none)
  | announced {objective : Float} {later : List (List Char)} {answer : Answer}
      (announces : Announces lines objective later)
      (settled : Settles vars objective (itemAt? later) answer) : LinesGive vars lines answer

/--
Two lists of lines say the same: their first lines up to blanks around them, their second
lines by their words, and the lines after them that have words by these words.
-/
structure SameWords (lines other : List (List Char)) : Prop where
  status : lines[0]?.map Text.trimmed = other[0]?.map Text.trimmed
  objective : lines[1]?.map Text.words = other[1]?.map Text.words
  items : ((lines.drop 2).map Text.words).filter (fun words => !words.isEmpty) =
    ((other.drop 2).map Text.words).filter (fun words => !words.isEmpty)

variable {vars : VariableSet} {lines later other : List (List Char)} {objective : Float}

/-! ## The leading lines -/

theorem readLines_of_announces (announces : Announces lines objective later) :
    readLines vars lines = ofEntries vars objective (later.filterMap entryOfLine?) := by
  cases announces with
  | @leading first second token _ _ status last finite =>
      have read : objectiveOfLines? (second :: later) = some objective := by
        change (Text.words second).getLast?.bind finite? = some objective
        rw [last]
        exact finite
      have optimal : (String.ofList (Text.trimmed first) != optimalStatus) = false := by
        rw [status]
        exact bne_self_eq_false _
      unfold readLines
      dsimp only [List.headD_cons, List.tail_cons]
      rw [optimal, read]
      rfl

theorem exists_announces (status : String.ofList (Text.trimmed (lines.headD [])) = optimalStatus)
    (read : objectiveOfLines? lines.tail = some objective) :
    ∃ later, Announces lines objective later := by
  match lines with
  | [] => cases read
  | [first] => cases read
  | first :: second :: later =>
      obtain ⟨token, last, finite⟩ : ∃ token, (Text.words second).getLast? = some token ∧
        finite? token = some objective := Option.bind_eq_some_iff.mp read
      exact ⟨later, .leading status last finite⟩

/-- Without an announcement the reader gives up at the first line or at the second. -/
theorem readLines_of_unannounced (nothing : ∀ objective later, ¬ Announces lines objective later) :
    let status := String.ofList (Text.trimmed (lines.headD []))
    (status ≠ optimalStatus ∧
      readLines vars lines = .tell (.rejected (.notOptimal status)) (.give (.ok none))) ∨
    (status = optimalStatus ∧
      readLines vars lines = .tell (.rejected .noObjectiveLine) (.give (.ok none))) := by
  intro status
  by_cases optimal : status = optimalStatus
  case neg => exact .inl ⟨optimal, if_pos (bne_iff_ne.mpr optimal)⟩
  case pos =>
    refine .inr ⟨optimal, (if_neg fun other => bne_iff_ne.mp other optimal).trans ?_⟩
    cases read : objectiveOfLines? lines.tail with
    | none => rfl
    | some objective =>
        obtain ⟨later, announces⟩ := exists_announces optimal read
        exact absurd announces (nothing objective later)

theorem answer_of_unannounced (nothing : ∀ objective later, ¬ Announces lines objective later) :
    (readLines vars lines).answer = .ok none := by
  rcases readLines_of_unannounced nothing with ⟨-, ended⟩ | ⟨-, ended⟩
  · rw [ended]
    rfl
  · rw [ended]
    rfl

/-! ## The later lines -/

/-- A line without words is passed over, one with an item is read as a pair or ends the reading. -/
theorem entryOfLine?_cases (line : List Char) :
    (Item.ofLine? line = none ∧ entryOfLine? line = none) ∨
    ∃ name : String,
      (∃ value, Item.ofLine? line = some ⟨some name, some value⟩ ∧
        entryOfLine? line = some (.ok (name, value))) ∨
      (Item.ofLine? line = some ⟨some name, none⟩ ∧
        entryOfLine? line = some (.error
          (.tell (.rejected (.unusableLine (String.ofList line))) (.give (.ok none))))) := by
  unfold Item.ofLine? entryOfLine?
  match Text.words line with
  | [] => exact .inl ⟨rfl, rfl⟩
  | name :: rest =>
      refine .inr ⟨String.ofList name, ?_⟩
      dsimp only [Item.ofWords?]
      cases rest.head?.bind finite? with
      | none => exact .inr ⟨rfl, rfl⟩
      | some value => exact .inl ⟨value, rfl, rfl⟩

/-- The entries of lines are read from their items. -/
theorem readAs_entries : List.Forall₂ (fun (item : Item) entry => item.ReadAs entry)
    (later.filterMap Item.ofLine?) (later.filterMap entryOfLine?) := by
  induction later with
  | nil => exact .nil
  | cons line rest ih =>
      rw [List.filterMap_cons, List.filterMap_cons]
      rcases entryOfLine?_cases line with
        ⟨item, entry⟩ | ⟨name, ⟨value, item, entry⟩ | ⟨item, entry⟩⟩
      · rw [item, entry]
        exact ih
      · rw [item, entry]
        exact .cons (.pair rfl rfl) ih
      · rw [item, entry]
        exact .cons (.unusable (.inr rfl) rfl) ih

/-- The items are in the lines at their positions. -/
theorem lists_itemAt : Lists (itemAt? later) (located Item.ofLine? later) :=
  ⟨located_increasing, fun _ => mem_located⟩

/-- Other lines with the same items have entries that are read from these. -/
theorem readAs_located (same : later.filterMap Item.ofLine? = other.filterMap Item.ofLine?) :
    List.Forall₂ (fun p entry => p.2.ReadAs entry) (located Item.ofLine? later)
      (other.filterMap entryOfLine?) := by
  have read : List.Forall₂ (fun (item : Item) entry => item.ReadAs entry)
      ((located Item.ofLine? later).map Prod.snd) (other.filterMap entryOfLine?) := by
    rw [map_located, same]
    exact readAs_entries
  exact List.forall₂_map_left_iff.mp read

theorem isFinite_of_itemAt {position : Nat} {item : Item} {value : Float}
    (there : itemAt? later position = some item) (valued : item.value? = some value) :
    value.isFinite = true := by
  obtain ⟨line, -, gives⟩ := Option.bind_eq_some_iff.mp there
  unfold Item.ofLine? at gives
  match Text.words line, gives with
  | name :: rest, gives =>
      cases gives
      obtain ⟨token, -, finite⟩ := Option.bind_eq_some_iff.mp valued
      exact isFinite_of_finite? finite

/-! ## The whole report -/

theorem Announces.unique {first second : Float} {one another : List (List Char)}
    (announces : Announces lines first one) (announcesToo : Announces lines second another) :
    first = second ∧ one = another := by
  cases announces with
  | leading status last finite =>
      cases announcesToo with
      | leading statusToo lastToo finiteToo =>
          cases last.symm.trans lastToo
          cases finite.symm.trans finiteToo
          exact ⟨rfl, rfl⟩

theorem Announces.isFinite (announces : Announces lines objective later) :
    objective.isFinite = true := by
  cases announces with
  | leading status last finite => exact isFinite_of_finite? finite

/-- The reader gives the answer that the lines come to. -/
theorem answer_readLines_iff {answer : Answer} :
    (readLines vars lines).answer = answer ↔ LinesGive vars lines answer := by
  by_cases announced : ∃ objective later, Announces lines objective later
  · obtain ⟨objective, later, announces⟩ := announced
    rw [readLines_of_announces announces,
      answer_ofEntries_iff lists_itemAt (readAs_located rfl)]
    constructor
    · exact .announced announces
    · intro gives
      cases gives with
      | unannounced nothing => exact absurd announces (nothing _ _)
      | announced announcesToo settled =>
          obtain ⟨rfl, rfl⟩ := announces.unique announcesToo
          exact settled
  · have nothing : ∀ objective later, ¬ Announces lines objective later :=
      fun objective later announces => announced ⟨objective, later, announces⟩
    rw [answer_of_unannounced nothing]
    constructor
    · rintro rfl
      exact .unannounced nothing
    · intro gives
      cases gives with
      | unannounced => rfl
      | announced announces => exact absurd announces (nothing _ _)

namespace SameWords

theorem symm (same : SameWords lines other) : SameWords other lines :=
  ⟨same.status.symm, same.objective.symm, same.items.symm⟩

/-- Lines that say the same have the same items. -/
theorem filterMap_ofLine {second : List (List Char)}
    (items : (later.map Text.words).filter (fun words => !words.isEmpty) =
      (second.map Text.words).filter (fun words => !words.isEmpty)) :
    later.filterMap Item.ofLine? = second.filterMap Item.ofLine? := by
  have wordless (lines : List (List Char)) : lines.filterMap Item.ofLine? =
      ((lines.map Text.words).filter fun words => !words.isEmpty).filterMap Item.ofWords? := by
    rw [List.filterMap_filter, List.filterMap_map]
    congr 1
    funext line
    change Item.ofWords? (Text.words line) =
      if (!(Text.words line).isEmpty) = true then Item.ofWords? (Text.words line) else none
    cases Text.words line <;> rfl
  rw [wordless, wordless, items]

theorem announces (same : SameWords lines other) (announces : Announces lines objective later) :
    ∃ second, Announces other objective second ∧
      later.filterMap Item.ofLine? = second.filterMap Item.ofLine? := by
  cases announces with
  | leading status last finite =>
      match other, same with
      | [], same => cases same.status
      | [_], same => cases same.objective
      | first :: second :: others, same =>
          have trimmed := Option.some.inj same.status
          have words := Option.some.inj same.objective
          refine ⟨others, .leading ?_ ?_ finite, filterMap_ofLine same.items⟩
          · rw [← status]
            exact congrArg String.ofList trimmed.symm
          · rw [← last]
            exact congrArg List.getLast? words.symm

/-- Lines that say the same give the same answer. -/
theorem answer_eq (same : SameWords lines other) :
    (readLines vars lines).answer = (readLines vars other).answer := by
  by_cases announced : ∃ objective later, Announces lines objective later
  · obtain ⟨objective, later, announces⟩ := announced
    obtain ⟨second, announcesToo, items⟩ := same.announces announces
    rw [readLines_of_announces announces, readLines_of_announces announcesToo,
      answer_ofEntries_iff lists_itemAt (readAs_located rfl),
      ← answer_ofEntries_iff lists_itemAt (readAs_located items)]
  · have nothing : ∀ objective later, ¬ Announces lines objective later :=
      fun objective later announces => announced ⟨objective, later, announces⟩
    have nothingToo : ∀ objective later, ¬ Announces other objective later := by
      intro objective later announces
      obtain ⟨second, announcesToo, -⟩ := same.symm.announces announces
      exact nothing objective second announcesToo
    rw [answer_of_unannounced nothing, answer_of_unannounced nothingToo]

/-- Carriage returns before line feeds make no difference to what lines say. -/
theorem unreturned (text : List Char) :
    SameWords (Text.lines (Text.unreturned text)) (Text.lines text) := by
  have trimmed := Text.map_lines_unreturned (Text.trimmed_concat (c := '\r') rfl) text
  have words := Text.map_lines_unreturned (Text.words_concat (c := '\r') rfl) text
  refine ⟨?_, ?_, ?_⟩
  · rw [← List.getElem?_map, trimmed, List.getElem?_map]
  · rw [← List.getElem?_map, words, List.getElem?_map]
  · rw [List.map_drop, words, List.map_drop]

end SameWords

/--
The answer to a report in lines is the one that its lines come to.  Every value of a
solution is finite, and it is zero or at least the tolerance in magnitude.  Only the words
of the lines count, so that blank lines among the items make no difference, and neither
does a carriage return before a line feed.
-/
theorem answer_readText (vars : VariableSet) (text : String) :
    (∀ answer, (readText vars text).answer = answer ↔
      LinesGive vars (Text.lines text.toList) answer) ∧
    (∀ solution, (readText vars text).answer = .ok (some solution) → solution.Snapped) ∧
    (∀ other : String, SameWords (Text.lines other.toList) (Text.lines text.toList) →
      (readText vars other).answer = (readText vars text).answer) ∧
    (readText vars (String.ofList (Text.unreturned text.toList))).answer =
      (readText vars text).answer := by
  refine ⟨fun answer => answer_readLines_iff, fun solution solved => ?_, fun other same => ?_, ?_⟩
  · cases answer_readLines_iff.mp solved with
    | announced announces settled =>
        exact settled.snapped announces.isFinite
          fun position item value there valued => isFinite_of_itemAt there valued
  · exact same.answer_eq
  · rw [readText, String.toList_ofList]
    exact (SameWords.unreturned text.toList).answer_eq

/-- A report with both endings of lines, a blank line, and a variable that is given twice. -/
def mixedReport : String :=
  "solution status: optimal solution found\r\nobjective value: 3.5\n\nx 7\r\nx 2 (obj:1)\n"

/-- The last value of a variable counts, and one that is not given is zero. -/
theorem mixedReport_read :
    let vars := VariableSet.ofList [.named .integer "x", .named .continuous "y"]
    ∃ solution, LinesGive vars (Text.lines mixedReport.toList) (.ok (some solution)) ∧
      solution.objective = 3.5 ∧
      solution.values.entries.map (fun p => (p.1.name, p.2)) = [("x", 2.0), ("y", 0.0)] := by
  intro vars
  obtain ⟨gives, -⟩ := answer_readText vars mixedReport
  have read : (readText vars mixedReport).answer.toOption.join.map (fun solution =>
      (solution.objective, solution.values.entries.map fun p => (p.1.name, p.2))) =
        some (3.5, [("x", 2.0), ("y", 0.0)]) := by
    decide +kernel
  obtain ⟨solution, solved, shown⟩ := Option.map_eq_some_iff.mp read
  exact ⟨solution, (gives _).mp (Answer.eq_of_solved solved), congrArg Prod.fst shown,
    congrArg Prod.snd shown⟩

end MixedInteger.Report
