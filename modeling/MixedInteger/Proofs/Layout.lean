import MixedInteger.Proofs.Keys
import MixedInteger.Proofs.Spaced

/-!
# Layout of a written model

A written model is a list of blocks: a heading at the start of a line, and members
that are indented below it.  The reader below takes a text apart by line feeds and by
indentation alone; it looks at no name, so that no name can mislead it.
-/

namespace MixedInteger.LpText

/-- A heading and the texts that stand indented below it. -/
structure Block where
  heading : String
  members : List String
deriving DecidableEq, Repr

/-- The lines of a block. -/
def Block.lines (block : Block) : List String :=
  block.heading :: block.members.map fun member => "  " ++ member

/-! ## Reading -/

/-- What an indented line holds after two spaces. -/
def member? (line : String) : Option String :=
  match line.toList with
  | ' ' :: ' ' :: rest => some (String.ofList rest)
  | _ => none

/-- The members before the first heading, and the blocks from there on. -/
def readLines : List String → List String × List Block
  | [] => ([], [])
  | line :: rest =>
    let (members, blocks) := readLines rest
    match member? line with
    | some member => (member :: members, blocks)
    | none => ([], ⟨line, members⟩ :: blocks)

/-- The blocks of a text. -/
def read (text : String) : List Block :=
  (readLines ((Text.lines text.toList).map String.ofList)).2

/-- The members of every block of a text with the given heading. -/
def sections (heading text : String) : List (List String) :=
  ((read text).filter fun block => block.heading == heading).map Block.members

theorem member?_indented (member : String) : member? ("  " ++ member) = some member := by
  unfold member?
  rw [String.toList_append]
  exact congrArg some String.ofList_toList

theorem readLines_indented (members rest : List String) :
    readLines (members.map (fun member => "  " ++ member) ++ rest) =
      (members ++ (readLines rest).1, (readLines rest).2) := by
  induction members with
  | nil => rfl
  | cons member later ih =>
      rw [List.map_cons, List.cons_append, readLines, ih, member?_indented]
      rfl

theorem readLines_blocks {written : List Block}
    (headed : ∀ block ∈ written, member? block.heading = none) :
    readLines (written.flatMap Block.lines) = ([], written) := by
  induction written with
  | nil => rfl
  | cons block rest ih =>
      obtain ⟨head, tail⟩ := List.forall_mem_cons.mp headed
      rw [List.flatMap_cons, Block.lines, List.cons_append, readLines, readLines_indented,
        ih tail, head, List.append_nil]

/-! ## Writing -/

/-- What stands in front of the constraint at a position. -/
def label (index : Nat) : String :=
  "c" ++ String.ofList (Nat.toDigits 10 index) ++ ": "

/-- The labelled constraints, counted from a given number. -/
def labelled : Nat → List (Constraint Float) → List String
  | _, [] => []
  | index, c :: rest => (label index ++ c.text) :: labelled (index + 1) rest

/-- The heading under which the names of a kind are listed. -/
def heading? : Kind → Option String
  | .continuous => none
  | .integer => some "general"
  | .binary => some "binary"

/-- The block of a section, none if it has no members. -/
def sectionBlocks (heading : String) (names : List String) : List Block :=
  if names.isEmpty then [] else [⟨heading, names⟩]

/-- The blocks of a model. -/
def blocks (direction : Direction) (objective : Expression Float)
    (constraints : List (Constraint Float)) (declared : VariableSet) : List Block :=
  [⟨direction.keyword, [objective.text]⟩, ⟨"subject to", labelled 0 constraints⟩] ++
    sectionBlocks "general" (declared.namesOfKind .integer) ++
    sectionBlocks "binary" (declared.namesOfKind .binary) ++
    [⟨"end", []⟩]

theorem constraintLine_eq (index : Nat) (c : Constraint Float) :
    constraintLine index c = "  " ++ (label index ++ c.text) := by
  have start : "  c" = "  " ++ "c" := rfl
  simp only [constraintLine, label, start, String.append_assoc]

theorem constraintLines_eq (index : Nat) (constraints : List (Constraint Float)) :
    constraintLines index constraints =
      (labelled index constraints).map fun member => "  " ++ member := by
  induction constraints generalizing index with
  | nil => rfl
  | cons c rest ih => rw [constraintLines, labelled, List.map_cons, constraintLine_eq, ih]

theorem sectionLines_eq (heading : String) (names : List String) :
    sectionLines heading names = (sectionBlocks heading names).flatMap Block.lines := by
  unfold sectionLines sectionBlocks
  split
  · rfl
  · exact (List.flatMap_cons.trans (List.append_nil _)).symm

variable (direction : Direction) (objective : Expression Float)
  (constraints : List (Constraint Float)) (declared : VariableSet)

theorem lines_eq :
    lines direction objective constraints declared =
      (blocks direction objective constraints declared).flatMap Block.lines := by
  unfold lines blocks
  rw [constraintLines_eq, sectionLines_eq, sectionLines_eq]
  simp [Block.lines]

/-- The blocks of a model, one by one. -/
theorem block_cases {block : Block}
    (present : block ∈ blocks direction objective constraints declared) :
    block = ⟨direction.keyword, [objective.text]⟩ ∨
    block = ⟨"subject to", labelled 0 constraints⟩ ∨
    block = ⟨"general", declared.namesOfKind .integer⟩ ∨
    block = ⟨"binary", declared.namesOfKind .binary⟩ ∨
    block = ⟨"end", []⟩ := by
  have ofSection {heading : String} {names : List String}
      (member : block ∈ sectionBlocks heading names) : block = ⟨heading, names⟩ := by
    unfold sectionBlocks at member
    split at member
    · cases member
    · exact List.mem_singleton.mp member
  simp only [blocks, List.mem_append, List.mem_cons, List.not_mem_nil, or_false] at present
  rcases present with (((first | second) | third) | fourth) | last
  · exact .inl first
  · exact .inr (.inl second)
  · exact .inr (.inr (.inl (ofSection third)))
  · exact .inr (.inr (.inr (.inl (ofSection fourth))))
  · exact .inr (.inr (.inr (.inr last)))

theorem member?_heading {block : Block}
    (present : block ∈ blocks direction objective constraints declared) :
    member? block.heading = none := by
  rcases block_cases direction objective constraints declared present with
    rfl | rfl | rfl | rfl | rfl
  · cases direction <;> simp [member?, Direction.keyword]
  · simp [member?]
  · simp [member?]
  · simp [member?]
  · simp [member?]

/-- A label is a letter and digits, ended by a colon and a space. -/
theorem toList_label_append (index : Nat) (rest : List Char) :
    (label index).toList ++ rest = 'c' :: (Nat.toDigits 10 index ++ ':' :: ' ' :: rest) := by
  simp [label]

theorem spaced_label (index : Nat) : Text.Spaced (label index).toList := by
  have front : Text.Spaced "c".toList := by simp [Text.Spaced, Text.isBlank]
  have back : Text.Spaced ": ".toList := by simp [Text.Spaced, Text.isBlank]
  simp only [label, String.toList_append, String.toList_ofList, Text.spaced_append]
  exact ⟨⟨front, (Text.solid_toDigits index).spaced⟩, back⟩

/-- What is labelled is a constraint with some label. -/
theorem exists_of_mem_labelled {index : Nat} {constraints : List (Constraint Float)}
    {member : String} (present : member ∈ labelled index constraints) :
    ∃ (n : Nat) (c : Constraint Float), member = label n ++ c.text := by
  induction constraints generalizing index with
  | nil => cases present
  | cons c rest ih =>
      rcases List.mem_cons.mp present with rfl | later
      · exact ⟨index, c, rfl⟩
      · exact ih later

theorem spaced_of_mem_labelled {index : Nat} {constraints : List (Constraint Float)}
    {member : String} (present : member ∈ labelled index constraints) :
    Text.Spaced member.toList := by
  obtain ⟨n, c, rfl⟩ := exists_of_mem_labelled present
  rw [String.toList_append, Text.spaced_append]
  exact ⟨spaced_label n, c.spaced_text⟩

theorem solid_of_mem_namesOfKind {declared : VariableSet} {kind : Kind} {name : String}
    (present : name ∈ declared.namesOfKind kind) : Text.Solid name.toList := by
  obtain ⟨v, -, rfl, -⟩ := VariableSet.mem_namesOfKind.mp present
  exact v.name_unspaced

theorem spaced_blocks {block : Block}
    (present : block ∈ blocks direction objective constraints declared) :
    Text.Spaced block.heading.toList ∧ ∀ member ∈ block.members, Text.Spaced member.toList := by
  rcases block_cases direction objective constraints declared present with
    rfl | rfl | rfl | rfl | rfl
  · constructor
    · cases direction <;> simp [Direction.keyword, Text.Spaced, Text.isBlank]
    · intro member only
      rw [List.mem_singleton.mp only]
      exact objective.spaced_text
  · constructor
    · simp [Text.Spaced, Text.isBlank]
    · intro member labels
      exact spaced_of_mem_labelled labels
  · constructor
    · simp [Text.Spaced, Text.isBlank]
    · intro member name
      exact (solid_of_mem_namesOfKind name).spaced
  · constructor
    · simp [Text.Spaced, Text.isBlank]
    · intro member name
      exact (solid_of_mem_namesOfKind name).spaced
  · constructor
    · simp [Text.Spaced, Text.isBlank]
    · intro member none
      cases none

theorem spaced_lines {line : String}
    (present : line ∈ lines direction objective constraints declared) :
    Text.Spaced line.toList := by
  rw [lines_eq] at present
  obtain ⟨block, within, part⟩ := List.mem_flatMap.mp present
  obtain ⟨heading, members⟩ := spaced_blocks direction objective constraints declared within
  rcases List.mem_cons.mp part with rfl | later
  · exact heading
  · obtain ⟨member, below, rfl⟩ := List.mem_map.mp later
    rw [String.toList_append, Text.spaced_append]
    exact ⟨Text.spaced_indent, members member below⟩

/-- A written model splits at its line feeds into the lines it was made of. -/
theorem lines_write :
    Text.lines (write direction objective constraints declared).toList =
      (lines direction objective constraints declared).map String.toList :=
  Text.lines_join fun _ => spaced_lines direction objective constraints declared

/-- The reader finds the blocks that were written. -/
theorem read_write :
    read (write direction objective constraints declared) =
      blocks direction objective constraints declared := by
  have texts : (lines direction objective constraints declared).map
      (String.ofList ∘ String.toList) = lines direction objective constraints declared := by
    rw [(funext fun _ => String.ofList_toList : String.ofList ∘ String.toList = id), List.map_id]
  rw [read, lines_write, List.map_map, texts, lines_eq, readLines_blocks]
  intro block present
  exact member?_heading direction objective constraints declared present

/-- A section stands once in the text, or not at all if it would be empty. -/
theorem sections_write {heading : String} {kind : Kind} (headed : heading? kind = some heading) :
    sections heading (write direction objective constraints declared) =
      if (declared.namesOfKind kind).isEmpty then [] else [declared.namesOfKind kind] := by
  rw [sections, read_write]
  unfold blocks sectionBlocks
  cases kind with
  | continuous => cases headed
  | integer =>
      cases headed
      cases direction <;> split <;> split <;> simp [Direction.keyword]
  | binary =>
      cases headed
      cases direction <;> split <;> split <;> simp [Direction.keyword]

end MixedInteger.LpText
