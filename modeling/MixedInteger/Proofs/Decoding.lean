import MixedInteger.Proofs.Layout

/-!
# Decoding of a written model

A written model says which model it was, up to what its parts are written as.  Its blocks
are found by the reader of the layout; a constraint is then taken apart from the right,
where its bound and its relation are single words whatever its left side holds.
-/

namespace MixedInteger

/-! ## Words and labels -/

/-- A text is split at its last space if a solid text follows. -/
theorem Text.Solid.append_space_inj {front back front' back' : List Char} (solid : Solid back)
    (solid' : Solid back') :
    front ++ ' ' :: back = front' ++ ' ' :: back' ↔ front = front' ∧ back = back' := by
  -- Were one front longer, its next space would lie in the other's back.
  have noSpace {between rest word : List Char} (clear : Solid word)
      (split : ' ' :: word = between ++ ' ' :: rest) : between = [] := by
    cases between with
    | nil => rfl
    | cons c later =>
        have tail : word = later ++ ' ' :: rest := (List.cons.inj split).2
        have blank := clear ' ' (by rw [tail]; simp)
        cases blank
  constructor
  · intro same
    rcases List.append_eq_append_iff.mp same with ⟨between, longer, split⟩ | ⟨between, longer, split⟩
    · have none := noSpace solid split
      subst none
      exact ⟨(longer.trans (List.append_nil _)).symm, (List.cons.inj split).2⟩
    · have none := noSpace solid' split
      subst none
      exact ⟨longer.trans (List.append_nil _), ((List.cons.inj split).2).symm⟩
  · rintro ⟨rfl, rfl⟩
    rfl

theorem Relation.solid_token (relation : Relation) : Text.Solid relation.token.toList := by
  cases relation <;> simp [token, Text.isBlank]

theorem Relation.token_injective {first second : Relation}
    (same : first.token = second.token) : first = second := by
  revert same
  cases first <;> cases second <;> decide

theorem Direction.keyword_injective {first second : Direction}
    (same : first.keyword = second.keyword) : first = second := by
  revert same
  cases first <;> cases second <;> decide

theorem Constraint.text_eq_iff {first second : Constraint Float} :
    first.text = second.text ↔
      first.left.text = second.left.text ∧ first.relation = second.relation ∧
        Expression.numberText first.right = Expression.numberText second.right := by
  have layout (c : Constraint Float) : c.text.toList =
      (c.left.text.toList ++ ' ' :: c.relation.token.toList) ++
        ' ' :: (Expression.numberText c.right).toList := by
    simp [text]
  constructor
  · intro same
    have characters := congrArg String.toList same
    rw [layout, layout, (Expression.solid_numberText _).append_space_inj
      (Expression.solid_numberText _), first.relation.solid_token.append_space_inj
      second.relation.solid_token] at characters
    obtain ⟨⟨left, relation⟩, right⟩ := characters
    exact ⟨String.toList_inj.mp left, Relation.token_injective (String.toList_inj.mp relation),
      String.toList_inj.mp right⟩
  · rintro ⟨left, relation, right⟩
    rw [text, text, left, relation, right]

theorem Constraint.map_text_eq_iff {first second : List (Constraint Float)} :
    first.map text = second.map text ↔
      first.length = second.length ∧
      ∀ (i : Nat) (one : i < first.length) (other : i < second.length),
        first[i].left.text = second[i].left.text ∧ first[i].relation = second[i].relation ∧
          Expression.numberText first[i].right = Expression.numberText second[i].right := by
  rw [List.ext_getElem_iff]
  simp only [List.length_map, List.getElem_map, text_eq_iff]

namespace VariableSet

theorem namesOfKind_eq_iff {first second : VariableSet} {kind : Kind} :
    first.namesOfKind kind = second.namesOfKind kind ↔
      ∀ name, first.Has name kind ↔ second.Has name kind := by
  constructor
  · intro same name
    rw [← mem_namesOfKind, same, mem_namesOfKind]
  · intro same
    apply eq_of_increasing_of_mem_iff (namesOfKind_increasing first kind)
      (namesOfKind_increasing second kind)
    intro name
    rw [mem_namesOfKind, same, mem_namesOfKind]

end VariableSet

namespace LpText

/-- Digits end at the colon of a label, so that only one label fits a text. -/
theorem label_prefix_iff {first second : Nat} {text : String} :
    (label first).toList <+: (label second ++ text).toList ↔ first = second := by
  constructor
  · rintro ⟨rest, same⟩
    rw [String.toList_append, toList_label_append, toList_label_append] at same
    have ends := congrArg (List.takeWhile Char.isDigit) (List.cons.inj same).2
    have colon : Char.isDigit ':' = false := by decide
    rw [(Text.digits_append first colon _).1, (Text.digits_append second colon _).1] at ends
    exact Text.toDigits_injective ends
  · rintro rfl
    rw [String.toList_append]
    exact List.prefix_append _ _

/-! ## Lines of constraints -/

theorem labelled_eq_iff {index : Nat} {first second : List (Constraint Float)} :
    labelled index first = labelled index second ↔
      first.map Constraint.text = second.map Constraint.text := by
  induction first generalizing index second with
  | nil => cases second <;> simp [labelled]
  | cons c rest ih =>
      cases second with
      | nil => simp [labelled]
      | cons d later =>
          rw [labelled, labelled, List.map_cons, List.map_cons, List.cons.injEq, List.cons.injEq,
            String.append_right_inj, ih]

theorem getElem?_labelled (index : Nat) (constraints : List (Constraint Float)) (i : Nat) :
    (labelled index constraints)[i]? =
      constraints[i]?.map fun c => label (index + i) ++ c.text := by
  induction constraints generalizing index i with
  | nil => rfl
  | cons c rest ih =>
      cases i with
      | zero => rfl
      | succ i =>
          rw [labelled, List.getElem?_cons_succ, List.getElem?_cons_succ, ih, Nat.add_right_comm,
            Nat.add_assoc]

/-- The lines below those of the constraints. -/
def closing (declared : VariableSet) : List String :=
  sectionLines "general" (declared.namesOfKind .integer) ++
    sectionLines "binary" (declared.namesOfKind .binary) ++ ["end"]

/-- A line below the constraints is a heading or an indented name. -/
theorem closing_cases {declared : VariableSet} {line : String} (present : line ∈ closing declared) :
    member? line = none ∨ ∃ name, line = "  " ++ name ∧ Text.Solid name.toList := by
  have ofSection {heading : String} {kind : Kind} (headed : heading? kind = some heading)
      (member : line ∈ sectionLines heading (declared.namesOfKind kind)) :
      member? line = none ∨ ∃ name, line = "  " ++ name ∧ Text.Solid name.toList := by
    unfold sectionLines at member
    split at member
    · cases member
    · rcases List.mem_cons.mp member with rfl | below
      · left
        cases kind <;> cases headed <;> simp [member?]
      · obtain ⟨name, listed, rfl⟩ := List.mem_map.mp below
        exact .inr ⟨name, rfl, solid_of_mem_namesOfKind listed⟩
  rcases List.mem_append.mp present with sections | last
  · rcases List.mem_append.mp sections with integers | binaries
    · exact ofSection rfl integers
    · exact ofSection rfl binaries
  · left
    rw [List.mem_singleton.mp last]
    simp [member?]

section

variable (direction : Direction) (objective : Expression Float)
  (constraints : List (Constraint Float)) (declared : VariableSet)

theorem getElem?_lines (i : Nat) :
    (lines direction objective constraints declared)[3 + i]? =
      ((labelled 0 constraints).map (fun member => "  " ++ member) ++ closing declared)[i]? := by
  have start : lines direction objective constraints declared =
      [direction.keyword, "  " ++ objective.text, "subject to"] ++
        ((labelled 0 constraints).map (fun member => "  " ++ member) ++ closing declared) := by
    rw [lines, closing, constraintLines_eq]
    simp only [List.append_assoc]
  rw [start, List.getElem?_append_right (Nat.le_add_right 3 i)]
  congr 1
  exact Nat.add_sub_cancel_left 3 i

/-- A constraint stands on a line of its own, as many lines below the third as its number says. -/
theorem constraint_line {i : Nat} (within : i < constraints.length) :
    (lines direction objective constraints declared)[3 + i]? =
      some ("  " ++ (label i ++ constraints[i].text)) := by
  have found : (labelled 0 constraints)[i]? = some (label i ++ constraints[i].text) := by
    rw [getElem?_labelled, List.getElem?_eq_getElem within, Nat.zero_add]
    rfl
  rw [getElem?_lines, List.getElem?_append_left, List.getElem?_map, found]
  · rfl
  · rw [List.length_map]
    exact (List.getElem?_eq_some_iff.mp found).1

theorem mem_closing {i : Nat} {line : String} (beyond : constraints.length ≤ i)
    (found : (lines direction objective constraints declared)[3 + i]? = some line) :
    line ∈ closing declared := by
  have count : (labelled 0 constraints).length ≤ i := by
    rw [← List.getElem?_eq_none_iff, getElem?_labelled, List.getElem?_eq_none beyond]
    rfl
  rw [getElem?_lines, List.getElem?_append_right (by rwa [List.length_map])] at found
  exact List.mem_of_getElem? found

/-- Below the third line a label stands only in front of its constraint. -/
theorem label_line_iff {i n : Nat} {line : String}
    (found : (lines direction objective constraints declared)[3 + i]? = some line) :
    ("  " ++ label n).toList <+: line.toList ↔ n = i ∧ i < constraints.length := by
  rcases Nat.lt_or_ge i constraints.length with within | beyond
  · rw [constraint_line direction objective constraints declared within] at found
    cases found
    rw [String.toList_append, String.toList_append, List.prefix_append_right_inj,
      label_prefix_iff]
    constructor
    · intro same
      exact ⟨same, within⟩
    · rintro ⟨same, -⟩
      exact same
  · constructor
    · rintro ⟨rest, same⟩
      have shape : line = "  " ++ (label n ++ String.ofList rest) := by
        apply String.toList_inj.mp
        rw [← same]
        simp only [String.toList_append, String.toList_ofList, List.append_assoc]
      rcases closing_cases (mem_closing direction objective constraints declared beyond found) with
        heading | ⟨name, listed, solid⟩
      · rw [shape, member?_indented] at heading
        cases heading
      · -- The label ends in a space, and a name has none.
        have named : label n ++ String.ofList rest = name :=
          (String.append_right_inj "  ").mp (shape.symm.trans listed)
        have blank := solid ' ' (by rw [← named]; simp [label])
        cases blank
    · rintro ⟨-, within⟩
      exact absurd within (Nat.not_lt.mpr beyond)

/-! ## The whole text -/

variable (direction' : Direction) (objective' : Expression Float)
  (constraints' : List (Constraint Float)) (declared' : VariableSet)

theorem write_eq_iff_blocks :
    write direction objective constraints declared =
        write direction' objective' constraints' declared' ↔
      blocks direction objective constraints declared =
        blocks direction' objective' constraints' declared' := by
  constructor
  · intro same
    rw [← read_write, same, read_write]
  · intro same
    rw [write, write, lines_eq, lines_eq, same]

variable {direction direction' objective objective' constraints constraints' declared declared'} in
/-- The names of a section are read back from the text. -/
theorem namesOfKind_eq_of_write_eq {heading : String} {kind : Kind}
    (headed : heading? kind = some heading)
    (same : write direction objective constraints declared =
      write direction' objective' constraints' declared') :
    declared.namesOfKind kind = declared'.namesOfKind kind := by
  have joined (names : List String) :
      (if names.isEmpty then [] else [names]).flatten = names := by
    cases names <;> simp
  have found := congrArg (fun text => (sections heading text).flatten) same
  rw [sections_write _ _ _ _ headed, sections_write _ _ _ _ headed, joined, joined] at found
  exact found

theorem write_eq_iff :
    write direction objective constraints declared =
        write direction' objective' constraints' declared' ↔
      direction = direction' ∧ objective.text = objective'.text ∧
        constraints.map Constraint.text = constraints'.map Constraint.text ∧
        declared.namesOfKind .integer = declared'.namesOfKind .integer ∧
        declared.namesOfKind .binary = declared'.namesOfKind .binary := by
  constructor
  · intro same
    have general : heading? .integer = some "general" := rfl
    have binary : heading? .binary = some "binary" := rfl
    have integers := namesOfKind_eq_of_write_eq general same
    have binaries := namesOfKind_eq_of_write_eq binary same
    rw [write_eq_iff_blocks] at same
    simp only [blocks, List.cons_append, List.cons.injEq, Block.mk.injEq, and_true,
      true_and] at same
    obtain ⟨⟨keywords, objectives⟩, members, -⟩ := same
    exact ⟨Direction.keyword_injective keywords, objectives, labelled_eq_iff.mp members,
      integers, binaries⟩
  · rintro ⟨rfl, objectives, texts, integers, binaries⟩
    rw [write_eq_iff_blocks]
    rw [blocks, blocks, objectives, labelled_eq_iff.mpr texts, integers, binaries]

/--
A written model is uniquely decodable.  Two texts are equal just if the directions, the
written objectives, the constraints part by part and the names of either section are.  The
text has the lines and the blocks it was made of, and from the fourth line on a label
stands in front of the constraint that it numbers and nowhere else, whatever the names.
-/
theorem write_decodable :
    (write direction objective constraints declared =
        write direction' objective' constraints' declared' ↔
      direction = direction' ∧ objective.text = objective'.text ∧
      constraints.length = constraints'.length ∧
      (∀ (i : Nat) (one : i < constraints.length) (other : i < constraints'.length),
        constraints[i].left.text = constraints'[i].left.text ∧
        constraints[i].relation = constraints'[i].relation ∧
        Expression.numberText constraints[i].right =
          Expression.numberText constraints'[i].right) ∧
      (∀ name, declared.Has name .integer ↔ declared'.Has name .integer) ∧
      ∀ name, declared.Has name .binary ↔ declared'.Has name .binary) ∧
    Text.lines (write direction objective constraints declared).toList =
      (lines direction objective constraints declared).map String.toList ∧
    read (write direction objective constraints declared) =
      blocks direction objective constraints declared ∧
    (∀ (i : Nat) (within : i < constraints.length),
      (Text.lines (write direction objective constraints declared).toList)[3 + i]? =
        some ("  " ++ (label i ++ constraints[i].text)).toList) ∧
    ∀ (i n : Nat) (line : List Char),
      (Text.lines (write direction objective constraints declared).toList)[3 + i]? = some line →
      (("  " ++ label n).toList <+: line ↔ n = i ∧ i < constraints.length) := by
  refine ⟨?_, lines_write _ _ _ _, read_write _ _ _ _, ?_, ?_⟩
  · rw [write_eq_iff, Constraint.map_text_eq_iff, VariableSet.namesOfKind_eq_iff,
      VariableSet.namesOfKind_eq_iff, and_assoc]
  · intro i within
    rw [lines_write, List.getElem?_map, constraint_line _ _ _ _ within]
    rfl
  · intro i n line found
    rw [lines_write, List.getElem?_map] at found
    obtain ⟨text, written, rfl⟩ := Option.map_eq_some_iff.mp found
    exact label_line_iff _ _ _ _ written

end

end LpText

end MixedInteger
