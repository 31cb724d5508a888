import MixedInteger.LpText
import MixedInteger.Proofs.Solid
import MixedInteger.Text.Line

/-!
# Texts on one line

A text whose only blanks are spaces stays on the line where it is written.  Names
and numbers are solid, so every line of a written model is such a text, and the
written model splits at its line feeds into just the lines it was made of.
-/

namespace MixedInteger

namespace Text

/-- The only blanks of the text are spaces. -/
def Spaced (text : List Char) : Prop :=
  ∀ c ∈ text, c = ' ' ∨ isBlank c = false

theorem spaced_nil : Spaced [] := by
  intro c present
  cases present

@[simp] theorem spaced_append {first second : List Char} :
    Spaced (first ++ second) ↔ Spaced first ∧ Spaced second :=
  List.forall_mem_append

theorem spaced_space : Spaced " ".toList := by
  simp [Spaced]

theorem spaced_indent : Spaced "  ".toList := by
  simp [Spaced]

theorem Solid.spaced {text : List Char} (solid : Solid text) : Spaced text :=
  fun c present => .inr (solid c present)

theorem Spaced.notMem {text : List Char} (spaced : Spaced text) {c : Char}
    (blank : isBlank c = true) (other : c ≠ ' ') : c ∉ text := by
  intro present
  rcases spaced c present with space | clear
  · exact other space
  · rw [blank] at clear
    cases clear

theorem withoutReturn_eq_self {line : List Char} (spaced : Spaced line) :
    withoutReturn line = line := by
  refine if_neg fun last => ?_
  exact spaced.notMem (by decide) (by decide) (List.mem_of_getLast? last)

theorem linesOfPieces_cons {piece : List Char} {rest : List (List Char)} (more : rest ≠ []) :
    linesOfPieces (piece :: rest) = withoutReturn piece :: linesOfPieces rest := by
  cases rest with
  | nil => exact absurd rfl more
  | cons next later => rfl

/-- Lines that hold no line feed and no carriage return are read back as they are. -/
theorem lines_terminated {written : List (List Char)} (spaced : ∀ line ∈ written, Spaced line) :
    lines (written.flatMap fun line => line ++ ['\n']) = written := by
  unfold lines
  induction written with
  | nil => rfl
  | cons line rest ih =>
      obtain ⟨head, tail⟩ := List.forall_mem_cons.mp spaced
      have clear : ∀ c ∈ line, (c == '\n') = false := by
        intro c present
        apply beq_eq_false_iff_ne.mpr
        rintro rfl
        exact head.notMem (by decide) (by decide) present
      rw [List.flatMap_cons, List.append_assoc, List.singleton_append,
        List.splitOnP_append_cons_of_forall_mem clear '\n' (beq_self_eq_true '\n'),
        linesOfPieces_cons (List.splitOnP_ne_nil _ _), withoutReturn_eq_self head, ih tail]

/-- The same for lines that are joined with a line feed behind each. -/
theorem lines_join {written : List String} (spaced : ∀ line ∈ written, Spaced line.toList) :
    lines (String.join (written.map (· ++ "\n"))).toList = written.map String.toList := by
  have terminated : (String.join (written.map (· ++ "\n"))).toList =
      (written.map String.toList).flatMap fun line => line ++ ['\n'] := by
    rw [String.toList_join, List.flatMap_map, List.flatMap_map]
    simp only [String.toList_append]
    rfl
  rw [terminated]
  exact lines_terminated (List.forall_mem_map.mpr spaced)

/-! ### Words of a line -/

/-- A solid text is the one word of its line. -/
theorem words_of_solid {text : List Char} (solid : Solid text) (written : text ≠ []) :
    words text = [text] := by
  unfold words
  rw [List.splitOnP_eq_singleton solid]
  simp [written]

/-- A space ends a word. -/
theorem words_append_space (front rest : List Char) :
    words (front ++ ' ' :: rest) = words front ++ words rest := by
  unfold words
  rw [List.splitOnP_append_cons front rest (by decide), List.filter_append]

end Text

open Text (Spaced)

namespace Expression

theorem spaced_signText (value : Float) (first : Bool) : Spaced (signText value first).toList := by
  have plus : Spaced "+ ".toList := by simp [Spaced, Text.isBlank]
  have minus : Spaced "- ".toList := by simp [Spaced, Text.isBlank]
  unfold signText
  split
  · split
    · exact plus
    · exact minus
  · exact Text.spaced_nil

theorem spaced_termText (first : Bool) (v : Variable) (coefficient : Float) :
    Spaced (termText first v coefficient).toList := by
  have name : Spaced v.name.toList := Text.Solid.spaced v.name_unspaced
  have sign := spaced_signText coefficient first
  unfold termText
  simp only [String.toList_append, Text.spaced_append]
  refine ⟨⟨sign, ?_⟩, name⟩
  split
  · exact Text.spaced_nil
  · rw [String.toList_append, Text.spaced_append]
    exact ⟨(solid_numberText _).spaced, Text.spaced_space⟩

theorem spaced_constantText (first : Bool) (constant : Float) :
    Spaced (constantText first constant).toList := by
  rw [constantText, String.toList_append, Text.spaced_append]
  exact ⟨spaced_signText constant first, (solid_numberText _).spaced⟩

/-- A part of a text belongs to a significant term or to the constant. -/
theorem part_cases {a : Expression Float} {part : String} (present : part ∈ a.parts) :
    (∃ first, ∃ p ∈ a.significantTerms, part = termText first p.1 p.2) ∨
      ∃ first, part = constantText first a.constant := by
  unfold parts at present
  cases listed : a.significantTerms with
  | nil =>
      rw [listed] at present
      dsimp only at present
      split at present
      · cases present
      · exact .inr ⟨_, List.mem_singleton.mp present⟩
  | cons p rest =>
      have ofTerm (member : part ∈ termText true p.1 p.2 ::
          rest.map fun q => termText false q.1 q.2) :
          ∃ first, ∃ q ∈ p :: rest, part = termText first q.1 q.2 := by
        rcases List.mem_cons.mp member with rfl | later
        · exact ⟨true, p, List.mem_cons_self, rfl⟩
        · obtain ⟨q, within, rfl⟩ := List.mem_map.mp later
          exact ⟨false, q, List.mem_cons_of_mem _ within, rfl⟩
      rw [listed] at present
      dsimp only at present
      split at present
      · exact .inl (ofTerm present)
      · rcases List.mem_append.mp present with member | last
        · exact .inl (ofTerm member)
        · exact .inr ⟨_, List.mem_singleton.mp last⟩

theorem spaced_intercalate {texts : List String} (spaced : ∀ text ∈ texts, Spaced text.toList) :
    Spaced (" ".intercalate texts).toList := by
  induction texts with
  | nil => exact Text.spaced_nil
  | cons text rest ih =>
      obtain ⟨head, tail⟩ := List.forall_mem_cons.mp spaced
      cases rest with
      | nil =>
          rw [String.intercalate_singleton]
          exact head
      | cons next later =>
          rw [String.intercalate_cons_cons, String.toList_append, String.toList_append,
            Text.spaced_append, Text.spaced_append]
          exact ⟨⟨head, Text.spaced_space⟩, ih tail⟩

theorem spaced_text (a : Expression Float) : Spaced a.text.toList := by
  apply spaced_intercalate
  intro part present
  rcases part_cases present with ⟨first, p, -, rfl⟩ | ⟨first, rfl⟩
  · exact spaced_termText first p.1 p.2
  · exact spaced_constantText first a.constant

end Expression

theorem Constraint.spaced_text (c : Constraint Float) : Spaced c.text.toList := by
  have token : Spaced c.relation.token.toList := by
    cases c.relation <;> simp [Spaced, Relation.token, Text.isBlank]
  simp only [Constraint.text, String.toList_append, Text.spaced_append]
  exact ⟨⟨⟨⟨c.left.spaced_text, Text.spaced_space⟩, token⟩, Text.spaced_space⟩,
    (Expression.solid_numberText _).spaced⟩

end MixedInteger
