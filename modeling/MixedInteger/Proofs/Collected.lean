import MixedInteger.Proofs.Decoding
import MixedInteger.Proofs.Support

/-!
# Variables collected from constraints

The variables of some constraints are collected into one set, whatever the constraints are.
Inside an expression the first of two variables with one name is kept, but a later constraint
takes the place of an earlier one: the kind of a name is the kind it has in the last
constraint that has it.  Where equal names have equal kinds, neither the order of the
constraints nor their repetition makes a difference.
-/

namespace MixedInteger

/-- A table lists each name once, so that the last key of a name is its only one. -/
theorem Table.find?_reverse_keys {κ α : Type} [Named κ] (table : Table κ α) (name : String) :
    table.keys.reverse.find? (fun k => Named.name k == name) = table.key? name := by
  cases found : table.key? name with
  | none =>
      refine List.find?_eq_none.mpr fun k present same => ?_
      have member : k ∈ table.keys := List.mem_reverse.mp present
      rw [Table.mem_keys_iff, eq_of_beq same, found] at member
      cases member
  | some k =>
      cases last : table.keys.reverse.find? (fun k => Named.name k == name) with
      | none =>
          obtain ⟨member, named⟩ := Table.key?_eq_some_iff.mp found
          have absent := List.find?_eq_none.mp last k (List.mem_reverse.mpr member)
          exact absurd (beq_iff_eq.mpr named) absent
      | some l =>
          have member := List.mem_reverse.mp (List.mem_of_find?_eq_some last)
          have named := List.find?_some last
          rw [← found]
          exact (Table.key?_eq_some_iff.mpr ⟨member, eq_of_beq named⟩).symm

/-- A set of variables is determined by its members. -/
theorem VariableSet.eq_of_mem_iff {vars others : VariableSet}
    (same : ∀ v, v ∈ vars.keys ↔ v ∈ others.keys) : vars = others := by
  have keys : vars.keys = others.keys := by
    refine Table.keys_congr fun name => Option.ext fun v => ?_
    rw [Table.key?_eq_some_iff, Table.key?_eq_some_iff, same]
  refine Table.eq_of_values keys fun v present => ?_
  obtain ⟨_, found⟩ := Table.exists_value? present
  obtain ⟨_, found'⟩ := Table.exists_value? (keys ▸ present)
  rw [found, found']

namespace Constraint

variable {constraints others : List (Constraint Float)}

/-! ## The last constraint with a name -/

/-- The variable of a name is the one that the last constraint with this name has. -/
theorem key?_declared (constraints : List (Constraint Float)) (name : String) :
    (declared constraints).key? name =
      constraints.reverse.findSome? fun c => c.left.var? name := by
  have each (c : Constraint Float) :
      c.vars.reverse.find? (fun v => v.name == name) = c.left.var? name :=
    Table.find?_reverse_keys c.left.terms name
  rw [declared, VariableSet.key?_collect, List.reverse_flatMap, List.find?_flatMap]
  exact congrArg (constraints.reverse.findSome? ·) (funext each)

/-- A variable is collected if it is the one of its name in the last constraint with the name. -/
theorem mem_declared_iff {v : Variable} :
    v ∈ (declared constraints).keys ↔ ∃ before c after, constraints = before ++ c :: after ∧
      v ∈ c.vars ∧ ∀ d ∈ after, v.name ∉ d.vars.map Variable.name := by
  have absent (d : Constraint Float) :
      d.left.var? v.name = none ↔ v.name ∉ d.vars.map Variable.name := by
    rw [vars, Expression.mem_names_iff, Option.not_isSome_iff_eq_none]
  rw [Table.mem_keys_iff, key?_declared, List.findSome?_eq_some_iff]
  constructor
  · rintro ⟨later, c, earlier, split, found, others⟩
    refine ⟨earlier.reverse, c, later.reverse, ?_, Expression.mem_vars_iff.mpr found, ?_⟩
    · rw [← List.reverse_reverse constraints, split, List.reverse_append, List.reverse_cons,
        List.append_assoc]
      rfl
    · exact fun d present => (absent d).mp (others d (List.mem_reverse.mp present))
  · rintro ⟨before, c, after, rfl, present, others⟩
    refine ⟨after.reverse, c, before.reverse, ?_, Expression.mem_vars_iff.mp present, ?_⟩
    · rw [List.reverse_append, List.reverse_cons, List.append_assoc]
      rfl
    · exact fun d later => (absent d).mpr (others d (List.mem_reverse.mp later))

/-- Of two kinds of one name, the one in the last constraint is collected. -/
example : (declared [.between (.ofVariable (.named .binary "x")) .less (.ofConstant (1 : Float)),
    .between (.ofVariable (.named .integer "x")) .less (.ofConstant 1)]).keys.map Variable.kind =
      [.integer] := by
  decide +kernel

theorem mem_names_declared {name : String} :
    name ∈ (declared constraints).keys.map Variable.name ↔
      ∃ c ∈ constraints, name ∈ c.vars.map Variable.name := by
  change name ∈ (declared constraints).keys.map Named.name ↔ _
  rw [Table.mem_names_iff, key?_declared, List.isSome_findSome?, List.any_reverse, List.any_eq_true]
  exact exists_congr fun c => and_congr_right fun _ => Expression.mem_names_iff.symm

/-! ## Order and repetition -/

/-- Equal names have equal kinds wherever they occur in the constraints. -/
def Coherent (constraints : List (Constraint Float)) : Prop :=
  ∀ c ∈ constraints, ∀ d ∈ constraints, ∀ v ∈ c.vars, ∀ w ∈ d.vars,
    v.name = w.name → v.kind = w.kind

/-- Where kinds are coherent, every variable of a constraint is collected as it is. -/
theorem Coherent.mem_declared_iff (coherent : Coherent constraints) {v : Variable} :
    v ∈ (declared constraints).keys ↔ ∃ c ∈ constraints, v ∈ c.vars := by
  have equal : ∀ v ∈ constraints.flatMap vars, ∀ w ∈ constraints.flatMap vars,
      v.name = w.name → v = w := by
    intro v first w second named
    obtain ⟨c, listed, present⟩ := List.mem_flatMap.mp first
    obtain ⟨d, listed', present'⟩ := List.mem_flatMap.mp second
    have kinds := coherent c listed d listed' v present w present' named
    cases v
    cases w
    cases named
    cases kinds
    rfl
  rw [declared, VariableSet.mem_keys_collect equal, List.mem_flatMap]

theorem Coherent.congr (coherent : Coherent constraints) (same : ∀ c, c ∈ others ↔ c ∈ constraints) :
    Coherent others :=
  fun c listed d listed' => coherent c ((same c).mp listed) d ((same d).mp listed')

/-- Which constraints there are determines what is collected, not their order or number. -/
theorem Coherent.declared_eq (coherent : Coherent constraints)
    (same : ∀ c, c ∈ others ↔ c ∈ constraints) : declared others = declared constraints := by
  have members (v : Variable) : v ∈ (declared others).keys ↔ v ∈ (declared constraints).keys := by
    rw [(coherent.congr same).mem_declared_iff, coherent.mem_declared_iff]
    exact exists_congr fun c => and_congr_left fun _ => same c
  apply VariableSet.eq_of_mem_iff members

end Constraint

/-! ## Names on constraint lines -/

namespace Text

/-- A text without blanks has no word but itself. -/
theorem eq_of_mem_words {text word : List Char} (solid : Solid text) (present : word ∈ words text) :
    word = text := by
  by_cases written : text = []
  · subst written
    cases present
  · rw [words_of_solid solid written] at present
    exact List.mem_singleton.mp present

theorem mem_words_append_space {front rest word : List Char} :
    word ∈ words (front ++ ' ' :: rest) ↔ word ∈ words front ∨ word ∈ words rest := by
  rw [words_append_space, List.mem_append]

end Text

namespace Expression

open Text (words)

/-- The words of parts that are joined by spaces are the words of the parts. -/
theorem mem_words_intercalate {parts : List String} {word : List Char}
    (present : word ∈ words (" ".intercalate parts).toList) :
    ∃ part ∈ parts, word ∈ words part.toList := by
  induction parts with
  | nil => cases present
  | cons part rest ih =>
      cases rest with
      | nil =>
          rw [String.intercalate_singleton] at present
          exact ⟨part, List.mem_singleton_self _, present⟩
      | cons next later =>
          have joined : (" ".intercalate (part :: next :: later)).toList =
              part.toList ++ ' ' :: (" ".intercalate (next :: later)).toList := by
            rw [String.intercalate_cons_cons, String.toList_append, String.toList_append,
              List.append_assoc]
            rfl
          rw [joined, Text.mem_words_append_space] at present
          rcases present with here | there
          · exact ⟨part, List.mem_cons_self, here⟩
          · obtain ⟨other, listed, within⟩ := ih there
            exact ⟨other, List.mem_cons_of_mem _ listed, within⟩

/-- A word of an expression that is no name: a sign or a number. -/
def IsMark (word : List Char) : Prop :=
  word = ['+'] ∨ word = ['-'] ∨ ∃ x : Float, word = (numberText x).toList

theorem mem_words_signText {x : Float} {first : Bool} {rest word : List Char}
    (present : word ∈ words ((signText x first).toList ++ rest)) :
    IsMark word ∨ word ∈ words rest := by
  have plus : Text.Solid ['+'] := by simp [Text.isBlank]
  have minus : Text.Solid ['-'] := by simp [Text.isBlank]
  unfold signText at present
  split at present
  · split at present
    · change word ∈ words (['+'] ++ ' ' :: rest) at present
      rcases Text.mem_words_append_space.mp present with sign | later
      · exact .inl (.inl (Text.eq_of_mem_words plus sign))
      · exact .inr later
    · change word ∈ words (['-'] ++ ' ' :: rest) at present
      rcases Text.mem_words_append_space.mp present with sign | later
      · exact .inl (.inr (.inl (Text.eq_of_mem_words minus sign)))
      · exact .inr later
  · exact .inr present

theorem mem_words_numberText {x : Float} {word : List Char}
    (present : word ∈ words (numberText x).toList) : IsMark word :=
  .inr (.inr ⟨x, Text.eq_of_mem_words (solid_numberText x) present⟩)

theorem mem_words_termText {first : Bool} {v : Variable} {x : Float} {word : List Char}
    (present : word ∈ words (termText first v x).toList) : IsMark word ∨ word = v.name.toList := by
  have name (within : word ∈ words v.name.toList) : IsMark word ∨ word = v.name.toList :=
    .inr (Text.eq_of_mem_words v.name_unspaced within)
  rw [termText, String.append_assoc, String.toList_append] at present
  rcases mem_words_signText present with mark | later
  · exact .inl mark
  · split at later
    · exact name later
    · rw [String.toList_append, String.toList_append, List.append_assoc] at later
      rcases Text.mem_words_append_space.mp later with number | last
      · exact .inl (mem_words_numberText number)
      · exact name last

/-- A word of an expression is a mark or the name of a term that is written. -/
theorem mem_words_text {a : Expression Float} {word : List Char}
    (present : word ∈ words a.text.toList) :
    IsMark word ∨ ∃ p ∈ a.significantTerms, word = p.1.name.toList := by
  obtain ⟨part, listed, within⟩ := mem_words_intercalate present
  rcases part_cases listed with ⟨first, p, significant, rfl⟩ | ⟨first, rfl⟩
  · exact (mem_words_termText within).imp_right fun named => ⟨p, significant, named⟩
  · rw [constantText, String.toList_append] at within
    exact .inl ((mem_words_signText within).elim id mem_words_numberText)

end Expression

/-- A word of a constraint line that is no name: the label, the relation, a sign or a number. -/
def Constraint.IsMark (index : Nat) (c : Constraint Float) (word : List Char) : Prop :=
  word = 'c' :: (Nat.toDigits 10 index ++ [':']) ∨ word = c.relation.token.toList ∨
    Expression.IsMark word

/-- A word of a constraint line is a mark or the name of a term that is written. -/
theorem LpText.mem_words_constraintLine {index : Nat} {c : Constraint Float} {word : List Char}
    (present : word ∈ Text.words (constraintLine index c).toList) :
    c.IsMark index word ∨ ∃ p ∈ c.left.significantTerms, word = p.1.name.toList := by
  have layout : (constraintLine index c).toList =
      [] ++ ' ' :: ([] ++ ' ' :: (('c' :: (Nat.toDigits 10 index ++ [':'])) ++ ' ' ::
        (c.left.text.toList ++ ' ' :: (c.relation.token.toList ++ ' ' ::
          (Expression.numberText c.right).toList)))) := by
    simp [constraintLine, Constraint.text]
  have solid : Text.Solid ('c' :: (Nat.toDigits 10 index ++ [':'])) := by
    simp [Text.isBlank, Text.solid_toDigits]
  rw [layout] at present
  simp only [Text.mem_words_append_space] at present
  rcases present with none | none | label | left | relation | right
  · cases none
  · cases none
  · exact .inl (.inl (Text.eq_of_mem_words solid label))
  · exact (Expression.mem_words_text left).imp_left fun mark => .inr (.inr mark)
  · exact .inl (.inr (.inl (Text.eq_of_mem_words c.relation.solid_token relation)))
  · exact .inl (.inr (.inr (Expression.mem_words_numberText right)))

namespace Constraint

variable {constraints others : List (Constraint Float)}

/-- The name of a term that is written is collected. -/
theorem mem_names_of_significant {c : Constraint Float} (listed : c ∈ constraints)
    {p : Variable × Float} (significant : p ∈ c.left.significantTerms) :
    p.1.name ∈ (declared constraints).keys.map Variable.name := by
  have stored : p.1 ∈ c.vars := List.mem_map_of_mem (List.mem_filter.mp significant).1
  exact mem_names_declared.mpr ⟨c, listed, List.mem_map_of_mem stored⟩

theorem Coherent.sections_eq (coherent : Coherent constraints)
    (same : ∀ c, c ∈ others ↔ c ∈ constraints) {heading : String}
    (headed : heading ∈ ["general", "binary"]) (direction : Direction)
    (objective : Expression Float) :
    LpText.sections heading (LpText.write direction objective others (declared others)) =
      LpText.sections heading
        (LpText.write direction objective constraints (declared constraints)) := by
  obtain ⟨kind, headed⟩ : ∃ kind, LpText.heading? kind = some heading := by
    rcases List.mem_pair.mp headed with rfl | rfl
    · exact ⟨.integer, rfl⟩
    · exact ⟨.binary, rfl⟩
  rw [LpText.sections_write _ _ _ _ headed, LpText.sections_write _ _ _ _ headed,
    coherent.declared_eq same]

/--
The set collected from constraints lists its names in strictly increasing order, and they are
the names of the left sides.  Each variable is the one of its name in the last constraint that
has the name.  Where equal names have equal kinds, a list of the same constraints in another
order or number gives the same set and the same sections of the written model.  A word on the
line of a constraint is a mark or a collected name, and every term that is written has one.
-/
theorem declared_universe (constraints : List (Constraint Float)) :
    ((declared constraints).keys.map Variable.name).Pairwise (· < ·) ∧
    (∀ name, name ∈ (declared constraints).keys.map Variable.name ↔
      ∃ c ∈ constraints, name ∈ c.vars.map Variable.name) ∧
    (∀ v, v ∈ (declared constraints).keys ↔ ∃ before c after,
      constraints = before ++ c :: after ∧ v ∈ c.vars ∧
        ∀ d ∈ after, v.name ∉ d.vars.map Variable.name) ∧
    (Coherent constraints → ∀ others : List (Constraint Float),
      (∀ c, c ∈ others ↔ c ∈ constraints) →
      declared others = declared constraints ∧
      ∀ heading ∈ ["general", "binary"], ∀ direction objective,
        LpText.sections heading (LpText.write direction objective others (declared others)) =
          LpText.sections heading
            (LpText.write direction objective constraints (declared constraints))) ∧
    ∀ c ∈ constraints,
      (∀ p ∈ c.left.significantTerms,
        p.1.name ∈ (declared constraints).keys.map Variable.name) ∧
      ∀ index, ∀ word ∈ Text.words (LpText.constraintLine index c).toList,
        c.IsMark index word ∨ ∃ v ∈ (declared constraints).keys, word = v.name.toList := by
  refine ⟨(declared constraints).names_increasing, fun _ => mem_names_declared,
    fun _ => mem_declared_iff, fun coherent others same => ⟨coherent.declared_eq same, ?_⟩,
    fun c listed => ⟨fun p => mem_names_of_significant listed, fun index word present => ?_⟩⟩
  · exact fun heading headed => coherent.sections_eq same headed
  · rcases LpText.mem_words_constraintLine present with mark | ⟨p, significant, named⟩
    · exact .inl mark
    · obtain ⟨v, collected, alike⟩ :=
        List.mem_map.mp (mem_names_of_significant listed significant)
      exact .inr ⟨v, collected, named.trans (congrArg String.toList alike.symm)⟩

/-- A binary name in two constraints, once beside an integer one. -/
def shared : List (Constraint Float) :=
  [.between (.ofVariable (.named .binary "x")) .lessEqual (.ofConstant 1),
    .between (.ofVariable (.named .binary "x")) .greater (.ofVariable (.named .integer "y"))]

/-- With the constraints turned round and repeated, the same variables are collected. -/
theorem shared_repeated :
    Coherent shared ∧ declared (shared.reverse ++ shared) = declared shared ∧
      LpText.sections "binary"
        (LpText.write .minimize .zero (shared.reverse ++ shared)
          (declared (shared.reverse ++ shared))) = [["x"]] := by
  have coherent : Coherent shared := by
    unfold Coherent
    decide +kernel
  have same (c : Constraint Float) : c ∈ shared.reverse ++ shared ↔ c ∈ shared := by
    rw [List.mem_append, List.mem_reverse, or_self]
  obtain ⟨-, -, -, unchanged, -⟩ := declared_universe shared
  obtain ⟨set, sections⟩ := unchanged coherent _ same
  refine ⟨coherent, set, ?_⟩
  rw [sections "binary" (by decide) .minimize .zero]
  decide +kernel

end Constraint

end MixedInteger
