import MixedInteger.Proofs.Keys
import MixedInteger.Proofs.Signs
import MixedInteger.Proofs.Spaced

/-!
# Written expressions

A written expression is a sequence of words: signs, magnitudes and names.  It is read back
as a normal form, in which coefficients that count as zero are left out and those that count
as one are one.  Expressions have the same text just if they have the same normal form.
-/

namespace MixedInteger.Expression

/-! ## Normal forms -/

/-- Names with their coefficients, and a constant. -/
structure Normal where
  terms : List (String × Float)
  constant : Float
deriving DecidableEq

/-- The coefficient one or minus one in place of each that counts as one. -/
def evened (coefficient : Float) : Float :=
  if Tolerance.isNearUnit coefficient then (if coefficient < 0.0 then -1.0 else 1.0)
  else coefficient

/-- The normal form of an expression. -/
def normal (a : Expression Float) : Normal where
  terms := a.significantTerms.map fun p => (p.1.name, evened p.2)
  constant := if Tolerance.isNearZero a.constant then 0.0 else a.constant

/-! ## Words -/

/-- The sign of a part, which a positive first part does without. -/
def signWords (first : Bool) (value : Float) : List (List Char) :=
  if value < 0.0 then [['-']] else if first then [] else [['+']]

/-- The words of a term: its sign, its magnitude unless that is one, and its name. -/
def termWords (first : Bool) (term : String × Float) : List (List Char) :=
  signWords first term.2 ++
    (if term.2.abs = 1.0 then [] else [(numberText term.2.abs).toList]) ++ [term.1.toList]

/-- The words of a constant, none for zero. -/
def constantWords (first : Bool) (constant : Float) : List (List Char) :=
  if constant = 0.0 then []
  else signWords first constant ++ [(numberText constant.abs).toList]

def wordsFrom (first : Bool) : List (String × Float) → Float → List (List Char)
  | [], constant => constantWords first constant
  | term :: rest, constant => termWords first term ++ wordsFrom false rest constant

/-- The words of a normal form, each sign in front of its own term. -/
def Normal.words (form : Normal) : List (List Char) :=
  wordsFrom true form.terms form.constant

/--
The normal form that some words stand for, after a sign and maybe a magnitude.  A name ends a
term, and a magnitude without a name is the constant.
-/
def readFrom (negative : Bool) (magnitude : Option Float) : List (List Char) → Normal
  | [] => ⟨[], (magnitude.map (signed negative)).getD 0.0⟩
  | word :: rest =>
    if word = ['-'] then readFrom true none rest
    else if word = ['+'] then readFrom false none rest
    else
      match magnitude? word with
      | some value => readFrom negative (some value) rest
      | none =>
        let later := readFrom false none rest
        ⟨(String.ofList word, signed negative (magnitude.getD 1.0)) :: later.terms, later.constant⟩

/-- The normal form that a text stands for. -/
def readText (text : String) : Normal :=
  readFrom false none (Text.words text.toList)

/-! ## Reading words -/

/-- The name is no sign, and no magnitude is written like it. -/
structure IsPlainName (name : String) : Prop where
  nonempty : name ≠ ""
  plus : name ≠ "+"
  minus : name ≠ "-"
  apart : ∀ x : Float, x.isNaN = false → name ≠ numberText x.abs

/-- A word that is not read as a magnitude is not the text of one. -/
theorem numberText_ne {x : Float} (number : x.isNaN = false) {word : List Char}
    (unread : magnitude? word = none) : (numberText x.abs).toList ≠ word := by
  rintro rfl
  cases unread.symm.trans (magnitude?_numberText number)

theorem isPlainName_iff {name : String} :
    IsPlainName name ↔ name ≠ "" ∧ name ≠ "+" ∧ name ≠ "-" ∧ magnitude? name.toList = none := by
  constructor
  · rintro ⟨nonempty, plus, minus, apart⟩
    refine ⟨nonempty, plus, minus, Option.eq_none_iff_forall_ne_some.mpr fun y read => ?_⟩
    obtain ⟨x, number, written⟩ := exists_of_magnitude? read
    exact apart x number (String.toList_inj.mp written)
  · rintro ⟨nonempty, plus, minus, unread⟩
    refine ⟨nonempty, plus, minus, fun x number written => ?_⟩
    exact numberText_ne number unread (congrArg String.toList written).symm

instance (name : String) : Decidable (IsPlainName name) :=
  decidable_of_iff _ isPlainName_iff.symm

/-- The value is a number, and no negative zero. -/
def IsSigned (x : Float) : Prop := x.isNaN = false ∧ x ≠ -0.0

variable {x : Float} {name : String}

theorem readFrom_signWords (first : Bool) (x : Float) (rest : List (List Char)) :
    readFrom false none (signWords first x ++ rest) =
      readFrom (decide (x < 0.0)) none rest := by
  unfold signWords
  split
  case isTrue below => rw [decide_eq_true below]; rfl
  case isFalse notBelow =>
    rw [decide_eq_false notBelow]
    split <;> rfl

theorem readFrom_magnitude (number : x.isNaN = false) (negative : Bool)
    (rest : List (List Char)) :
    readFrom negative none ((numberText x.abs).toList :: rest) =
      readFrom negative (some x.abs) rest := by
  rw [readFrom, if_neg (numberText_ne number rfl), if_neg (numberText_ne number rfl),
    magnitude?_numberText number]

theorem readFrom_name (plain : IsPlainName name) (negative : Bool) (magnitude : Option Float)
    (rest : List (List Char)) :
    readFrom negative magnitude (name.toList :: rest) =
      ⟨(name, signed negative (magnitude.getD 1.0)) :: (readFrom false none rest).terms,
        (readFrom false none rest).constant⟩ := by
  have minus : name.toList ≠ ['-'] := fun same => plain.minus (String.toList_inj.mp same)
  have plus : name.toList ≠ ['+'] := fun same => plain.plus (String.toList_inj.mp same)
  obtain ⟨-, -, -, unread⟩ := isPlainName_iff.mp plain
  rw [readFrom, if_neg minus, if_neg plus, unread]
  dsimp only
  rw [String.ofList_toList]

theorem readFrom_termWords (plain : IsPlainName name) (usable : IsSigned x) (first : Bool)
    (rest : List (List Char)) :
    readFrom false none (termWords first (name, x) ++ rest) =
      ⟨(name, x) :: (readFrom false none rest).terms, (readFrom false none rest).constant⟩ := by
  have value := signed_abs usable.1 usable.2
  rw [termWords, List.append_assoc, List.append_assoc, readFrom_signWords]
  by_cases unit : x.abs = 1.0
  · rw [if_pos unit, List.nil_append, List.singleton_append, readFrom_name plain, Option.getD_none,
      ← unit, value]
  · rw [if_neg unit, List.singleton_append, List.singleton_append, readFrom_magnitude usable.1,
      readFrom_name plain, Option.getD_some, value]

theorem readFrom_constantWords (usable : IsSigned x) (first : Bool) :
    readFrom false none (constantWords first x) = ⟨[], x⟩ := by
  unfold constantWords
  split
  case isTrue zero => rw [zero]; rfl
  case isFalse =>
    rw [readFrom_signWords, readFrom_magnitude usable.1, readFrom, Option.map_some,
      Option.getD_some, signed_abs usable.1 usable.2]

/-- The reader finds the normal form whose words it is given. -/
theorem readFrom_wordsFrom {terms : List (String × Float)} {constant : Float}
    (plain : ∀ term ∈ terms, IsPlainName term.1 ∧ IsSigned term.2) (usable : IsSigned constant)
    (first : Bool) :
    readFrom false none (wordsFrom first terms constant) = ⟨terms, constant⟩ := by
  induction terms generalizing first with
  | nil => exact readFrom_constantWords usable first
  | cons term rest ih =>
      obtain ⟨head, tail⟩ := List.forall_mem_cons.mp plain
      rw [wordsFrom, readFrom_termWords head.1 head.2, ih tail]

/-! ## Words of a text -/

/-- Words with a space in front of each. -/
def spread (words : List (List Char)) : List Char :=
  words.flatMap fun word => ' ' :: word

theorem spread_cons (word : List Char) (words : List (List Char)) :
    spread (word :: words) = ' ' :: word ++ spread words :=
  List.flatMap_cons

theorem spread_append (first second : List (List Char)) :
    spread (first ++ second) = spread first ++ spread second :=
  List.flatMap_append

/-- The signs that are written are those of numbers other than zero. -/
theorem signText_spread
    (sign : (x < 0.0 ∧ ¬0.0 < x ∧ x = -x.abs) ∨ (0.0 < x ∧ ¬x < 0.0 ∧ x = x.abs)) (first : Bool)
    (rest : List Char) :
    ' ' :: ((signText x first).toList ++ rest) = spread (signWords first x) ++ ' ' :: rest := by
  unfold signText signWords
  rcases sign with ⟨below, notAbove, -⟩ | ⟨above, notBelow, -⟩
  · cases first <;> simp [below, notAbove, spread]
  · cases first <;> simp [above, notBelow, spread]

theorem signWords_evened (first : Bool) (x : Float) :
    signWords first (evened x) = signWords first x := by
  unfold evened
  split
  case isTrue =>
    by_cases below : x < 0.0
    · rw [if_pos below, signWords, signWords, if_pos below]
      rfl
    · rw [if_neg below, signWords, signWords, if_neg below]
      rfl
  case isFalse => rfl

/-- A coefficient counts as one if its normal form has the magnitude one. -/
theorem abs_evened_eq_one_iff (x : Float) :
    (evened x).abs = 1.0 ↔ Tolerance.isNearUnit x = true := by
  unfold evened
  split
  case isTrue unit =>
    refine iff_of_true ?_ unit
    split <;> rfl
  case isFalse apart =>
    exact iff_of_false (fun unit => apart (Tolerance.isNearUnit_of_abs_eq_one unit)) apart

theorem isSigned_evened (number : x.isNaN = false)
    (significant : Tolerance.isNearZero x = false) : IsSigned (evened x) := by
  unfold evened
  split
  case isTrue => split <;> exact ⟨rfl, by decide +kernel⟩
  case isFalse =>
    refine ⟨number, ?_⟩
    rintro rfl
    cases significant

theorem termText_spread {v : Variable} (number : x.isNaN = false)
    (significant : Tolerance.isNearZero x = false) (first : Bool) :
    ' ' :: (termText first v x).toList = spread (termWords first (v.name, evened x)) := by
  have sign := Tolerance.sign_of_significant number significant
  have unit := abs_evened_eq_one_iff x
  rw [termText, termWords, signWords_evened, String.append_assoc, String.toList_append,
    signText_spread sign, spread_append, spread_append]
  by_cases near : Tolerance.isNearUnit x = true
  · simp [unit.mpr near, near, spread]
  · have same : evened x = x := if_neg near
    rw [same] at unit ⊢
    simp [mt unit.mp near, near, spread]

theorem constantText_spread (number : x.isNaN = false)
    (significant : Tolerance.isNearZero x = false) (first : Bool) :
    ' ' :: (constantText first x).toList = spread (constantWords first x) := by
  have sign := Tolerance.sign_of_significant number significant
  have nonzero : x ≠ 0.0 := by
    rintro rfl
    cases significant
  rw [constantText, constantWords, if_neg nonzero, String.toList_append, signText_spread sign,
    spread_append]
  simp [spread]

theorem words_append_spread {word : List Char} {words : List (List Char)}
    (solid : ∀ w ∈ word :: words, Text.Solid w ∧ w ≠ []) :
    Text.words (word ++ spread words) = word :: words := by
  induction words generalizing word with
  | nil =>
      obtain ⟨only, written⟩ := solid word List.mem_cons_self
      rw [spread, List.flatMap_nil, List.append_nil, Text.words_of_solid only written]
  | cons next rest ih =>
      obtain ⟨⟨only, written⟩, later⟩ := List.forall_mem_cons.mp solid
      rw [spread_cons, List.cons_append, Text.words_append_space, Text.words_of_solid only written,
        ih later]
      rfl

/-- Words that are separated by single spaces are found again. -/
theorem words_drop_spread {words : List (List Char)}
    (solid : ∀ w ∈ words, Text.Solid w ∧ w ≠ []) : Text.words ((spread words).drop 1) = words := by
  cases words with
  | nil => rfl
  | cons word rest => exact words_append_spread solid

/-- Parts that are separated by single spaces. -/
theorem toList_intercalate_space (part : String) (parts : List String) :
    (" ".intercalate (part :: parts)).toList =
      part.toList ++ parts.flatMap fun later => ' ' :: later.toList := by
  induction parts generalizing part with
  | nil => rw [String.intercalate_singleton, List.flatMap_nil, List.append_nil]
  | cons next rest ih =>
      rw [String.intercalate_cons_cons, String.toList_append, String.toList_append, ih,
        List.append_assoc, List.flatMap_cons]
      rfl

theorem solid_signWords (first : Bool) (x : Float) :
    ∀ w ∈ signWords first x, Text.Solid w ∧ w ≠ [] := by
  have minus : Text.Solid ['-'] := by simp [Text.isBlank]
  have plus : Text.Solid ['+'] := by simp [Text.isBlank]
  unfold signWords
  split
  · exact List.forall_mem_singleton.mpr ⟨minus, List.cons_ne_nil _ _⟩
  · split
    · exact List.forall_mem_nil _
    · exact List.forall_mem_singleton.mpr ⟨plus, List.cons_ne_nil _ _⟩

theorem solid_magnitude (number : x.isNaN = false) :
    Text.Solid (numberText x.abs).toList ∧ (numberText x.abs).toList ≠ [] :=
  ⟨solid_numberText x.abs, numberText_ne number rfl⟩

theorem solid_constantWords (usable : IsSigned x) (first : Bool) :
    ∀ w ∈ constantWords first x, Text.Solid w ∧ w ≠ [] := by
  unfold constantWords
  split
  · exact List.forall_mem_nil _
  · exact List.forall_mem_append.mpr ⟨solid_signWords first x,
      List.forall_mem_singleton.mpr (solid_magnitude usable.1)⟩

theorem solid_termWords (plain : IsPlainName name) (solid : Text.Solid name.toList)
    (usable : IsSigned x) (first : Bool) :
    ∀ w ∈ termWords first (name, x), Text.Solid w ∧ w ≠ [] := by
  refine List.forall_mem_append.mpr ⟨List.forall_mem_append.mpr ⟨solid_signWords first x, ?_⟩, ?_⟩
  · split
    · exact List.forall_mem_nil _
    · exact List.forall_mem_singleton.mpr (solid_magnitude usable.1)
  · refine List.forall_mem_singleton.mpr ⟨solid, fun empty => plain.nonempty ?_⟩
    exact String.toList_eq_nil_iff.mp empty

theorem solid_wordsFrom {terms : List (String × Float)} {constant : Float}
    (plain : ∀ term ∈ terms,
      (IsPlainName term.1 ∧ IsSigned term.2) ∧ Text.Solid term.1.toList)
    (usable : IsSigned constant) (first : Bool) :
    ∀ w ∈ wordsFrom first terms constant, Text.Solid w ∧ w ≠ [] := by
  induction terms generalizing first with
  | nil => exact solid_constantWords usable first
  | cons term rest ih =>
      obtain ⟨⟨⟨head, value⟩, solid⟩, tail⟩ := List.forall_mem_cons.mp plain
      exact List.forall_mem_append.mpr ⟨solid_termWords head solid value first, ih tail false⟩

/-! ## Words of an expression -/

variable {a : Expression Float}

theorem parts_eq (a : Expression Float) :
    a.parts = (match a.significantTerms with
      | [] => []
      | p :: rest => termText true p.1 p.2 :: rest.map fun q => termText false q.1 q.2) ++
      (if Tolerance.isNearZero a.constant then []
        else [constantText a.significantTerms.isEmpty a.constant]) := by
  unfold parts
  cases a.significantTerms <;> dsimp only <;> split <;> simp

theorem constant_spread {constant : Float} (number : constant.isNaN = false) (first : Bool) :
    ((if Tolerance.isNearZero constant then [] else [constantText first constant]).flatMap
        fun part => ' ' :: part.toList) =
      spread (constantWords first (if Tolerance.isNearZero constant then 0.0 else constant)) := by
  cases significant : Tolerance.isNearZero constant with
  | true => rfl
  | false =>
      simp only [Bool.false_eq_true, if_false]
      rw [← constantText_spread number significant]
      simp

theorem terms_spread {terms : List (Variable × Float)} {constant : Float}
    (numbers : ∀ p ∈ terms, p.2.isNaN = false ∧ Tolerance.isNearZero p.2 = false)
    (number : constant.isNaN = false) :
    (((terms.map fun q => termText false q.1 q.2) ++
      if Tolerance.isNearZero constant then [] else [constantText false constant]).flatMap
        fun part => ' ' :: part.toList) =
      spread (wordsFrom false (terms.map fun p => (p.1.name, evened p.2))
        (if Tolerance.isNearZero constant then 0.0 else constant)) := by
  induction terms with
  | nil => exact constant_spread number false
  | cons p rest ih =>
      obtain ⟨⟨head, significant⟩, tail⟩ := List.forall_mem_cons.mp numbers
      rw [List.map_cons, List.map_cons, wordsFrom, List.cons_append, List.flatMap_cons, ih tail,
        spread_append, ← termText_spread head significant]

/-- The coefficients and the constant are numbers, and the names are no signs or magnitudes. -/
structure Plain (a : Expression Float) : Prop where
  names : ∀ v ∈ a.vars, IsPlainName v.name
  coefficients : ∀ p ∈ a.terms.entries, p.2.isNaN = false
  constant : a.constant.isNaN = false

namespace Plain

theorem significant (plain : a.Plain) :
    ∀ p ∈ a.significantTerms, p.2.isNaN = false ∧ Tolerance.isNearZero p.2 = false := by
  intro p present
  obtain ⟨stored, kept⟩ := List.mem_filter.mp present
  exact ⟨plain.coefficients p stored, by simpa using kept⟩

theorem terms (plain : a.Plain) :
    ∀ term ∈ a.normal.terms,
      (IsPlainName term.1 ∧ IsSigned term.2) ∧ Text.Solid term.1.toList := by
  intro term present
  obtain ⟨p, listed, rfl⟩ := List.mem_map.mp present
  obtain ⟨number, significant⟩ := plain.significant p listed
  have stored : p.1 ∈ a.vars := List.mem_map_of_mem (List.mem_filter.mp listed).1
  exact ⟨⟨plain.names p.1 stored, isSigned_evened number significant⟩, p.1.name_unspaced⟩

theorem isSigned_constant (plain : a.Plain) : IsSigned a.normal.constant := by
  unfold normal
  dsimp only
  split
  case isTrue => exact ⟨rfl, by decide +kernel⟩
  case isFalse significant =>
    refine ⟨plain.constant, ?_⟩
    intro zero
    rw [zero] at significant
    exact significant rfl

/-- The text of an expression is made of the words of its normal form. -/
theorem toList_text (plain : a.Plain) : a.text.toList = (spread a.normal.words).drop 1 := by
  have parted : (a.parts.flatMap fun part => ' ' :: part.toList) = spread a.normal.words := by
    rw [parts_eq, Normal.words, normal]
    cases listed : a.significantTerms with
    | nil => exact constant_spread plain.constant true
    | cons p rest =>
        have numbers := plain.significant
        rw [listed] at numbers
        obtain ⟨⟨head, significant⟩, tail⟩ := List.forall_mem_cons.mp numbers
        dsimp only
        rw [List.map_cons, wordsFrom, List.cons_append, List.flatMap_cons, List.isEmpty_cons,
          terms_spread tail plain.constant, spread_append, ← termText_spread head significant]
  rw [← parted, text]
  cases a.parts with
  | nil => rfl
  | cons part rest => exact toList_intercalate_space part rest

theorem words_text (plain : a.Plain) : Text.words a.text.toList = a.normal.words := by
  rw [plain.toList_text]
  exact words_drop_spread (solid_wordsFrom plain.terms plain.isSigned_constant true)

theorem readText_text (plain : a.Plain) : readText a.text = a.normal := by
  rw [readText, plain.words_text]
  exact readFrom_wordsFrom (fun term present => (plain.terms term present).1)
    plain.isSigned_constant true

end Plain

/-- The names of a normal form are in order, and each is there once. -/
theorem normal_increasing (a : Expression Float) :
    (a.normal.terms.map Prod.fst).Pairwise (· < ·) := by
  have kept : (a.normal.terms.map Prod.fst).Sublist (a.terms.keys.map Named.name) := by
    rw [normal, List.map_map, Table.keys, List.map_map]
    exact List.filter_sublist.map _
  exact a.terms.names_increasing.sublist kept

/-- A coefficient that counts as one, one that counts as zero, and a constant. -/
def nearly : Expression Float :=
  .ofTerms [(.named .binary "x", 1.00000001), (.named .binary "y", -0.000000001)] (-2.5)

/-- The first term with the coefficient one, and the constant. -/
def exactly : Expression Float :=
  .ofTerms [(.named .integer "x", 1.0)] (-2.5)

end MixedInteger.Expression
