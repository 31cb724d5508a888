import MixedInteger.Proofs.Solid
import MixedInteger.Xml

/-!
# Written markup

A tag that is written with escaped attributes is read back as it was meant: each attribute
has the value that was escaped, and reading goes on directly after the tag.
-/

namespace MixedInteger.Xml

/-! ## Escaped characters -/

/-- The body of the predefined reference to a character. -/
def reference? (c : Char) : Option (List Char) :=
  (Markup.predefined.find? fun p => p.2 == c).map fun p => p.1.toList

/-- A character that has a predefined reference is written as that. -/
def escapedChar (c : Char) : List Char :=
  match reference? c with
  | some body => '&' :: body ++ [';']
  | none => [c]

def escaped (text : List Char) : List Char :=
  text.flatMap escapedChar

theorem isSpace_eq_false {c : Char} (clear : Text.isBlank c = false) : isSpace c = false := by
  rw [Bool.eq_false_iff]
  intro space
  simp only [isSpace, Bool.or_eq_true, beq_iff_eq] at space
  rcases space with ((rfl | rfl) | rfl) | rfl <;> cases clear

/-- A predefined reference stands for its character, and its body is a plain word. -/
theorem predefined_spec : ∀ p ∈ Markup.predefined, Markup.referenced? p.1.toList = some p.2 ∧
    ∀ d ∈ p.1.toList, d ≠ ';' ∧ d ≠ '"' ∧ d ≠ '<' := by
  have checked : (Markup.predefined.all fun p =>
      (Markup.referenced? p.1.toList == some p.2) &&
        p.1.toList.all fun d => (d != ';') && (d != '"') && (d != '<')) = true := by
    decide
  intro p present
  have checked := List.all_eq_true.mp checked p present
  simp only [Bool.and_eq_true, beq_iff_eq, List.all_eq_true, bne_iff_ne, and_assoc] at checked
  exact checked

theorem referenced?_of_reference? {c : Char} {body : List Char}
    (written : reference? c = some body) :
    Markup.referenced? body = some c ∧ ∀ d ∈ body, d ≠ ';' ∧ d ≠ '"' ∧ d ≠ '<' := by
  obtain ⟨p, found, rfl⟩ := Option.map_eq_some_iff.mp written
  have same := List.find?_some found
  rw [← eq_of_beq same]
  exact predefined_spec p (List.mem_of_find?_eq_some found)

/-- What is written for a character neither ends a value nor begins a tag. -/
theorem apart_of_mem_escapedChar {c d : Char} (present : d ∈ escapedChar c) :
    d ≠ '"' ∧ d ≠ '<' := by
  unfold escapedChar at present
  cases written : reference? c with
  | some body =>
      rw [written] at present
      obtain ⟨-, apart⟩ := referenced?_of_reference? written
      rcases List.mem_cons.mp present with rfl | present
      · decide
      · rcases List.mem_append.mp present with inside | last
        · exact (apart d inside).2
        · cases List.mem_singleton.mp last
          decide
  | none =>
      rw [written] at present
      cases List.mem_singleton.mp present
      constructor <;> rintro rfl <;> cases written

theorem apart_of_mem_escaped {text : List Char} {d : Char} (present : d ∈ escaped text) :
    d ≠ '"' ∧ d ≠ '<' := by
  obtain ⟨c, -, written⟩ := List.mem_flatMap.mp present
  exact apart_of_mem_escapedChar written

/-- A document may hold what is written for a character that it may hold. -/
theorem all_escaped {text : List Char} (allowed : text.all isDocumentChar = true) :
    (escaped text).all isDocumentChar = true := by
  have bodies : ∀ p ∈ Markup.predefined, p.1.toList.all isDocumentChar = true := by
    decide
  have each : ∀ c, isDocumentChar c = true → (escapedChar c).all isDocumentChar = true := by
    intro c allowed
    unfold escapedChar
    cases written : reference? c with
    | some body =>
        obtain ⟨p, found, rfl⟩ := Option.map_eq_some_iff.mp written
        have body := bodies p (List.mem_of_find?_eq_some found)
        simp only [List.all_cons, List.all_append, body]
        decide
    | none => simp only [List.all_cons, allowed, List.all_nil, Bool.and_self]
  rw [escaped, List.all_flatMap]
  exact List.all_eq_true.mpr fun c present => each c (List.all_eq_true.mp allowed c present)

namespace Markup

/-- A reference is resolved at its semicolon. -/
theorem valueFrom_reference (acc body rest : List Char) (clear : ∀ d ∈ body, d ≠ ';') :
    valueFrom (some acc) (body ++ ';' :: rest) =
      match referenced? (acc.reverse ++ body), valueFrom none rest with
      | some d, some value => some (d :: value)
      | _, _ => none := by
  induction body generalizing acc with
  | nil =>
      rw [List.append_nil]
      rfl
  | cons d body ih =>
      obtain ⟨other, clear⟩ := List.forall_mem_cons.mp clear
      rw [List.cons_append, valueFrom, if_neg other, ih (d :: acc) clear, List.reverse_cons,
        List.append_assoc, List.singleton_append]

/-- A character that is no blank is read back, whether it is written as a reference or not. -/
theorem valueFrom_escapedChar {c : Char} (clear : Text.isBlank c = false) (rest : List Char) :
    valueFrom none (escapedChar c ++ rest) = (valueFrom none rest).map (c :: ·) := by
  unfold escapedChar
  cases written : reference? c with
  | some body =>
      obtain ⟨stands, apart⟩ := referenced?_of_reference? written
      dsimp only
      rw [List.append_assoc, List.cons_append, List.singleton_append]
      change valueFrom (some []) _ = _
      rw [valueFrom_reference [] body rest fun d present => (apart d present).1]
      rw [List.reverse_nil, List.nil_append, stands]
      cases valueFrom none rest <;> rfl
  | none =>
      have other : c ≠ '&' := by
        rintro rfl
        cases written
      have unreturned : c ≠ '\r' := by
        rintro rfl
        cases clear
      rw [List.singleton_append, valueFrom, if_neg other, isSpace_eq_false clear]
      · rfl
      · exact fun _ returned => absurd returned unreturned

/-- The value of an escaped text is the text. -/
theorem valueFrom_escaped {text : List Char} (solid : Text.Solid text) :
    valueFrom none (escaped text) = some text := by
  induction text with
  | nil => rfl
  | cons c rest ih =>
      obtain ⟨clear, solid⟩ := Text.solid_cons.mp solid
      change valueFrom none (escapedChar c ++ escaped rest) = _
      rw [valueFrom_escapedChar clear, ih solid]
      rfl

/-! ## Tags -/

/-- A name that a tag may hold, without a colon. -/
def isPlainName (name : List Char) : Bool :=
  startsName name && name.all fun c => isNameChar c && c != ':'

/-- A plain name ends where a character stands that continues no name. -/
theorem qualifiedName?_plain {name : List Char} (plain : isPlainName name = true) {c : Char}
    (stop : isNameChar c = false) (rest : List Char) :
    qualifiedName? (name ++ c :: rest) = some (⟨"", String.ofList name⟩, c :: rest) := by
  obtain ⟨starts, all⟩ := Bool.and_eq_true_iff.mp plain
  have inside : ∀ d ∈ name, isNameChar d = true ∧ (d == ':') = false := by
    intro d present
    simpa using List.all_eq_true.mp all d present
  have taken : (name ++ c :: rest).takeWhile isNameChar = name := by
    rw [List.takeWhile_append_of_pos fun d present => (inside d present).1,
      List.takeWhile_cons_of_neg (by simp [stop]), List.append_nil]
  have left : (name ++ c :: rest).dropWhile isNameChar = c :: rest := by
    rw [List.dropWhile_append_of_pos fun d present => (inside d present).1,
      List.dropWhile_cons_of_neg (by simp [stop])]
  unfold qualifiedName?
  dsimp only
  rw [taken, left, List.splitOnP_eq_singleton fun d present => (inside d present).2]
  exact if_pos starts

/-- The first quote ends a value. -/
theorem cut?_quote {value : List Char} (clear : ∀ d ∈ value, d ≠ '"') (rest : List Char) :
    cut? ['"'] (value ++ '"' :: rest) = some (value, rest) := by
  induction value with
  | nil => rfl
  | cons d value ih =>
      obtain ⟨other, clear⟩ := List.forall_mem_cons.mp clear
      have missed : after? ['"'] (d :: (value ++ '"' :: rest)) = none := if_neg other.symm
      rw [List.cons_append, cut?, missed, ih clear]
      rfl

/-- An attribute as it is written in a tag, with the space before it. -/
def attributeText (p : List Char × List Char) : List Char :=
  ' ' :: p.1 ++ '=' :: '"' :: escaped p.2 ++ ['"']

theorem attribute?_written {name : List Char} (plain : isPlainName name = true)
    (value rest : List Char) :
    attribute? (name ++ '=' :: '"' :: escaped value ++ '"' :: rest) =
      some (⟨"", String.ofList name⟩, escaped value, rest) := by
  have unquoted : ∀ d ∈ escaped value, d ≠ '"' := fun d present => (apart_of_mem_escaped present).1
  have untagged : (escaped value).contains '<' = false := by
    rw [Bool.eq_false_iff]
    intro present
    exact (apart_of_mem_escaped (List.contains_iff_mem.mp present)).2 rfl
  have cut := cut?_quote unquoted rest
  unfold attribute?
  rw [List.append_assoc, List.cons_append, qualifiedName?_plain plain (by decide)]
  change ((cut? ['"'] (escaped value ++ '"' :: rest)).bind fun p =>
    if p.1.contains '<' then none else some (_, p.1, p.2)) = _
  rw [cut?_quote unquoted, Option.bind_some, untagged]
  rfl

/-- Attributes with their names and values. -/
def writtenAttributes (attributes : List (List Char × List Char)) : List WrittenAttribute :=
  attributes.map fun p => ⟨⟨"", String.ofList p.1⟩, String.ofList p.2⟩

/-- Attributes whose names are plain and whose values are solid. -/
def Writable (attributes : List (List Char × List Char)) : Prop :=
  ∀ p ∈ attributes, isPlainName p.1 = true ∧ Text.Solid p.2

/-- A character that begins a name is no blank and begins nothing else. -/
theorem apart_of_isNameStart {c : Char} (start : isNameStart c = true) :
    isSpace c = false ∧ c ≠ '/' ∧ c ≠ '>' ∧ c ≠ '!' ∧ c ≠ '?' := by
  have other : ∀ d : Char, isNameStart d = false → c ≠ d := by
    rintro d plain rfl
    cases start.symm.trans plain
  refine ⟨?_, other _ (by decide), other _ (by decide), other _ (by decide), other _ (by decide)⟩
  rw [Bool.eq_false_iff]
  intro space
  simp only [isSpace, Bool.or_eq_true, beq_iff_eq] at space
  rcases space with ((rfl | rfl) | rfl) | rfl <;> cases start

theorem startsName_append {name : List Char} (plain : isPlainName name = true)
    (rest : List Char) : startsName (name ++ rest) = true := by
  obtain ⟨starts, -⟩ := Bool.and_eq_true_iff.mp plain
  cases name with
  | nil => cases starts
  | cons c tail => exact starts

/-- An attribute is read after the space before it, and then the rest of the tag. -/
theorem attributes?_cons {text : List Char} (starts : startsName text = true) (count : Nat) :
    attributes? (count + 1) (' ' :: text) =
      (attribute? text).bind fun p => (valueFrom none p.2.1).bind fun value =>
        (attributes? count p.2.2).bind fun q =>
          some (⟨p.1, String.ofList value⟩ :: q.1, q.2.1, q.2.2) := by
  cases text with
  | nil => cases starts
  | cons c rest =>
      obtain ⟨visible, slash, bracket, -⟩ := apart_of_isNameStart starts
      have left : withoutSpaces (' ' :: c :: rest) = c :: rest := by
        rw [withoutSpaces, List.dropWhile_cons_of_pos rfl,
          List.dropWhile_cons_of_neg (by simp [visible])]
      rw [attributes?, left]
      split
      case h_1 same => exact absurd (List.cons.inj same).1 slash
      case h_2 same => exact absurd (List.cons.inj same).1 bracket
      case h_3 => rfl

/-- Written attributes are read back, up to the end of the tag. -/
theorem attributes?_written {attributes : List (List Char × List Char)}
    (writable : Writable attributes) (count : Nat) (rest : List Char) :
    attributes? (count + attributes.length + 1)
        (attributes.flatMap attributeText ++ '/' :: '>' :: rest) =
      some (writtenAttributes attributes, true, rest) := by
  induction attributes with
  | nil => rfl
  | cons p attributes ih =>
      obtain ⟨⟨plain, solid⟩, writable⟩ := List.forall_mem_cons.mp writable
      have shown : (p :: attributes).flatMap attributeText ++ '/' :: '>' :: rest =
          ' ' :: (p.1 ++ '=' :: '"' :: escaped p.2 ++
            '"' :: (attributes.flatMap attributeText ++ '/' :: '>' :: rest)) := by
        simp [attributeText]
      have starts : startsName (p.1 ++ '=' :: '"' :: escaped p.2 ++
          '"' :: (attributes.flatMap attributeText ++ '/' :: '>' :: rest)) = true := by
        rw [List.append_assoc]
        exact startsName_append plain _
      rw [shown, List.length_cons, ← Nat.add_assoc, attributes?_cons starts,
        attribute?_written plain, Option.bind_some]
      dsimp only
      rw [valueFrom_escaped solid, Option.bind_some, ih writable]
      rfl

/-- An element without content, as it is written. -/
def elementText (name : List Char) (attributes : List (List Char × List Char)) : List Char :=
  '<' :: name ++ attributes.flatMap attributeText ++ "/>".toList

theorem all_elementText {name : List Char} (named : name.all isDocumentChar = true)
    {attributes : List (List Char × List Char)}
    (allowed : ∀ p ∈ attributes, p.1.all isDocumentChar = true ∧ p.2.all isDocumentChar = true) :
    (elementText name attributes).all isDocumentChar = true := by
  have each : ∀ p ∈ attributes, (attributeText p).all isDocumentChar = true := by
    intro p present
    obtain ⟨plain, value⟩ := allowed p present
    simp only [attributeText, List.all_cons, List.all_append, plain, all_escaped value]
    decide
  have all : (attributes.flatMap attributeText).all isDocumentChar = true := by
    rw [List.all_flatMap]
    exact List.all_eq_true.mpr each
  simp only [elementText, List.all_cons, List.all_append, named, all]
  decide

/-- The piece of markup that an element without content is. -/
def elementPiece (name : List Char) (attributes : List (List Char × List Char)) : Piece :=
  .empty ⟨"", String.ofList name⟩ (writtenAttributes attributes)

theorem length_attributeTexts (attributes : List (List Char × List Char)) :
    attributes.length ≤ (attributes.flatMap attributeText).length := by
  induction attributes with
  | nil => exact Nat.zero_le _
  | cons p attributes ih =>
      rw [List.flatMap_cons, List.length_append, List.length_cons, attributeText]
      simp only [List.cons_append, List.length_cons]
      omega

/-- What follows the name of an element without content is no part of the name. -/
theorem exists_stop (attributes : List (List Char × List Char)) (rest : List Char) :
    ∃ c tail, attributes.flatMap attributeText ++ '/' :: '>' :: rest = c :: tail ∧
      isNameChar c = false := by
  cases attributes with
  | nil => exact ⟨'/', _, rfl, by decide⟩
  | cons p attributes => exact ⟨' ', _, rfl, by decide⟩

theorem openingTag?_element {name : List Char} (plain : isPlainName name = true)
    {attributes : List (List Char × List Char)} (writable : Writable attributes)
    (rest : List Char) :
    openingTag? (name ++ (attributes.flatMap attributeText ++ '/' :: '>' :: rest)) =
      some (elementPiece name attributes, rest) := by
  have enough : ∃ count, (attributes.flatMap attributeText ++ '/' :: '>' :: rest).length + 1 =
      count + attributes.length + 1 := by
    have := length_attributeTexts attributes
    refine ⟨(attributes.flatMap attributeText).length + rest.length + 2 - attributes.length, ?_⟩
    simp only [List.length_append, List.length_cons]
    omega
  obtain ⟨count, enough⟩ := enough
  have read := attributes?_written writable count rest
  rw [← enough] at read
  obtain ⟨c, tail, shape, stop⟩ := exists_stop attributes rest
  rw [shape] at read ⊢
  unfold openingTag?
  rw [qualifiedName?_plain plain stop]
  change (attributes? ((c :: tail).length + 1) (c :: tail)).bind _ = _
  rw [read]
  rfl

theorem openingTag?_open {name : List Char} (plain : isPlainName name = true) (rest : List Char) :
    openingTag? (name ++ '>' :: rest) = some (.opening ⟨"", String.ofList name⟩ [], rest) := by
  unfold openingTag?
  rw [qualifiedName?_plain plain (by decide)]
  rfl

theorem closingTag?_written {name : List Char} (plain : isPlainName name = true)
    (rest : List Char) :
    closingTag? (name ++ '>' :: rest) = some (.closing ⟨"", String.ofList name⟩, rest) := by
  unfold closingTag?
  rw [qualifiedName?_plain plain (by decide)]
  rfl

/-! ## Content -/

/-- A tag inside an element is read, and then what follows it. -/
theorem content?_tag {text : List Char} (starts : startsName text = true) (count depth : Nat) :
    content? (count + 1) depth ('<' :: text) =
      (openingTag? text).bind fun p =>
        (content? count (match p.1 with
          | .opening _ _ => depth + 1
          | _ => depth) p.2).bind fun q => some (p.1 :: q.1, q.2) := by
  cases text with
  | nil => cases starts
  | cons c rest =>
      obtain ⟨-, slash, -, mark, query⟩ := apart_of_isNameStart starts
      -- The other forms of markup have another character after their bracket.
      rw [content?]
      · rfl
      · exact fun _ same => slash (List.cons.inj same).1
      · exact fun _ same => mark (List.cons.inj same).1
      · exact fun _ same => mark (List.cons.inj same).1
      · exact fun _ same => query (List.cons.inj same).1

theorem content?_element {name : List Char} (plain : isPlainName name = true)
    {attributes : List (List Char × List Char)} (writable : Writable attributes)
    (count depth : Nat) (rest : List Char) :
    content? (count + 1) depth (elementText name attributes ++ rest) =
      (content? count depth rest).bind fun q =>
        some (elementPiece name attributes :: q.1, q.2) := by
  have shown : elementText name attributes ++ rest =
      '<' :: (name ++ (attributes.flatMap attributeText ++ '/' :: '>' :: rest)) := by
    simp [elementText]
  rw [shown, content?_tag (startsName_append plain _), openingTag?_element plain writable]
  rfl

theorem content?_open {name : List Char} (plain : isPlainName name = true) (count depth : Nat)
    (rest : List Char) :
    content? (count + 1) depth ('<' :: (name ++ '>' :: rest)) =
      (content? count (depth + 1) rest).bind fun q =>
        some (.opening ⟨"", String.ofList name⟩ [] :: q.1, q.2) := by
  rw [content?_tag (startsName_append plain _), openingTag?_open plain]
  rfl

theorem content?_close {name : List Char} (plain : isPlainName name = true) (count depth : Nat)
    (rest : List Char) :
    content? (count + 1) (depth + 1) ('<' :: '/' :: (name ++ '>' :: rest)) =
      (content? count depth rest).bind fun q =>
        some (.closing ⟨"", String.ofList name⟩ :: q.1, q.2) := by
  rw [content?, closingTag?_written plain]
  rfl

theorem content?_end {name : List Char} (plain : isPlainName name = true) (count : Nat)
    (rest : List Char) :
    content? (count + 1) 0 ('<' :: '/' :: (name ++ '>' :: rest)) =
      some ([.closing ⟨"", String.ofList name⟩], rest) := by
  rw [content?, closingTag?_written plain]
  rfl

/-- Elements without content are read one after the other. -/
theorem content?_elements {name : List Char} (plain : isPlainName name = true)
    {elements : List (List (List Char × List Char))}
    (writable : ∀ attributes ∈ elements, Writable attributes) (count depth : Nat)
    (rest : List Char) :
    content? (count + elements.length) depth (elements.flatMap (elementText name) ++ rest) =
      (content? count depth rest).bind fun q =>
        some (elements.map (elementPiece name) ++ q.1, q.2) := by
  induction elements with
  | nil =>
      change content? count depth rest = (content? count depth rest).bind some
      rw [Option.bind_fun_some]
  | cons attributes elements ih =>
      obtain ⟨head, tail⟩ := List.forall_mem_cons.mp writable
      rw [List.flatMap_cons, List.append_assoc, List.length_cons, ← Nat.add_assoc,
        content?_element plain head, ih tail, Option.bind_assoc]
      rfl

end Markup

end MixedInteger.Xml
