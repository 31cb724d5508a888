import MixedInteger.Proofs.Listing
import MixedInteger.Proofs.Markup

/-!
# Concord of the readers

Every listing can be written in lines and as a document, and the readers find it in what
was written.  So they agree on every listing, in whichever of the two forms each of them
is given it.
-/

namespace MixedInteger.Report.Listing

open Xml Xml.Markup

/-! ## Listings in lines -/

/-- The lines of a listing. -/
def lines (listing : Listing) : List (List Char) :=
  optimalStatus.toList :: ("objective value:".toList ++ ' ' :: listing.objective.chars) ::
    listing.values.map fun p => p.1.chars ++ ' ' :: p.2.chars

/-- The report of a listing in lines. -/
def text (listing : Listing) : String :=
  String.ofList (listing.lines.flatMap fun line => line ++ ['\n'])

theorem inLines_text (listing : Listing) : listing.InLines (Text.lines listing.text.toList) := by
  have status : Text.Spaced optimalStatus.toList := by
    simp [Text.Spaced, optimalStatus, Text.isBlank]
  have label : Text.Spaced "objective value:".toList := by
    simp [Text.Spaced, Text.isBlank]
  have spaced : ∀ line ∈ listing.lines, Text.Spaced line := by
    refine List.forall_mem_cons.mpr ⟨status, List.forall_mem_cons.mpr ⟨?_, ?_⟩⟩
    · exact Text.spaced_append.mpr ⟨label,
        List.forall_mem_cons.mpr ⟨.inl rfl, listing.objective.solid.spaced⟩⟩
    · intro line present
      obtain ⟨p, -, rfl⟩ := List.mem_map.mp present
      exact Text.spaced_append.mpr ⟨p.1.solid.spaced,
        List.forall_mem_cons.mpr ⟨.inl rfl, p.2.solid.spaced⟩⟩
  have last : (Text.words ("objective value:".toList ++ ' ' :: listing.objective.chars)).getLast? =
      some listing.objective.chars := by
    rw [Text.words_append_space, words_word, List.getLast?_concat]
  rw [text, String.toList_ofList, Text.lines_terminated spaced]
  exact .intro last

/-! ## Listings as documents -/

/-- The attributes of a variable element. -/
def valueAttributes (p : Word × Word) : List (List Char × List Char) :=
  [("name".toList, p.1.chars), ("value".toList, p.2.chars)]

/-- The attributes of the header. -/
def headerAttributes (listing : Listing) : List (List Char × List Char) :=
  [("objectiveValue".toList, listing.objective.chars)]

/-- What the document holds after its first tag. -/
def contentChars (listing : Listing) : List Char :=
  elementText "header".toList listing.headerAttributes ++
    '<' :: ("variables".toList ++ '>' ::
      ((listing.values.map valueAttributes).flatMap (elementText "variable".toList) ++
        '<' :: '/' :: ("variables".toList ++ '>' :: '<' :: '/' :: ("solution".toList ++ ['>']))))

/-- The document of a listing, as characters. -/
def documentChars (listing : Listing) : List Char :=
  '<' :: ("solution".toList ++ '>' :: listing.contentChars)

/-- The document of a listing. -/
def document (listing : Listing) : String := String.ofList listing.documentChars

/-! ## Reading the document -/

theorem writable_headerAttributes (listing : Listing) : Writable listing.headerAttributes :=
  List.forall_mem_singleton.mpr ⟨rfl, listing.objective.solid⟩

theorem writable_valueAttributes (p : Word × Word) : Writable (valueAttributes p) :=
  List.forall_mem_cons.mpr ⟨⟨rfl, p.1.solid⟩, List.forall_mem_singleton.mpr ⟨rfl, p.2.solid⟩⟩

/-- The markup of a listing. -/
def pieces (listing : Listing) : List Piece :=
  .opening ⟨"", "solution"⟩ [] :: elementPiece "header".toList listing.headerAttributes ::
    .opening ⟨"", "variables"⟩ [] ::
      ((listing.values.map valueAttributes).map (elementPiece "variable".toList) ++
        [.closing ⟨"", "variables"⟩, .closing ⟨"", "solution"⟩])

theorem all_chars (word : Word) : word.chars.all isDocumentChar = true :=
  List.all_eq_true.mpr word.documented

/-- The document holds no character that a document may not hold. -/
theorem all_documentChars (listing : Listing) :
    listing.documentChars.all isDocumentChar = true := by
  have header : (elementText "header".toList listing.headerAttributes).all isDocumentChar = true :=
    all_elementText (by decide) (List.forall_mem_singleton.mpr ⟨by rfl, all_chars _⟩)
  have values : ((listing.values.map valueAttributes).flatMap
      (elementText "variable".toList)).all isDocumentChar = true := by
    rw [List.all_flatMap, List.all_map]
    refine List.all_eq_true.mpr fun p _ => all_elementText (by decide) ?_
    exact List.forall_mem_cons.mpr ⟨⟨by rfl, all_chars _⟩,
      List.forall_mem_singleton.mpr ⟨by rfl, all_chars _⟩⟩
  simp only [documentChars, contentChars, List.all_cons, List.all_append, header, values]
  decide

theorem content?_contentChars (listing : Listing) (spare : Nat) :
    content? (spare + listing.values.length + 4) 0 listing.contentChars =
      some (listing.pieces.tail, []) := by
  have writable : ∀ attributes ∈ listing.values.map valueAttributes, Writable attributes := by
    intro attributes present
    obtain ⟨p, -, rfl⟩ := List.mem_map.mp present
    exact writable_valueAttributes p
  have values (rest : List Char) := content?_elements (show isPlainName "variable".toList = true
    by decide) writable (spare + 2) 1 rest
  rw [List.length_map] at values
  have count : spare + listing.values.length + 4 = spare + 2 + listing.values.length + 1 + 1 := by
    omega
  rw [contentChars, count, content?_element (by decide) listing.writable_headerAttributes,
    content?_open (by decide), values, content?_close (by decide), content?_end (by decide)]
  rfl

/-- There are enough characters to read each piece from one. -/
theorem length_contentChars (listing : Listing) :
    ∃ spare, listing.contentChars.length + 1 = spare + listing.values.length + 4 := by
  have values : listing.values.length ≤ ((listing.values.map valueAttributes).flatMap
      (elementText "variable".toList)).length := by
    induction listing.values with
    | nil => exact Nat.zero_le _
    | cons p rest ih =>
        rw [List.map_cons, List.flatMap_cons, List.length_append, List.length_cons]
        have first : 0 < (elementText "variable".toList (valueAttributes p)).length :=
          Nat.succ_pos _
        omega
  refine ⟨listing.contentChars.length - listing.values.length - 3, ?_⟩
  simp only [contentChars, List.length_append, List.length_cons]
  omega

theorem pieces?_documentChars (listing : Listing) :
    pieces? listing.documentChars = some listing.pieces := by
  have prolog : afterProlog? listing.documentChars = some listing.documentChars := rfl
  have remarks (count : Nat) :
      afterRemarks count listing.documentChars = listing.documentChars := by
    cases count <;> rfl
  have bracket : after? ['<'] listing.documentChars =
      some ("solution".toList ++ '>' :: listing.contentChars) := rfl
  obtain ⟨spare, enough⟩ := listing.length_contentChars
  unfold pieces?
  rw [listing.all_documentChars, prolog]
  dsimp only [Option.bind_eq_bind, Option.bind_some]
  rw [remarks, bracket, Option.bind_some, openingTag?_open (by decide), Option.bind_some]
  dsimp only
  rw [enough, listing.content?_contentChars]
  rfl

/-! ## The tree of the document -/

/-- The element of a name and a value. -/
def valueElement (p : Word × Word) : Xml.Node :=
  .element "variable" [⟨none, "name", p.1.text⟩, ⟨none, "value", p.2.text⟩] []

/-- The element of the objective. -/
def headerElement (listing : Listing) : Xml.Node :=
  .element "header" [⟨none, "objectiveValue", listing.objective.text⟩] []

/-- An element of a name and a value becomes a child of the innermost open element. -/
theorem ofPieces?_value (p : Word × Word) (top : Open) (bound : top.bindings = [])
    (stack : List Open) (rest : List Piece) :
    ofPieces? (top :: stack) (elementPiece "variable".toList (valueAttributes p) :: rest) =
      ofPieces? ({ top with children := valueElement p :: top.children } :: stack) rest := by
  obtain ⟨name, attributes, bindings, children⟩ := top
  cases bound
  rfl

theorem ofPieces?_values (values : List (Word × Word)) (top : Open) (bound : top.bindings = [])
    (stack : List Open) (rest : List Piece) :
    ofPieces? (top :: stack)
        ((values.map valueAttributes).map (elementPiece "variable".toList) ++ rest) =
      ofPieces? ({ top with
        children := (values.map valueElement).reverse ++ top.children } :: stack) rest := by
  induction values generalizing top with
  | nil => rfl
  | cons p values ih =>
      rw [List.map_cons, List.map_cons, List.cons_append, ofPieces?_value p top bound,
        ih { top with children := valueElement p :: top.children } bound, List.map_cons,
        List.reverse_cons, List.append_assoc, List.singleton_append]

/-- The tree of a listing. -/
def tree (listing : Listing) : Xml.Node :=
  .element "solution" [] [listing.headerElement,
    .element "variables" [] (listing.values.map valueElement)]

theorem parse?_document (listing : Listing) : Xml.parse? listing.document = some listing.tree := by
  rw [parse?, document, String.toList_ofList, listing.pieces?_documentChars, Option.bind_some]
  have opened : ofPieces? [] listing.pieces =
      ofPieces? [⟨⟨"", "variables"⟩, [], [], []⟩,
          ⟨⟨"", "solution"⟩, [], [], [listing.headerElement]⟩]
        ((listing.values.map valueAttributes).map (elementPiece "variable".toList) ++
          [.closing ⟨"", "variables"⟩, .closing ⟨"", "solution"⟩]) := rfl
  have closed (children : List Xml.Node) :
      ofPieces? [⟨⟨"", "variables"⟩, [], [], children⟩,
          ⟨⟨"", "solution"⟩, [], [], [listing.headerElement]⟩]
        [.closing ⟨"", "variables"⟩, .closing ⟨"", "solution"⟩] =
      some (.element "solution" [] [listing.headerElement,
        .element "variables" [] children.reverse]) := rfl
  rw [opened, ofPieces?_values listing.values _ rfl]
  dsimp only
  rw [closed, List.append_nil, List.reverse_reverse]
  rfl

theorem inTree_tree (listing : Listing) : listing.InTree listing.tree := by
  constructor
  · exact ⟨_, rfl, rfl⟩
  · refine ⟨_, rfl, ?_⟩
    change List.map _ (List.filter _ (List.map valueElement _)) = _
    have kept : (listing.values.map valueElement).filter (fun node => node.hasName "variable") =
        listing.values.map valueElement := by
      refine List.filter_eq_self.mpr fun element present => ?_
      obtain ⟨p, -, rfl⟩ := List.mem_map.mp present
      rfl
    rw [kept, List.map_map]
    rfl

/-! ## Agreement -/

/--
The readers come to the same answer on a listing that is in the lines of one text and in
the tree of the other, and every listing can be written in both ways.  A listing that gives
each variable of the model one finite value is read as a solution with just these values,
those below the tolerance being zero.
-/
theorem readers_agree (vars : VariableSet) (listing : Listing) :
    (∀ (text document : String) (root : Xml.Node), listing.InLines (Text.lines text.toList) →
      Xml.parse? document = some root → listing.InTree root →
      (readText vars text).answer = (readXml vars document).answer) ∧
    listing.InLines (Text.lines listing.text.toList) ∧
    (∃ root, Xml.parse? listing.document = some root ∧ listing.InTree root) ∧
    (listing.Covers vars → ∃ solution,
      (∀ text : String, listing.InLines (Text.lines text.toList) →
        (readText vars text).answer = .ok (some solution)) ∧
      (∀ (document : String) (root : Xml.Node), Xml.parse? document = some root →
        listing.InTree root → (readXml vars document).answer = .ok (some solution)) ∧
      finite? listing.objective.chars = some solution.objective ∧
      solution.values.keys = vars.keys ∧
      ∀ v ∈ vars.keys, ∀ p ∈ listing.values, p.1.text = v.name →
        ∃ value, finite? p.2.chars = some value ∧
          solution.get? v = some (Tolerance.snapped value)) := by
  have answersText (text : String) (inLines : listing.InLines (Text.lines text.toList)) :
      Answers vars listing (readText vars text).answer :=
    answers_readLines inLines
  have answersXml (document : String) (root : Xml.Node)
      (parsed : Xml.parse? document = some root) (inTree : listing.InTree root) :
      Answers vars listing (readXml vars document).answer := by
    rw [readXml, parsed]
    exact answers_readRoot inTree
  have lines := listing.inLines_text
  refine ⟨fun text document root inLines parsed inTree => ?_, lines,
    ⟨listing.tree, listing.parse?_document, listing.inTree_tree⟩, fun covers => ?_⟩
  · exact (answersText text inLines).unique (answersXml document root parsed inTree)
  · obtain ⟨solution, solved, rest⟩ := (answersText _ lines).of_covers covers
    have unique {answer : Answer} (answers : Answers vars listing answer) :
        answer = .ok (some solution) :=
      (answers.unique (answersText _ lines)).trans solved
    exact ⟨solution, fun text inLines => unique (answersText text inLines),
      fun document root parsed inTree => unique (answersXml document root parsed inTree), rest⟩

/-- A word, if the characters are those of one. -/
def wordOf (chars : List Char) (some : chars.isEmpty = false)
    (plain : (chars.all fun c => !Text.isBlank c && isDocumentChar c) = true) : Word where
  chars := chars
  nonempty := List.isEmpty_eq_false_iff.mp some
  solid c present := by
    have here := List.all_eq_true.mp plain c present
    exact (Bool.not_eq_true' _).mp (Bool.and_eq_true_iff.mp here).1
  documented c present := (Bool.and_eq_true_iff.mp (List.all_eq_true.mp plain c present)).2

/-- A listing whose names have characters with a meaning in markup, and a value near zero. -/
def marked : Listing where
  objective := wordOf "2.5".toList (by decide) (by decide)
  values := [
    (wordOf "y<&>".toList (by decide) (by decide), wordOf "-1e-8".toList (by decide) (by decide)),
    (wordOf "x\"1".toList (by decide) (by decide), wordOf "3".toList (by decide) (by decide))]

/-- Both readers find the two values, one of which is below the tolerance. -/
theorem marked_read :
    let vars := VariableSet.ofList [.named .integer "x\"1", .named .continuous "y<&>"]
    marked.Covers vars ∧
    (readText vars marked.text).answer = (readXml vars marked.document).answer ∧
    ∃ solution, (readXml vars marked.document).answer = .ok (some solution) ∧
      solution.objective = 2.5 ∧ solution.values.value? "x\"1" = some 3.0 ∧
      solution.values.value? "y<&>" = some 0.0 := by
  intro vars
  have covers : marked.Covers vars := ⟨by decide +kernel, by decide +kernel, by decide +kernel,
    by decide +kernel, by decide +kernel⟩
  obtain ⟨agree, lines, ⟨root, parsed, inTree⟩, solved⟩ := readers_agree vars marked
  obtain ⟨solution, -, readTree, objective, -, values⟩ := solved covers
  have stored (p : Word × Word) (present : p ∈ marked.values) :
      ∃ value, finite? p.2.chars = some value ∧
        solution.values.value? p.1.text = some (Tolerance.snapped value) := by
    obtain ⟨v, member, named⟩ := covers.known p present
    rw [← named]
    exact values v member p present named.symm
  obtain ⟨small, smallGiven, smallStored⟩ := stored _ List.mem_cons_self
  obtain ⟨large, largeGiven, largeStored⟩ :=
    stored _ (List.mem_cons_of_mem _ List.mem_cons_self)
  have smallShown : finite? "-1e-8".toList = some (-1e-8) := by decide +kernel
  have largeShown : finite? "3".toList = some 3.0 := by decide +kernel
  have objectiveShown : finite? "2.5".toList = some 2.5 := by decide +kernel
  refine ⟨covers, agree _ _ root lines parsed inTree, solution, readTree _ _ parsed inTree,
    Option.some.inj (objective.symm.trans objectiveShown), largeStored.trans ?_,
    smallStored.trans ?_⟩
  · rw [Option.some.inj (largeGiven.symm.trans largeShown)]
    decide +kernel
  · rw [Option.some.inj (smallGiven.symm.trans smallShown)]
    decide +kernel

end MixedInteger.Report.Listing
