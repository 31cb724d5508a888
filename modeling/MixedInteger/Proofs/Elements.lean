import Mathlib.Data.Prod.Lex
import MixedInteger.Proofs.Entries
import MixedInteger.Report.Document

/-!
# Reports as trees

The first header below the root decides on the objective, and the items are the variable
elements directly inside the variables elements directly below the root, in the order of
the document: by the position of the outer element, then by that of the inner one.
Whatever else the tree holds is passed over.
-/

namespace MixedInteger

namespace Xml.Node

/-- The nodes inside an element are replaced; its name and its attributes are kept. -/
def mapChildren (f : List Node → List Node) : Node → Node
  | element name attributes children => element name attributes (f children)
  | node => node

variable {f : List Node → List Node} {node : Node}

theorem hasName_mapChildren (name : String) :
    (node.mapChildren f).hasName name = node.hasName name := by
  cases node <;> rfl

theorem attribute?_mapChildren (name : String) :
    (node.mapChildren f).attribute? name = node.attribute? name := by
  cases node <;> rfl

theorem children_mapChildren (empty : f [] = []) :
    (node.mapChildren f).children = f node.children := by
  cases node with
  | element => rfl
  | characters => exact empty.symm
  | comment => exact empty.symm
  | instruction => exact empty.symm

end Xml.Node

namespace Report

/-- The item of an element: its name, and its value if that is a finite number. -/
def Item.ofElement (element : Xml.Node) : Item :=
  ⟨element.attribute? "name", (element.attribute? "value").bind fun token => finite? token.toList⟩

/-- The nodes inside a variables element. -/
def blockOf? (node : Xml.Node) : Option (List Xml.Node) :=
  if node.hasName "variables" then some node.children else none

/-- The item of a variable element. -/
def itemOf? (node : Xml.Node) : Option Item :=
  if node.hasName "variable" then some (.ofElement node) else none

/-- The item at a place: the position of the outer element and that of the inner one. -/
def variableAt? (root : Xml.Node) (place : ℕ ×ₗ ℕ) : Option Item :=
  (root.children[(ofLex place).1]?.bind blockOf?).bind fun block =>
    block[(ofLex place).2]?.bind itemOf?

/-- The first header directly below the root has the objective as an attribute. -/
inductive Heads : Xml.Node → Float → Prop where
  | first {root header : Xml.Node} {before after : List Xml.Node} {token : String}
      {objective : Float}
      (below : root.children = before ++ header :: after) (named : header.hasName "header" = true)
      (earlier : ∀ node ∈ before, node.hasName "header" = false)
      (given : header.attribute? "objectiveValue" = some token)
      (finite : finite? token.toList = some objective) : Heads root objective

/-- What the tree of a report comes to. -/
inductive TreeGives (vars : VariableSet) (root : Xml.Node) : Answer → Prop where
  | headless (nothing : ∀ objective, ¬ Heads root objective) : TreeGives vars root (.ok none)
  | headed {objective : Float} {answer : Answer} (heads : Heads root objective)
      (settled : Settles vars objective (variableAt? root) answer) : TreeGives vars root answer

variable {vars : VariableSet} {root : Xml.Node} {objective : Float}

/-! ## The header -/

theorem heads_iff : Heads root objective ↔ objectiveOfRoot? root = some objective := by
  unfold objectiveOfRoot?
  constructor
  · intro heads
    cases heads with
    | @first header before after token _ below named earlier given finite =>
        have found : root.children.find? (fun node => node.hasName "header") = some header :=
          List.find?_eq_some_iff_append.mpr
            ⟨named, before, after, below, fun node member => by rw [earlier node member]; rfl⟩
        rw [found]
        change (header.attribute? "objectiveValue").bind _ = _
        rw [given, Option.bind_some, finite]
  · intro read
    obtain ⟨header, found, read⟩ := Option.bind_eq_some_iff.mp read
    obtain ⟨token, given, finite⟩ := Option.bind_eq_some_iff.mp read
    obtain ⟨named, before, after, below, others⟩ := List.find?_eq_some_iff_append.mp found
    exact .first below named (fun node member => by simpa using others node member) given finite

/-! ## The items -/

/-- The items of a tree with their places. -/
def locatedVariables (root : Xml.Node) : List ((ℕ ×ₗ ℕ) × Item) :=
  (located blockOf? root.children).flatMap fun block =>
    (located itemOf? block.2).map fun item => (toLex (block.1, item.1), item.2)

theorem lists_variableAt : Lists (variableAt? root) (locatedVariables root) := by
  constructor
  · refine List.pairwise_flatMap.mpr ⟨fun block _ => ?_, ?_⟩
    · refine List.pairwise_map.mpr (located_increasing.imp fun before => ?_)
      exact Prod.Lex.toLex_lt_toLex.mpr (.inr ⟨rfl, before⟩)
    · refine located_increasing.imp fun {block other} before => ?_
      intro p inside q insideToo
      obtain ⟨item, -, rfl⟩ := List.mem_map.mp inside
      obtain ⟨itemToo, -, rfl⟩ := List.mem_map.mp insideToo
      exact Prod.Lex.toLex_lt_toLex.mpr (.inl before)
  · rintro ⟨place, item⟩
    unfold locatedVariables variableAt?
    rw [List.mem_flatMap, Option.bind_eq_some_iff]
    constructor
    · rintro ⟨block, outer, inside⟩
      obtain ⟨p, inner, same⟩ := List.mem_map.mp inside
      cases same
      exact ⟨block.2, mem_located.mp outer, mem_located.mp inner⟩
    · rintro ⟨block, outer, inner⟩
      refine ⟨((ofLex place).1, block), mem_located.mpr outer, ?_⟩
      exact List.mem_map.mpr ⟨((ofLex place).2, item), mem_located.mpr inner, rfl⟩

/-- The items are those of the variable elements, in the same order. -/
theorem map_locatedVariables :
    (locatedVariables root).map Prod.snd = (variableElements root).map Item.ofElement := by
  have items (nodes : List Xml.Node) : nodes.filterMap itemOf? =
      (nodes.filter fun node => node.hasName "variable").map Item.ofElement := by
    rw [← List.filterMap_eq_map', List.filterMap_filter]
    rfl
  have blocks : root.children.filterMap blockOf? =
      (root.children.filter fun node => node.hasName "variables").map Xml.Node.children := by
    rw [← List.filterMap_eq_map', List.filterMap_filter]
    rfl
  calc (locatedVariables root).map Prod.snd
      = (located blockOf? root.children).flatMap fun block => block.2.filterMap itemOf? := by
        unfold locatedVariables
        simp only [List.map_flatMap, List.map_map, ← map_located]
        rfl
    _ = (root.children.filterMap blockOf?).flatMap fun nodes => nodes.filterMap itemOf? := by
        rw [← map_located, List.flatMap_map]
    _ = (variableElements root).map Item.ofElement := by
        unfold variableElements
        simp only [blocks, items, List.flatMap_map, List.map_flatMap]

/-- An element is read as a pair, or the reader gives up at its value or for want of one. -/
theorem entryOfElement_cases (element : Xml.Node) :
    (∃ name token, element.attribute? "name" = some name ∧
      element.attribute? "value" = some token ∧
      ((∃ value, finite? token.toList = some value ∧ entryOfElement element = .ok (name, value)) ∨
        finite? token.toList = none ∧ entryOfElement element =
          .error (.tell (.rejected (.unusableValue name token)) (.give (.ok none))))) ∨
    ((element.attribute? "name" = none ∨ element.attribute? "value" = none) ∧
      entryOfElement element =
        .error (.tell (.rejected .incompleteVariable) (.give (.ok none)))) := by
  unfold entryOfElement
  cases element.attribute? "name" with
  | none => exact .inr ⟨.inl rfl, rfl⟩
  | some name =>
      cases element.attribute? "value" with
      | none => exact .inr ⟨.inr rfl, rfl⟩
      | some token =>
          refine .inl ⟨name, token, rfl, rfl, ?_⟩
          dsimp only
          cases finite? token.toList with
          | none => exact .inr ⟨rfl, rfl⟩
          | some value => exact .inl ⟨value, rfl, rfl⟩

theorem readAs_entryOfElement (element : Xml.Node) :
    (Item.ofElement element).ReadAs (entryOfElement element) := by
  rcases entryOfElement_cases element with
    ⟨name, token, named, given, ⟨value, finite, entry⟩ | ⟨unusable, entry⟩⟩ | ⟨lacking, entry⟩
  · rw [entry, Item.ofElement, named, given, Option.bind_some, finite]
    exact .pair rfl rfl
  · rw [entry, Item.ofElement, given, Option.bind_some, unusable]
    exact .unusable (.inr rfl) rfl
  · rw [entry]
    exact .unusable (lacking.imp_right fun none => by rw [Item.ofElement, none]; rfl) rfl

theorem readAs_located_elements : List.Forall₂ (fun p entry => p.2.ReadAs entry)
    (locatedVariables root) ((variableElements root).map entryOfElement) := by
  have read : List.Forall₂ (fun (item : Item) entry => item.ReadAs entry)
      ((locatedVariables root).map Prod.snd) ((variableElements root).map entryOfElement) := by
    rw [map_locatedVariables, List.forall₂_map_left_iff, List.forall₂_map_right_iff]
    exact List.forall₂_same.mpr fun element _ => readAs_entryOfElement element
  exact List.forall₂_map_left_iff.mp read

theorem isFinite_of_variableAt {place : ℕ ×ₗ ℕ} {item : Item} {value : Float}
    (there : variableAt? root place = some item) (valued : item.value? = some value) :
    value.isFinite = true := by
  obtain ⟨block, -, inner⟩ := Option.bind_eq_some_iff.mp there
  obtain ⟨element, -, given⟩ := Option.bind_eq_some_iff.mp inner
  unfold itemOf? at given
  split at given
  case isTrue =>
      cases given
      obtain ⟨token, -, finite⟩ := Option.bind_eq_some_iff.mp valued
      exact isFinite_of_finite? finite
  case isFalse => cases given

/-! ## The whole tree -/

theorem Heads.isFinite (heads : Heads root objective) : objective.isFinite = true := by
  cases heads with
  | first _ _ _ _ finite => exact isFinite_of_finite? finite

/-- Without a header that has the objective the reader gives up. -/
theorem readRoot_of_headless (nothing : ∀ objective, ¬ Heads root objective) :
    readRoot vars root = .tell (.rejected .noObjective) (.give (.ok none)) := by
  have unread : objectiveOfRoot? root = none :=
    Option.eq_none_iff_forall_ne_some.mpr fun objective read =>
      nothing objective (heads_iff.mpr read)
  rw [readRoot, unread]

theorem readRoot_of_heads (heads : Heads root objective) :
    readRoot vars root =
      ofEntries vars objective ((variableElements root).map entryOfElement) := by
  rw [readRoot, heads_iff.mp heads]

/-- The reader gives the answer that the tree comes to. -/
theorem answer_readRoot_iff {answer : Answer} :
    (readRoot vars root).answer = answer ↔ TreeGives vars root answer := by
  by_cases headed : ∃ objective, Heads root objective
  · obtain ⟨objective, heads⟩ := headed
    rw [readRoot_of_heads heads, answer_ofEntries_iff lists_variableAt readAs_located_elements]
    constructor
    · exact .headed heads
    · intro gives
      cases gives with
      | headless nothing => exact absurd heads (nothing _)
      | headed headsToo settled =>
          cases (heads_iff.mp heads).symm.trans (heads_iff.mp headsToo)
          exact settled
  · have nothing : ∀ objective, ¬ Heads root objective := not_exists.mp headed
    rw [readRoot_of_headless nothing]
    constructor
    · rintro rfl
      exact .headless nothing
    · intro gives
      cases gives with
      | headless => rfl
      | headed heads => exact absurd heads (nothing _)

/-! ## What is passed over -/

/-- An element without the nodes inside it. -/
def stripped (node : Xml.Node) : Xml.Node :=
  node.mapChildren fun _ => []

/-- An element directly below the root with nothing but the variable elements inside it. -/
def thinned (node : Xml.Node) : Xml.Node :=
  node.mapChildren fun inner => (inner.filter fun node => node.hasName "variable").map stripped

/-- The tree without all elements at other depths or inside other elements. -/
def pruned (root : Xml.Node) : Xml.Node :=
  root.mapChildren fun outer =>
    (outer.filter fun node => node.hasName "header" || node.hasName "variables").map thinned

theorem children_pruned : (pruned root).children =
    (root.children.filter fun node => node.hasName "header" || node.hasName "variables").map
      thinned :=
  Xml.Node.children_mapChildren rfl

theorem hasName_thinned (node : Xml.Node) (name : String) :
    (thinned node).hasName name = node.hasName name :=
  Xml.Node.hasName_mapChildren name

theorem hasName_stripped (node : Xml.Node) (name : String) :
    (stripped node).hasName name = node.hasName name :=
  Xml.Node.hasName_mapChildren name

theorem objectiveOfRoot?_pruned : objectiveOfRoot? (pruned root) = objectiveOfRoot? root := by
  have header : (pruned root).children.find? (fun node => node.hasName "header") =
      (root.children.find? fun node => node.hasName "header").map thinned := by
    rw [children_pruned, List.find?_map, List.find?_filter]
    congr 2
    funext node
    simp only [Function.comp, hasName_thinned]
    cases node.hasName "header" <;> simp
  unfold objectiveOfRoot?
  rw [header]
  cases root.children.find? fun node => node.hasName "header" with
  | none => rfl
  | some header =>
      change ((thinned header).attribute? "objectiveValue").bind _ = _
      rw [thinned, Xml.Node.attribute?_mapChildren]
      rfl

theorem variableElements_pruned :
    variableElements (pruned root) = (variableElements root).map stripped := by
  have outer : (pruned root).children.filter (fun node => node.hasName "variables") =
      (root.children.filter fun node => node.hasName "variables").map thinned := by
    rw [children_pruned, List.filter_map, List.filter_filter]
    congr 2
    funext node
    simp only [Function.comp, hasName_thinned]
    cases node.hasName "variables" <;> simp
  have inner (node : Xml.Node) :
      (thinned node).children.filter (fun node => node.hasName "variable") =
      (node.children.filter fun node => node.hasName "variable").map stripped := by
    rw [thinned, Xml.Node.children_mapChildren rfl, List.filter_map, List.filter_filter]
    congr 2
    funext node
    simp only [Function.comp, hasName_stripped, Bool.and_self]
  unfold variableElements
  rw [outer, List.flatMap_map, List.map_flatMap]
  simp only [inner]

theorem entryOfElement_stripped (element : Xml.Node) :
    entryOfElement (stripped element) = entryOfElement element := by
  unfold entryOfElement stripped
  rw [Xml.Node.attribute?_mapChildren, Xml.Node.attribute?_mapChildren]

/-- Elements at other depths or inside other elements make no difference. -/
theorem readRoot_pruned : readRoot vars (pruned root) = readRoot vars root := by
  unfold readRoot
  rw [objectiveOfRoot?_pruned, variableElements_pruned, List.map_map]
  simp only [Function.comp_def, entryOfElement_stripped]

/--
The answer to a report that is no document is that there is no solution; otherwise it is
the one that the tree of the document comes to.  Every value of a solution is finite, and
it is zero or at least the tolerance in magnitude.  Elements at other depths or inside
other elements make no difference.
-/
theorem answer_readXml (vars : VariableSet) :
    (∀ text, Xml.parse? text = none → (readXml vars text).answer = .ok none) ∧
    (∀ text root, Xml.parse? text = some root → readXml vars text = readRoot vars root) ∧
    ∀ root : Xml.Node,
      (∀ answer, (readRoot vars root).answer = answer ↔ TreeGives vars root answer) ∧
      (∀ solution, (readRoot vars root).answer = .ok (some solution) → solution.Snapped) ∧
      readRoot vars (pruned root) = readRoot vars root := by
  refine ⟨fun text malformed => ?_, fun text root parsed => ?_, fun root =>
    ⟨fun answer => answer_readRoot_iff, fun solution solved => ?_, readRoot_pruned⟩⟩
  · rw [readXml, malformed]
    rfl
  · rw [readXml, parsed]
  · cases answer_readRoot_iff.mp solved with
    | headed heads settled =>
        exact settled.snapped heads.isFinite
          fun place item value there valued => isFinite_of_variableAt there valued

/-- A tree with a second header, and with a variable element that is too deep. -/
def nestedTree : Xml.Node :=
  let variableElement (name value : String) : Xml.Node :=
    .element "variable" [⟨none, "name", name⟩, ⟨none, "value", value⟩] []
  .element "solution" [] [.element "header" [⟨none, "objectiveValue", "1"⟩] [],
    .element "header" [⟨none, "objectiveValue", "nan"⟩] [], .comment,
    .element "variables" [] [variableElement "x" " 2 ",
      .element "group" [] [variableElement "z" "3"]]]

/-- The first header and the variable at its place are read, and nothing else. -/
theorem nestedTree_read :
    let vars := VariableSet.ofList [.named .integer "x"]
    (∃ solution, TreeGives vars nestedTree (.ok (some solution)) ∧ solution.objective = 1.0 ∧
      solution.values.entries.map (fun p => (p.1.name, p.2)) = [("x", 2.0)]) ∧
    (readXml vars "<s>").answer = .ok none ∧
    readXml vars "<s/>" = readRoot vars (.element "s" [] []) := by
  intro vars
  obtain ⟨malformed, document, tree⟩ := answer_readXml vars
  have read : (readRoot vars nestedTree).answer.toOption.join.map (fun solution =>
      (solution.objective, solution.values.entries.map fun p => (p.1.name, p.2))) =
        some (1.0, [("x", 2.0)]) := by
    decide +kernel
  obtain ⟨solution, solved, shown⟩ := Option.map_eq_some_iff.mp read
  refine ⟨⟨solution, ?_, congrArg Prod.fst shown, congrArg Prod.snd shown⟩,
    malformed _ rfl, document _ _ rfl⟩
  exact ((tree nestedTree).1 _).mp (Answer.eq_of_solved solved)

end Report

end MixedInteger
