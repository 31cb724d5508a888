import MixedInteger.Document

/-!
# Nodes of formulas

A formula is a tree whose sums have any number of branches.  Its nodes are listed
in the order in which they are evaluated: from left to right, and every node after
the nodes below it.  What is said of the names in a formula is said of this list.
-/

namespace MixedInteger.Formula

variable {R : Type}

/-- A property of all formulas, proved for a sum from the property of each of its items. -/
theorem induct {motive : Formula R → Prop}
    (number : ∀ value, motive (.number value))
    (name : ∀ text, motive (.name text))
    (sum : ∀ items, (∀ item ∈ items, motive item) → motive (.sum items))
    (difference : ∀ left right, motive left → motive right → motive (.difference left right))
    (product : ∀ left right, motive left → motive right → motive (.product left right))
    (opposite : ∀ inner, motive inner → motive (.opposite inner))
    (formula : Formula R) : motive formula := by
  -- The items of a sum are a list of formulas, for which the recursor has a motive of its own.
  apply @Formula.rec R motive fun items => ∀ item ∈ items, motive item
  case number => exact number
  case name => exact name
  case sum => exact sum
  case difference => exact difference
  case product => exact product
  case opposite => exact opposite
  case nil =>
    intro item present
    cases present
  case cons =>
    intro first rest firstHolds restHold item present
    rcases List.mem_cons.mp present with rfl | later
    · exact firstHolds
    · exact restHold item later

mutual

/-- The nodes of a formula, each after the nodes below it. -/
def nodes : Formula R → List (Formula R)
  | .number value => [.number value]
  | .name text => [.name text]
  | .sum items => nodesOfItems items ++ [.sum items]
  | .difference left right => left.nodes ++ right.nodes ++ [.difference left right]
  | .product left right => left.nodes ++ right.nodes ++ [.product left right]
  | .opposite inner => inner.nodes ++ [.opposite inner]

/-- The nodes of some formulas, one formula after the other. -/
def nodesOfItems : List (Formula R) → List (Formula R)
  | [] => []
  | item :: rest => item.nodes ++ nodesOfItems rest

end

theorem nodesOfItems_append (first second : List (Formula R)) :
    nodesOfItems (first ++ second) = nodesOfItems first ++ nodesOfItems second := by
  induction first with
  | nil => rfl
  | cons item rest ih =>
      rw [List.cons_append, nodesOfItems, nodesOfItems, ih, List.append_assoc]

theorem mem_nodesOfItems {items : List (Formula R)} {node : Formula R} :
    node ∈ nodesOfItems items ↔ ∃ item ∈ items, node ∈ item.nodes := by
  induction items with
  | nil => simp [nodesOfItems]
  | cons item rest ih => simp [nodesOfItems, ih]

/-- The text of a node that is a name. -/
def nameText? : Formula R → Option String
  | .name text => some text
  | _ => none

/-- The names in a formula as they are written, from left to right. -/
def texts (formula : Formula R) : List String :=
  formula.nodes.filterMap nameText?

/-- Some node of the formula is a name. -/
def hasName (formula : Formula R) : Bool :=
  !formula.texts.isEmpty

/-- Some node of the formula is the given name, blanks aside. -/
def mentions (formula : Formula R) (name : String) : Bool :=
  formula.texts.any fun text => Variable.nameOf text == name

@[simp] theorem texts_number (value : R) : (number value).texts = [] := rfl

@[simp] theorem texts_name (text : String) : (name text : Formula R).texts = [text] := rfl

@[simp] theorem texts_sum_nil : (sum [] : Formula R).texts = [] := rfl

@[simp] theorem texts_sum_concat (items : List (Formula R)) (item : Formula R) :
    (sum (items ++ [item])).texts = (sum items).texts ++ item.texts := by
  simp [texts, nodes, nodesOfItems_append, nodesOfItems, List.filterMap_cons, nameText?]

/-- A name in an item of a sum is a name in the sum. -/
theorem mem_texts_sum {items : List (Formula R)} {item : Formula R} (present : item ∈ items)
    {text : String} (mentioned : text ∈ item.texts) : text ∈ (sum items).texts := by
  obtain ⟨node, below, named⟩ := List.mem_filterMap.mp mentioned
  refine List.mem_filterMap.mpr ⟨node, ?_, named⟩
  rw [nodes]
  exact List.mem_append_left _ (mem_nodesOfItems.mpr ⟨item, present, below⟩)

@[simp] theorem texts_difference (left right : Formula R) :
    (difference left right).texts = left.texts ++ right.texts := by
  simp [texts, nodes, nameText?]

@[simp] theorem texts_product (left right : Formula R) :
    (product left right).texts = left.texts ++ right.texts := by
  simp [texts, nodes, nameText?]

@[simp] theorem texts_opposite (inner : Formula R) : (opposite inner).texts = inner.texts := by
  simp [texts, nodes, nameText?]

end MixedInteger.Formula
