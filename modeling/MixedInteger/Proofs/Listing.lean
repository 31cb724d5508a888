import MixedInteger.Proofs.Elements
import MixedInteger.Proofs.Lines

/-!
# Listings

A listing is what a solver has to say about a solved model: the value of the objective, and
values of variables by their names, all of them given as words.  It can be reported in
lines or as a tree, and both readers come to the same answer on it, whatever the names are
and whichever of the words are numbers.
-/

namespace MixedInteger

/-- A text of characters of a document, none of which is blank. -/
structure Word where
  chars : List Char
  nonempty : chars ≠ []
  solid : Text.Solid chars
  documented : ∀ c ∈ chars, Xml.isDocumentChar c = true

def Word.text (word : Word) : String := String.ofList word.chars

namespace Report

/-- The value of the objective, and values of variables in order. -/
structure Listing where
  objective : Word
  values : List (Word × Word)

namespace Listing

/-- A listing in lines: the status, a line that ends with the objective, a line for each value. -/
inductive InLines (listing : Listing) : List (List Char) → Prop where
  | intro {second : List Char}
      (last : (Text.words second).getLast? = some listing.objective.chars) :
      InLines listing (optimalStatus.toList :: second ::
        listing.values.map fun p => p.1.chars ++ ' ' :: p.2.chars)

/--
A listing as a tree: the first header has the objective, and the only variables element
has the values in its variable elements.
-/
structure InTree (listing : Listing) (root : Xml.Node) : Prop where
  header : ∃ header, root.children.find? (fun node => node.hasName "header") = some header ∧
    header.attribute? "objectiveValue" = some listing.objective.text
  block : ∃ block, root.children.filter (fun node => node.hasName "variables") = [block] ∧
    (block.children.filter fun node => node.hasName "variable").map
        (fun element => (element.attribute? "name", element.attribute? "value")) =
      listing.values.map fun p => (some p.1.text, some p.2.text)

/-- Each variable of the model has one value in the listing, and all numbers are finite. -/
structure Covers (listing : Listing) (vars : VariableSet) : Prop where
  distinct : (listing.values.map fun p => p.1.text).Nodup
  known : ∀ p ∈ listing.values, ∃ v ∈ vars.keys, v.name = p.1.text
  whole : ∀ v ∈ vars.keys, ∃ p ∈ listing.values, p.1.text = v.name
  objective : (finite? listing.objective.chars).isSome
  finite : ∀ p ∈ listing.values, (finite? p.2.chars).isSome

/-- The item of a name and a value. -/
def itemOf (p : Word × Word) : Item := ⟨some p.1.text, finite? p.2.chars⟩

variable {vars : VariableSet} {listing : Listing}

/-! ## Words of lines -/

/-- A word is the one word of its line. -/
theorem words_word (word : Word) : Text.words word.chars = [word.chars] :=
  Text.words_of_solid word.solid word.nonempty

theorem words_pair (name value : Word) :
    Text.words (name.chars ++ ' ' :: value.chars) = [name.chars, value.chars] := by
  rw [Text.words_append_space, words_word, words_word]
  rfl

theorem ofLine?_pair (p : Word × Word) :
    Item.ofLine? (p.1.chars ++ ' ' :: p.2.chars) = some (itemOf p) := by
  rw [Item.ofLine?, words_pair]
  rfl

/-! ## Items -/

/-- The entries that are read from some items settle what the items do. -/
theorem settles_of_readAs {objective : Float} {items : List Item} {entries : List Entry}
    (read : List.Forall₂ Item.ReadAs items entries) :
    Settles vars objective (fun position : Nat => items[position]?.bind some)
      (ofEntries vars objective entries).answer := by
  have lists : Lists (fun position : Nat => items[position]?.bind some) (located some items) :=
    ⟨located_increasing, fun _ => mem_located⟩
  rw [← @List.filterMap_some _ items, ← map_located] at read
  exact settles_ofEntries lists (List.forall₂_map_left_iff.mp read)

/-- The answer to a listing: none without a number for the objective. -/
inductive Answers (vars : VariableSet) (listing : Listing) : Answer → Prop where
  | worthless (missing : finite? listing.objective.chars = none) : Answers vars listing (.ok none)
  | read {objective : Float} {entries : List Entry}
      (finite : finite? listing.objective.chars = some objective)
      (items : List.Forall₂ Item.ReadAs (listing.values.map itemOf) entries) :
      Answers vars listing (ofEntries vars objective entries).answer

theorem Answers.unique {first second : Answer} (one : Answers vars listing first)
    (other : Answers vars listing second) : first = second := by
  cases one with
  | worthless missing =>
      cases other with
      | worthless => rfl
      | read finite => cases missing.symm.trans finite
  | read finite items =>
      cases other with
      | worthless missing => cases missing.symm.trans finite
      | read finiteToo itemsToo =>
          cases finite.symm.trans finiteToo
          exact (settles_of_readAs items).unique (settles_of_readAs itemsToo)

/-- The reader of lines answers to the listing. -/
theorem answers_readLines {lines : List (List Char)} (inLines : listing.InLines lines) :
    Answers vars listing (readLines vars lines).answer := by
  cases inLines with
  | @intro second last =>
      have status : String.ofList (Text.trimmed optimalStatus.toList) = optimalStatus := by
        decide
      cases finite : finite? listing.objective.chars with
      | none =>
          rw [answer_of_unannounced]
          · exact .worthless finite
          · intro objective later announces
            cases announces with
            | leading _ lastToo finiteToo =>
                cases last.symm.trans lastToo
                cases finite.symm.trans finiteToo
      | some objective =>
          rw [readLines_of_announces (.leading status last finite)]
          refine .read finite ?_
          have items : (listing.values.map fun p => p.1.chars ++ ' ' :: p.2.chars).filterMap
              Item.ofLine? = listing.values.map itemOf := by
            rw [List.filterMap_map, ← List.filterMap_eq_map']
            exact congrArg (fun f => List.filterMap f listing.values) (funext ofLine?_pair)
          rw [← items]
          exact readAs_entries

/-- The reader of trees answers to the listing. -/
theorem answers_readRoot {root : Xml.Node} (inTree : listing.InTree root) :
    Answers vars listing (readRoot vars root).answer := by
  obtain ⟨⟨header, found, given⟩, block, only, elements⟩ := inTree
  have objective : objectiveOfRoot? root = finite? listing.objective.chars := by
    unfold objectiveOfRoot?
    rw [found]
    change (header.attribute? "objectiveValue").bind _ = _
    rw [given, Option.bind_some, Word.text, String.toList_ofList]
  unfold readRoot
  rw [objective]
  cases finite : finite? listing.objective.chars with
  | none => exact .worthless finite
  | some objective =>
      refine .read finite ?_
      have inside : variableElements root =
          block.children.filter fun node => node.hasName "variable" := by
        unfold variableElements
        rw [only, List.flatMap_singleton]
      let ofTexts (p : Option String × Option String) : Item :=
        ⟨p.1, p.2.bind fun token => finite? token.toList⟩
      have items : (variableElements root).map Item.ofElement = listing.values.map itemOf := by
        have shown := congrArg (List.map ofTexts) elements
        rw [List.map_map, List.map_map, ← inside] at shown
        refine shown.trans (List.map_congr_left fun p _ => ?_)
        simp only [Function.comp, ofTexts, itemOf, Word.text, Option.bind_some,
          String.toList_ofList]
      rw [← items, List.forall₂_map_left_iff, List.forall₂_map_right_iff]
      exact List.forall₂_same.mpr fun element _ => readAs_entryOfElement element

/-- A listing that gives each variable one finite value is a solution with these values. -/
theorem Answers.of_covers {answer : Answer} (answers : Answers vars listing answer)
    (covers : listing.Covers vars) :
    ∃ solution, answer = .ok (some solution) ∧
      finite? listing.objective.chars = some solution.objective ∧
      solution.values.keys = vars.keys ∧
      ∀ v ∈ vars.keys, ∀ p ∈ listing.values, p.1.text = v.name →
        ∃ value, finite? p.2.chars = some value ∧
          solution.get? v = some (Tolerance.snapped value) := by
  -- What stands at a position of the items is a name and a value of the listing.
  have located : ∀ {position : Nat} {item : Item},
      (listing.values.map itemOf)[position]?.bind some = some item →
        ∃ p ∈ listing.values, itemOf p = item := by
    intro position item there
    rw [Option.bind_fun_some] at there
    exact List.mem_map.mp (List.mem_of_getElem? there)
  cases answers with
  | worthless missing =>
      have given := covers.objective
      rw [missing] at given
      cases given
  | @read objective entries finite items =>
      have settled : Settles vars objective _ (ofEntries vars objective entries).answer :=
        settles_of_readAs items
      generalize (ofEntries vars objective entries).answer = answer at settled
      cases settled with
      | fails there bad =>
          obtain ⟨p, present, rfl⟩ := located there
          obtain ⟨v, member, named⟩ := covers.known p present
          obtain ⟨value, valued⟩ := Option.isSome_iff_exists.mp (covers.finite p present)
          cases bad with
          | incomplete lacking => exact absurd lacking (Item.complete rfl valued)
          | unknown namedToo _ absent =>
              cases namedToo
              exact absurd named (absent v member)
      | @solves solution sound announced keys values =>
          refine ⟨solution, rfl, announced ▸ finite, keys, fun v member p present named => ?_⟩
          obtain ⟨value, stored, reported⟩ := values v member
          cases reported with
          | absent unnamed =>
              obtain ⟨position, there⟩ := List.getElem?_of_mem (List.mem_map_of_mem present)
              exact absurd (congrArg some named) (unnamed position (itemOf p) (by rw [there]; rfl))
          | last there namedToo valued unnamed =>
              obtain ⟨q, presentToo, rfl⟩ := located there
              have alike : p.1.text = q.1.text := named.trans (Option.some.inj namedToo).symm
              have same := List.inj_on_of_nodup_map covers.distinct present presentToo alike
              exact ⟨_, same ▸ valued, stored⟩

end Listing

end Report

end MixedInteger
