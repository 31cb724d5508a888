import Mathlib.Data.List.Forall2
import MixedInteger.Expression.Text
import MixedInteger.Proofs.Keys
import MixedInteger.Proofs.Zeros

/-!
# Coefficients under names

An operation on expressions does under each name what it does to the coefficients that stand
there; a name that only one side of a sum has keeps its coefficient.  Expressions with the
same numbers under the same names have the same text, whatever the kinds of their variables.
-/

namespace MixedInteger

namespace Table

variable {κ κ' α β : Type} [Named κ] [Named κ']

/-! ## Entries in order -/

theorem entryNamed?_head (p : κ × α) (rest : List (κ × α)) :
    entryNamed? (Named.name p.1) (p :: rest) = some p :=
  List.find?_cons_of_pos (beq_self_eq_true _)

theorem entryNamed?_tail {p : κ × α} {name : String} (other : Named.name p.1 ≠ name)
    (rest : List (κ × α)) : entryNamed? name (p :: rest) = entryNamed? name rest :=
  List.find?_cons_of_neg fun same => other (eq_of_beq same)

theorem entryNamed?_of_lt_head {p : κ × α} {rest : List (κ × α)} {name : String}
    (ordered : Ordered (p :: rest)) (before : name < Named.name p.1) :
    entryNamed? name (p :: rest) = none := by
  refine entryNamed?_eq_none_of_below fun q present => ?_
  rcases List.mem_cons.mp present with rfl | later
  · exact before
  · exact String.lt_trans before (List.rel_of_pairwise_cons ordered later)

theorem entryNamed?_of_head {p : κ × α} {rest : List (κ × α)} (ordered : Ordered (p :: rest)) :
    entryNamed? (Named.name p.1) rest = none :=
  entryNamed?_eq_none_of_below fun _ present => List.rel_of_pairwise_cons ordered present

/-- What is related under every name is related entry by entry. -/
theorem forall₂_of_entryNamed? {N : κ × α → κ' × β → Prop} {first : List (κ × α)}
    {second : List (κ' × β)} (ordered : Ordered first) (ordered' : Ordered second)
    (related : ∀ name, Option.Rel N (entryNamed? name first) (entryNamed? name second)) :
    List.Forall₂ (fun p q => Named.name p.1 = Named.name q.1 ∧ N p q) first second := by
  induction first generalizing second with
  | nil =>
      cases second with
      | nil => exact .nil
      | cons q rest' =>
          have absent := related (Named.name q.1)
          rw [entryNamed?_head] at absent
          cases absent
  | cons p rest ih =>
      cases second with
      | nil =>
          have absent := related (Named.name p.1)
          rw [entryNamed?_head] at absent
          cases absent
      | cons q rest' =>
          -- The lesser of two first names would be found on one side only.
          have notBefore : ¬Named.name p.1 < Named.name q.1 := fun before => by
            have absent := related (Named.name p.1)
            rw [entryNamed?_head, entryNamed?_of_lt_head ordered' before] at absent
            cases absent
          have notAfter : ¬Named.name q.1 < Named.name p.1 := fun before => by
            have absent := related (Named.name q.1)
            rw [entryNamed?_head, entryNamed?_of_lt_head ordered before] at absent
            cases absent
          have same : Named.name p.1 = Named.name q.1 :=
            Std.le_antisymm (Std.not_lt.mp notAfter) (Std.not_lt.mp notBefore)
          have heads := related (Named.name p.1)
          rw [entryNamed?_head, same, entryNamed?_head] at heads
          refine .cons ⟨same, Option.rel_some_some.mp heads⟩ ?_
          refine ih (List.Pairwise.of_cons ordered) (List.Pairwise.of_cons ordered') fun name => ?_
          by_cases first : Named.name p.1 = name
          · subst first
            rw [entryNamed?_of_head ordered, same, entryNamed?_of_head ordered']
            exact .none
          · have later := related name
            rwa [entryNamed?_tail first, entryNamed?_tail (same ▸ first)] at later

/-- Values that are related under every name are related entry by entry. -/
theorem forall₂_of_value? {N : α → β → Prop} {first : Table κ α} {second : Table κ' β}
    (related : ∀ name, Option.Rel N (first.value? name) (second.value? name)) :
    List.Forall₂ (fun p q => Named.name p.1 = Named.name q.1 ∧ N p.2 q.2) first.entries
      second.entries := by
  refine forall₂_of_entryNamed? first.ordered second.ordered fun name => ?_
  have values := related name
  rw [value?, value?, pair?, pair?] at values
  generalize entryNamed? name first.entries = found at values ⊢
  generalize entryNamed? name second.entries = found' at values ⊢
  cases found <;> cases found' <;> cases values
  · exact .none
  · exact .some ‹_›

/-- Values that are related entry by entry are related under every name. -/
theorem rel_value?_of_forall₂ {N : α → β → Prop} {first : Table κ α} {second : Table κ' β}
    (related : List.Forall₂ (fun p q => Named.name p.1 = Named.name q.1 ∧ N p.2 q.2) first.entries
      second.entries) (name : String) :
    Option.Rel N (first.value? name) (second.value? name) := by
  rw [value?, value?, pair?, pair?]
  generalize first.entries = entries at related ⊢
  generalize second.entries = entries' at related ⊢
  induction related with
  | nil => exact .none
  | @cons p q rest rest' head tail ih =>
      obtain ⟨same, values⟩ := head
      by_cases first : Named.name p.1 = name
      · subst first
        rw [entryNamed?_head, same, entryNamed?_head]
        exact .some values
      · rw [entryNamed?_tail first, entryNamed?_tail (same ▸ first)]
        exact ih

/-- The first entry is looked at first. -/
theorem value?_cons (p : κ × α) (rest : List (κ × α)) (ordered : Ordered (p :: rest))
    (name : String) :
    (⟨p :: rest, ordered⟩ : Table κ α).value? name =
      if Named.name p.1 = name then some p.2
      else (⟨rest, List.Pairwise.of_cons ordered⟩ : Table κ α).value? name := by
  rw [value?, value?, pair?, pair?]
  by_cases same : Named.name p.1 = name
  · subst same
    rw [if_pos rfl, entryNamed?_head]
    rfl
  · rw [if_neg same, entryNamed?_tail same]

theorem value?_of_head {p : κ × α} {rest : List (κ × α)} (ordered : Ordered (p :: rest)) :
    (⟨rest, List.Pairwise.of_cons ordered⟩ : Table κ α).value? (Named.name p.1) = none :=
  congrArg (Option.map Prod.snd) (entryNamed?_of_head ordered)

end Table

namespace Expression

variable {R : Type}

/-! ## Operations -/

/-- Under each name the coefficients of both tables are added up, if both have one. -/
theorem value?_addTerms [Add R] (table other : Table Variable R) (name : String) :
    (addTerms table other).value? name =
      Option.merge (· + ·) (table.value? name) (other.value? name) := by
  obtain ⟨added, ordered⟩ := other
  unfold addTerms
  dsimp only
  induction added generalizing table with
  | nil => exact (Option.merge_none_right).symm
  | cons p rest ih =>
      rw [List.foldl_cons, ih _ (List.Pairwise.of_cons ordered), Table.value?_update,
        Table.value?_cons]
      by_cases same : Named.name p.1 = name
      · subst same
        rw [if_pos rfl, if_pos rfl, Table.value?_of_head ordered]
        cases table.value? (Named.name p.1) <;> rfl
      · rw [if_neg same, if_neg same]

@[simp] theorem coefficient?_ofConstant (x : R) (name : String) :
    (ofConstant x).coefficient? name = none := rfl

theorem coefficient?_term [Zero R] (v : Variable) (x : R) (name : String) :
    (term v x).coefficient? name = if v.name = name then some x else none := by
  change (Table.empty.update v fun _ => x).value? name = _
  rw [Table.value?_update]
  rfl

@[simp] theorem coefficient?_add [Add R] (a b : Expression R) (name : String) :
    (a + b).coefficient? name =
      Option.merge (· + ·) (a.coefficient? name) (b.coefficient? name) :=
  value?_addTerms a.terms b.terms name

@[simp] theorem coefficient?_scaled [Mul R] (a : Expression R) (factor : R) (name : String) :
    (a.scaled factor).coefficient? name = (a.coefficient? name).map (· * factor) :=
  Table.value?_map _ a.terms name

@[simp] theorem coefficient?_neg (a : Expression Float) (name : String) :
    (-a).coefficient? name = (a.coefficient? name).map (- ·) := by
  have negative : (fun x : Float => x * -1) = (- ·) := funext Rounding.float_mul_minusOne
  rw [← negative]
  exact coefficient?_scaled a (-1) name

theorem sub_eq_add_neg (a b : Expression Float) : a - b = a + -b := rfl

/-! ## The same numbers under the same names -/

/-- Under every name both expressions have the same number, or both have none. -/
structure SameByName (a b : Expression Float) : Prop where
  coefficients : ∀ name, Option.Rel SameNumber (a.coefficient? name) (b.coefficient? name)
  constant : SameNumber a.constant b.constant

namespace SameByName

variable {a b : Expression Float}

theorem of_coefficient?_eq (coefficients : ∀ name, a.coefficient? name = b.coefficient? name)
    (constant : SameNumber a.constant b.constant) : a.SameByName b := by
  refine ⟨fun name => ?_, constant⟩
  rw [coefficients]
  cases b.coefficient? name with
  | none => exact .none
  | some x => exact .some (.refl x)

theorem refl (a : Expression Float) : a.SameByName a :=
  of_coefficient?_eq (fun _ => rfl) (.refl _)

/-- Expressions that compare equal have the same numbers under the same names. -/
theorem of_beq (equal : (a == b) = true) : a.SameByName b := by
  have terms {first second : List (Variable × Float)} (equal : (first == second) = true) :
      List.Forall₂ (fun p q => Named.name p.1 = Named.name q.1 ∧ SameNumber p.2 q.2) first
        second := by
    induction first generalizing second with
    | nil =>
        cases second with
        | nil => exact .nil
        | cons q rest' => cases equal
    | cons p rest ih =>
        cases second with
        | nil => cases equal
        | cons q rest' =>
            obtain ⟨head, tail⟩ := (Bool.and_eq_true _ _).mp equal
            obtain ⟨name, number⟩ := (Bool.and_eq_true _ _).mp head
            exact .cons ⟨eq_of_beq name, .inr number⟩ (ih tail)
  obtain ⟨entries, constant⟩ := (Bool.and_eq_true _ _).mp equal
  exact ⟨Table.rel_value?_of_forall₂ (terms entries), .inr constant⟩

/-- Only zeros can differ in their signs, so what is written is equal. -/
theorem forall₂_significantTerms (same : a.SameByName b) :
    List.Forall₂ (fun p q => p.1.name = q.1.name ∧ p.2 = q.2) a.significantTerms
      b.significantTerms := by
  have terms := Table.forall₂_of_value? same.coefficients
  unfold significantTerms
  generalize a.terms.entries = first at terms
  generalize b.terms.entries = second at terms
  induction terms with
  | nil => exact .nil
  | @cons p q first second head tail ih =>
      obtain ⟨named, number⟩ := head
      rw [List.filter_cons, List.filter_cons, ← number.isNearZero_eq]
      cases near : Tolerance.isNearZero p.2 with
      | true => exact ih
      | false => exact .cons ⟨named, number.eq_of_isNearZero_eq_false near⟩ ih

theorem parts_eq (same : a.SameByName b) : a.parts = b.parts := by
  have alike {first : Bool} {p q : Variable × Float} (term : p.1.name = q.1.name ∧ p.2 = q.2) :
      termText first p.1 p.2 = termText first q.1 q.2 := by
    rw [termText, termText, term.1, term.2]
  have written := same.forall₂_significantTerms
  unfold parts
  rw [← same.constant.isNearZero_eq]
  generalize a.significantTerms = first at written ⊢
  generalize b.significantTerms = second at written ⊢
  have constant (near : Tolerance.isNearZero a.constant = false) : a.constant = b.constant :=
    same.constant.eq_of_isNearZero_eq_false near
  cases written with
  | nil =>
      cases near : Tolerance.isNearZero a.constant with
      | true => rw [if_pos rfl, if_pos rfl]
      | false => rw [constant near]
  | @cons p q rest rest' head tail =>
      have later : rest.map (fun p => termText false p.1 p.2) =
          rest'.map fun q => termText false q.1 q.2 := by
        rw [← List.forall₂_eq_eq_eq, List.forall₂_map_left_iff, List.forall₂_map_right_iff]
        exact tail.imp fun _ _ => alike
      dsimp only
      rw [alike head, later]
      cases near : Tolerance.isNearZero a.constant with
      | true => rw [if_pos rfl, if_pos rfl]
      | false => rw [constant near]

theorem text_eq (same : a.SameByName b) : a.text = b.text := by
  rw [text, text, same.parts_eq]

end SameByName

end Expression

end MixedInteger
