import MixedInteger.Constraint
import MixedInteger.Proofs.Coefficients
import MixedInteger.Proofs.Operations

/-!
# Expressions with the same numbers

Two expressions have the same numbers if their terms are of the same variables and their
coefficients and constants differ in the signs of zeros at most.  The operations keep the
numbers the same, and the texts of such expressions are equal.
-/

namespace MixedInteger

/-- Terms of one variable with the same coefficient. -/
def SameTerm (p q : Variable × Float) : Prop :=
  p.1 = q.1 ∧ SameNumber p.2 q.2

theorem SameTerm.refl (p : Variable × Float) : SameTerm p p := ⟨rfl, .refl _⟩

namespace Table

/-- Updates that treat the same numbers alike keep tables alike. -/
theorem forall₂_upsert {f g : Option Float → Float} (v : Variable)
    (absent : SameNumber (f none) (g none))
    (present : ∀ {x y}, SameNumber x y → SameNumber (f (some x)) (g (some y)))
    {first second : List (Variable × Float)} (same : List.Forall₂ SameTerm first second) :
    List.Forall₂ SameTerm (upsert v f first) (upsert v g second) := by
  induction same with
  | nil => exact .cons ⟨rfl, absent⟩ .nil
  | @cons p q first second head tail ih =>
      obtain ⟨w, x⟩ := p
      obtain ⟨w', y⟩ := q
      obtain ⟨rfl, number⟩ : w = w' ∧ SameNumber x y := head
      simp only [upsert]
      split
      · exact .cons ⟨rfl, absent⟩ (.cons ⟨rfl, number⟩ tail)
      · split
        · exact .cons ⟨rfl, present number⟩ tail
        · exact .cons ⟨rfl, number⟩ ih

end Table

namespace Expression

/-- The terms are of the same variables, and all numbers are the same up to signs of zeros. -/
structure SameNumbers (a b : Expression Float) : Prop where
  terms : List.Forall₂ SameTerm a.terms.entries b.terms.entries
  constant : SameNumber a.constant b.constant

theorem forall₂_addTerms {added added' : Table Variable Float}
    (same : List.Forall₂ SameTerm added.entries added'.entries) {table table' : Table Variable Float}
    (before : List.Forall₂ SameTerm table.entries table'.entries) :
    List.Forall₂ SameTerm (addTerms table added).entries (addTerms table' added').entries := by
  unfold addTerms
  generalize added.entries = first at same
  generalize added'.entries = second at same
  induction same generalizing table table' with
  | nil => exact before
  | @cons p q first second head tail ih =>
      obtain ⟨v, x⟩ := p
      obtain ⟨w, y⟩ := q
      obtain ⟨rfl, number⟩ : v = w ∧ SameNumber x y := head
      exact ih (Table.forall₂_upsert v number (fun present => present.add number) before)

namespace SameNumbers

theorem refl (a : Expression Float) : SameNumbers a a :=
  ⟨List.forall₂_same.mpr fun p _ => .refl p, .refl _⟩

theorem merged {a b c d : Expression Float} (left : SameNumbers a b) (right : SameNumbers c d) :
    SameNumbers (a.merged c) (b.merged d) :=
  ⟨forall₂_addTerms right.terms left.terms, left.constant.add right.constant⟩

theorem scaled {a b : Expression Float} (same : SameNumbers a b) {x y : Float}
    (factors : SameNumber x y) : SameNumbers (a.scaled x) (b.scaled y) := by
  refine ⟨?_, same.constant.mul factors⟩
  change List.Forall₂ SameTerm (a.terms.entries.map fun p => (p.1, p.2 * x))
    (b.terms.entries.map fun p => (p.1, p.2 * y))
  rw [List.forall₂_map_left_iff, List.forall₂_map_right_iff]
  exact same.terms.imp fun p q term => ⟨term.1, term.2.mul factors⟩

/-- Nothing but the sign of a zero is lost when a sum is started from zero. -/
theorem zero_merged (a : Expression Float) : SameNumbers a ((ofConstant 0).merged a) := by
  rw [ofConstant_merged]
  exact ⟨(refl a).terms, (SameNumber.zero_add a.constant).symm⟩

theorem byName {a b : Expression Float} (same : SameNumbers a b) : a.SameByName b := by
  refine ⟨Table.rel_value?_of_forall₂ (same.terms.imp fun p q term => ?_), same.constant⟩
  exact ⟨congrArg Named.name term.1, term.2⟩

theorem text_eq {a b : Expression Float} (same : SameNumbers a b) : a.text = b.text :=
  same.byName.text_eq

theorem vars_eq {a b : Expression Float} (same : SameNumbers a b) : a.vars = b.vars := by
  have keys {first second : List (Variable × Float)}
      (terms : List.Forall₂ SameTerm first second) :
      first.map Prod.fst = second.map Prod.fst := by
    induction terms with
    | nil => rfl
    | cons head tail ih => rw [List.map_cons, List.map_cons, head.1, ih]
  exact keys same.terms

end SameNumbers

end Expression

end MixedInteger
