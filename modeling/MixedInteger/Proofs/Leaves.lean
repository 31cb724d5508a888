import MixedInteger.Proofs.Operations
import MixedInteger.Proofs.Support

/-!
# Leaves of constructions

An expression is built from numbers and variables by operations.  Read from left to right,
the variables are the leaves of its construction.  Each operation keeps the names of its
arguments, whatever the numbers are, and where a name occurs more than once, the variable
that comes first.
-/

namespace MixedInteger

/-- What is built from numbers and variables, with the variables read from left to right. -/
inductive Built : Argument → List Variable → Prop
  | real (x : Float) : Built (.real x) []
  | whole (n : Int32) : Built (.whole n) []
  | symbol (v : Variable) : Built (.symbol v) [v]
  | zero : Built (.expression .zero) []
  | ofConstant (x : Float) : Built (.expression (.ofConstant x)) []
  | term (v : Variable) (x : Float) : Built (.expression (.term v x)) [v]
  | ofTerms (terms : List (Variable × Float)) (x : Float) :
      Built (.expression (.ofTerms terms x)) (terms.map Prod.fst)
  | converted {s : Argument} {leaves : List Variable} (argument : Built s leaves) :
      Built (.expression s.toExpression) leaves
  | merged {a b : Expression Float} {first second : List Variable}
      (left : Built (.expression a) first) (right : Built (.expression b) second) :
      Built (.expression (a.merged b)) (first ++ second)
  | scaled {a : Expression Float} {leaves : List Variable} (x : Float)
      (argument : Built (.expression a) leaves) : Built (.expression (a.scaled x)) leaves
  | negated {a : Expression Float} {leaves : List Variable}
      (argument : Built (.expression a) leaves) : Built (.expression a.negated) leaves
  | withoutConstant {a : Expression Float} {leaves : List Variable}
      (argument : Built (.expression a) leaves) : Built (.expression a.withoutConstant) leaves
  | plus {s t : Argument} {e : Expression Float} {first second : List Variable}
      (left : Built s first) (right : Built t second) (joined : s.plus? t = some e) :
      Built (.expression e) (first ++ second)
  | minus {s t : Argument} {e : Expression Float} {first second : List Variable}
      (left : Built s first) (right : Built t second) (joined : s.minus? t = some e) :
      Built (.expression e) (first ++ second)
  | times {s t : Argument} {e : Expression Float} {first second : List Variable}
      (left : Built s first) (right : Built t second) (joined : s.times? t = some e) :
      Built (.expression e) (first ++ second)
  | opposite {s : Argument} {e : Expression Float} {leaves : List Variable}
      (argument : Built s leaves) (signed : s.negated? = some e) : Built (.expression e) leaves
  | posited {s : Argument} {e : Expression Float} {leaves : List Variable}
      (argument : Built s leaves) (signed : s.posited? = some e) : Built (.expression e) leaves
  | sum (items : List (Argument × List Variable)) (arguments : ∀ p ∈ items, Built p.1 p.2) :
      Built (.expression (.sum (items.map fun p => p.1.toExpression))) (items.flatMap Prod.snd)
  | quantity {s : Argument} {q : Quantity Float} {leaves : List Variable}
      (argument : Built s leaves) (same : s.toQuantity? = some q) : Built (.quantity q) leaves
  | quantityPlus {p q : Quantity Float} {first second : List Variable}
      (left : Built (.quantity p) first) (right : Built (.quantity q) second) :
      Built (.quantity (p.plus q)) (first ++ second)
  | quantityMinus {p q : Quantity Float} {first second : List Variable}
      (left : Built (.quantity p) first) (right : Built (.quantity q) second) :
      Built (.quantity (p.minus q)) (first ++ second)
  | quantityNegated {q : Quantity Float} {leaves : List Variable}
      (argument : Built (.quantity q) leaves) : Built (.quantity q.negated) leaves
  | quantityTimes {p q r : Quantity Float} {first second : List Variable}
      (left : Built (.quantity p) first) (right : Built (.quantity q) second)
      (linear : p.times q = .ok r) : Built (.quantity r) (first ++ second)

namespace Expression

theorem var?_term (v : Variable) (x : Float) (name : String) :
    (term v x).var? name = leftmost? [v] name :=
  Table.key?_update_eq_or Table.empty v _ name

/-- Terms that are listed one after the other keep the first variable of each name. -/
theorem key?_foldl_update (terms : List (Variable × Float)) (table : Table Variable Float)
    (name : String) :
    (terms.foldl (fun table p => table.update p.1 fun present => present.getD 0 + p.2)
        table).key? name = (table.key? name).or (leftmost? (terms.map Prod.fst) name) := by
  induction terms generalizing table with
  | nil => exact Option.or_none.symm
  | cons p rest ih =>
      rw [List.foldl_cons, ih, Table.key?_update_eq_or, Option.or_assoc, List.map_cons,
        ← leftmost?_cons]

theorem var?_ofTerms (terms : List (Variable × Float)) (x : Float) (name : String) :
    (ofTerms terms x).var? name = leftmost? (terms.map Prod.fst) name :=
  key?_foldl_update terms Table.empty name

theorem var?_merged (a b : Expression Float) (name : String) :
    (a.merged b).var? name = (a.var? name).or (b.var? name) :=
  var?_add a b name

/-- A sum keeps what the sum so far holds, and then the variables of each further item. -/
theorem var?_foldl_merged (items : List (Argument × List Variable)) (a : Expression Float)
    (name : String)
    (found : ∀ p ∈ items, p.1.toExpression.var? name = leftmost? p.2 name) :
    ((items.map fun p => p.1.toExpression).foldl merged a).var? name =
      (a.var? name).or (leftmost? (items.flatMap Prod.snd) name) := by
  induction items generalizing a with
  | nil => exact Option.or_none.symm
  | cons p rest ih =>
      rw [List.map_cons, List.foldl_cons,
        ih _ fun q present => found q (List.mem_cons_of_mem _ present), var?_merged,
        found p List.mem_cons_self, List.flatMap_cons, leftmost?_append, Option.or_assoc]

end Expression

namespace Argument

variable {s t : Argument} {e : Expression Float}

theorem var?_plus? (joined : s.plus? t = some e) (name : String) :
    e.var? name = (s.toExpression.var? name).or (t.toExpression.var? name) := by
  rw [plus?_eq, Option.ite_none_right_eq_some] at joined
  obtain ⟨-, same⟩ := joined
  rw [← Option.some.inj same, Expression.var?_merged]

theorem var?_minus? (joined : s.minus? t = some e) (name : String) :
    e.var? name = (s.toExpression.var? name).or (t.toExpression.var? name) := by
  rw [minus?_eq, Option.ite_none_right_eq_some] at joined
  obtain ⟨-, same⟩ := joined
  rw [← Option.some.inj same, Expression.var?_merged]
  exact congrArg _ (Expression.var?_scaled _ _ _)

/-- A product keeps the variables of both sides, one of which is a number. -/
theorem var?_times? (joined : s.times? t = some e) (name : String) :
    e.var? name = (s.toExpression.var? name).or (t.toExpression.var? name) := by
  have scaled (a : Expression Float) (x : Float) : (a.scaled x).var? name = a.var? name :=
    Expression.var?_scaled a x name
  cases s <;> cases t <;> cases joined
  case real.symbol x v => exact scaled _ x
  case real.expression x a => exact scaled a x
  case symbol.real v x => exact (scaled _ x).trans Option.or_none.symm
  case expression.real a x => exact (scaled a x).trans Option.or_none.symm

theorem var?_negated? (signed : s.negated? = some e) (name : String) :
    e.var? name = s.toExpression.var? name := by
  rw [negated?_eq, Option.ite_none_right_eq_some] at signed
  obtain ⟨-, same⟩ := signed
  rw [← Option.some.inj same]
  exact Expression.var?_scaled _ _ _

theorem var?_posited? (signed : s.posited? = some e) (name : String) :
    e.var? name = s.toExpression.var? name := by
  rw [posited?_eq, Option.ite_none_right_eq_some] at signed
  obtain ⟨-, same⟩ := signed
  rw [← Option.some.inj same]

/-- An argument and the quantity made of it stand for one expression. -/
theorem toExpression_toQuantity? {q : Quantity Float} (same : s.toQuantity? = some q) :
    q.toExpression = s.toExpression := by
  cases s <;> cases same <;> rfl

end Argument

namespace Built

/-- What is stored under a name is the first leaf with that name. -/
theorem var?_eq {s : Argument} {leaves : List Variable} (built : Built s leaves)
    (name : String) : s.toExpression.var? name = leftmost? leaves name := by
  have scaled (a : Expression Float) (x : Float) : (a.scaled x).var? name = a.var? name :=
    Expression.var?_scaled a x name
  induction built with
  | real x => rfl
  | whole n => rfl
  | symbol v => exact Expression.var?_term v 1 name
  | zero => rfl
  | ofConstant x => rfl
  | term v x => exact Expression.var?_term v x name
  | ofTerms terms x => exact Expression.var?_ofTerms terms x name
  | converted argument ih => exact ih
  | merged left right ihLeft ihRight =>
      rw [leftmost?_append, ← ihLeft, ← ihRight]
      exact Expression.var?_merged _ _ name
  | scaled x argument ih => exact (scaled _ x).trans ih
  | negated argument ih => exact (scaled _ (-1)).trans ih
  | withoutConstant argument ih => exact ih
  | plus left right joined ihLeft ihRight =>
      rw [leftmost?_append, ← ihLeft, ← ihRight]
      exact Argument.var?_plus? joined name
  | minus left right joined ihLeft ihRight =>
      rw [leftmost?_append, ← ihLeft, ← ihRight]
      exact Argument.var?_minus? joined name
  | times left right joined ihLeft ihRight =>
      rw [leftmost?_append, ← ihLeft, ← ihRight]
      exact Argument.var?_times? joined name
  | opposite argument signed ih => exact (Argument.var?_negated? signed name).trans ih
  | posited argument signed ih => exact (Argument.var?_posited? signed name).trans ih
  | sum items arguments ih =>
      exact Expression.var?_foldl_merged items Expression.zero name ih
  | quantity argument same ih =>
      rw [← ih, ← Argument.toExpression_toQuantity? same]
      rfl
  | quantityPlus left right ihLeft ihRight =>
      rw [leftmost?_append, ← ihLeft, ← ihRight]
      exact Quantity.var?_plus _ _ name
  | quantityMinus left right ihLeft ihRight =>
      rw [leftmost?_append, ← ihLeft, ← ihRight]
      exact (Quantity.var?_plus _ _ name).trans (congrArg _ (Quantity.var?_negated _ name))
  | quantityNegated argument ih => exact (Quantity.var?_negated _ name).trans ih
  | quantityTimes left right linear ihLeft ihRight =>
      rw [leftmost?_append, ← ihLeft, ← ihRight]
      exact Quantity.var?_times linear name

/--
The variables of an expression have the names of its leaves, in strictly increasing order,
and each of them is the leftmost leaf of its name.
-/
theorem support {e : Expression Float} {leaves : List Variable}
    (built : Built (.expression e) leaves) :
    (e.vars.map Variable.name).Pairwise (· < ·) ∧
    (∀ name, name ∈ e.vars.map Variable.name ↔ name ∈ leaves.map Variable.name) ∧
    ∀ v ∈ e.vars, ∃ before after,
      leaves = before ++ v :: after ∧ ∀ u ∈ before, u.name ≠ v.name := by
  have found : ∀ name, e.var? name = leftmost? leaves name := built.var?_eq
  refine ⟨e.terms.names_increasing, fun name => ?_, fun v present => ?_⟩
  · constructor
    · intro present
      obtain ⟨v, member, rfl⟩ := List.mem_map.mp present
      rw [Expression.mem_vars_iff, found] at member
      exact List.mem_map_of_mem (List.mem_of_find?_eq_some member)
    · intro present
      obtain ⟨v, member, rfl⟩ := List.mem_map.mp present
      obtain ⟨w, first⟩ : ∃ w, leftmost? leaves v.name = some w :=
        Option.isSome_iff_exists.mp (List.find?_isSome.mpr ⟨v, member, beq_self_eq_true _⟩)
      have named : w.name = v.name := by
        have alike := List.find?_some first
        exact eq_of_beq alike
      rw [← named]
      refine List.mem_map_of_mem (Expression.mem_vars_iff.mpr ?_)
      rw [named, found, first]
  · rw [Expression.mem_vars_iff, found] at present
    obtain ⟨-, before, after, split, others⟩ := List.find?_eq_some_iff_append.mp present
    refine ⟨before, after, split, fun u member same => ?_⟩
    have other := others u member
    rw [same, beq_self_eq_true] at other
    cases other

/-- A variable minus another one of its name, scaled by zero, and then a third variable. -/
def cancelled : Expression Float :=
  (Expression.ofVariable (.named .integer "x") -
      (Expression.ofVariable (.named .continuous "x") : Expression Float)).scaled 0 +
    (Expression.ofVariable (.named .binary "a") : Expression Float)

theorem cancelled_built : Built (.expression cancelled)
    [.named .integer "x", .named .continuous "x", .named .binary "a"] := by
  have first := Built.symbol (.named .integer "x")
  have second := Built.symbol (.named .continuous "x")
  exact .plus (.scaled 0 (.minus first second rfl)) (.symbol (.named .binary "a")) rfl

/-- The cancelled name stays, with the kind of its first leaf. -/
theorem cancelled_support :
    (cancelled.vars.map Variable.name).Pairwise (· < ·) ∧
    (∀ name, name ∈ cancelled.vars.map Variable.name ↔ name ∈ ["x", "x", "a"]) ∧
    cancelled.vars.map Variable.kind = [.binary, .integer] := by
  obtain ⟨increasing, names, -⟩ := support cancelled_built
  exact ⟨increasing, names, by decide⟩

end Built

end MixedInteger
