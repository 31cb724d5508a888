import MixedInteger.Proofs.Coefficients
import MixedInteger.Proofs.Leaves

/-!
# Terms at once and one by one

An expression may be made of a list of terms at once, or of a sum to which the terms are
added one by one.  One way starts each coefficient from zero, the other from the first number
that is listed for a name.  Both give every name the sum of its numbers from left to right.
-/

namespace MixedInteger.Expression

/-- The numbers that some terms list for a name, in their order. -/
def listed (terms : List (Variable × Float)) (name : String) : List Float :=
  (terms.filter fun p => p.1.name == name).map Prod.snd

/-- Some numbers added up from left to right, starting with the first. -/
def leftSum? : List Float → Option Float
  | [] => none
  | x :: rest => some (rest.foldl (· + ·) x)

theorem listed_cons (p : Variable × Float) (rest : List (Variable × Float)) (name : String) :
    listed (p :: rest) name =
      if p.1.name = name then p.2 :: listed rest name else listed rest name := by
  unfold listed
  rw [filter_name_cons]
  split <;> rfl

/-! ## At once -/

/-- The numbers of a name are added to what stands there, or to zero. -/
theorem value?_foldl_update (terms : List (Variable × Float)) (table : Table Variable Float)
    (name : String) :
    (terms.foldl (fun table p => table.update p.1 fun present => present.getD 0 + p.2)
        table).value? name =
      (listed terms name).foldl (fun sum x => some (sum.getD 0 + x)) (table.value? name) := by
  induction terms generalizing table with
  | nil => rfl
  | cons p rest ih =>
      rw [List.foldl_cons, ih, Table.value?_update, listed_cons]
      change (listed rest name).foldl _ (if p.1.name = name then _ else _) = _
      split <;> rfl

/-! ## One by one -/

theorem coefficient?_merged (a b : Expression Float) (name : String) :
    (a.merged b).coefficient? name =
      Option.merge (· + ·) (a.coefficient? name) (b.coefficient? name) :=
  coefficient?_add a b name

/-- The numbers of a name are added to what stands there, if anything does. -/
theorem coefficient?_foldl_term (terms : List (Variable × Float)) (a : Expression Float)
    (name : String) :
    ((terms.map fun p => term p.1 p.2).foldl merged a).coefficient? name =
      (listed terms name).foldl (fun sum x => Option.merge (· + ·) sum (some x))
        (a.coefficient? name) := by
  induction terms generalizing a with
  | nil => rfl
  | cons p rest ih =>
      rw [List.map_cons, List.foldl_cons, ih, coefficient?_merged, coefficient?_term, listed_cons]
      split
      · rfl
      · rw [Option.merge_none_right]

theorem foldl_merge (numbers : List Float) (x : Float) :
    numbers.foldl (fun sum y => Option.merge (· + ·) sum (some y)) (some x) =
      some (numbers.foldl (· + ·) x) := by
  induction numbers generalizing x with
  | nil => rfl
  | cons y rest ih => exact ih (x + y)

theorem leftSum?_eq (numbers : List Float) :
    numbers.foldl (fun sum y => Option.merge (· + ·) sum (some y)) none = leftSum? numbers := by
  cases numbers with
  | nil => rfl
  | cons x rest => exact foldl_merge rest x

theorem constant_foldl_term (terms : List (Variable × Float)) {a : Expression Float}
    (zero : a.constant = 0) : ((terms.map fun p => term p.1 p.2).foldl merged a).constant = 0 := by
  induction terms generalizing a with
  | nil => exact zero
  | cons p rest ih =>
      have still : (a.merged (term p.1 p.2)).constant = 0 := congrArg (· + 0) zero
      exact ih still

theorem var?_foldl_term (terms : List (Variable × Float)) (a : Expression Float) (name : String) :
    ((terms.map fun p => term p.1 p.2).foldl merged a).var? name =
      (a.var? name).or (leftmost? (terms.map Prod.fst) name) := by
  induction terms generalizing a with
  | nil => exact Option.or_none.symm
  | cons p rest ih =>
      rw [List.map_cons, List.foldl_cons, ih, var?_merged, var?_term, Option.or_assoc,
        ← leftmost?_append]
      rfl

/-! ## Both ways -/

/-- Started from zero or from the first number, the sums are the same numbers. -/
theorem rel_foldl (numbers : List Float) {first second : Option Float}
    (same : Option.Rel SameNumber first second) :
    Option.Rel SameNumber (numbers.foldl (fun sum x => some (sum.getD 0 + x)) first)
      (numbers.foldl (fun sum x => Option.merge (· + ·) sum (some x)) second) := by
  induction numbers generalizing first second with
  | nil => exact same
  | cons x rest ih =>
      cases same with
      | none => exact ih (.some (.zero_add x))
      | some number => exact ih (.some (number.add (.refl x)))

variable (terms : List (Variable × Float)) (constant : Float) (name : String)

/-- The sum to which the terms are added one by one, and the constant at the end. -/
def summed : Expression Float :=
  sum (terms.map fun p => term p.1 p.2) + ofConstant constant

theorem coefficient?_summed :
    (summed terms constant).coefficient? name = leftSum? (listed terms name) := by
  rw [summed, coefficient?_add, coefficient?_ofConstant, Option.merge_none_right, sum,
    coefficient?_foldl_term, zero, coefficient?_ofConstant, leftSum?_eq]

theorem var?_summed :
    (summed terms constant).var? name = leftmost? (terms.map Prod.fst) name := by
  rw [summed, var?_add, var?_ofConstant, Option.or_none, sum, var?_foldl_term, zero,
    var?_ofConstant, Option.none_or]

theorem constant_summed : (summed terms constant).constant = 0 + constant :=
  congrArg (· + constant) (constant_foldl_term terms rfl)

theorem rel_coefficient?_ofTerms :
    Option.Rel SameNumber ((ofTerms terms constant).coefficient? name)
      (leftSum? (listed terms name)) := by
  have started : (ofTerms terms constant).coefficient? name =
      (listed terms name).foldl (fun sum x => some (sum.getD 0 + x)) none :=
    value?_foldl_update terms Table.empty name
  rw [started, ← leftSum?_eq]
  exact rel_foldl _ .none

/--
An expression that is made of a list of terms at once has the same numbers and the same
variables as the sum to which the terms are added one by one, and it has the same text.  Of
several variables with one name the first is kept, and the coefficient of a name is the sum of
the numbers that are listed for it, from left to right.
-/
theorem ofTerms_agrees_with_summed :
    (ofTerms terms constant).SameByName (summed terms constant) ∧
    (ofTerms terms constant).vars = (summed terms constant).vars ∧
    (ofTerms terms constant).text = (summed terms constant).text ∧
    ∀ name,
      (ofTerms terms constant).var? name = leftmost? (terms.map Prod.fst) name ∧
      (summed terms constant).coefficient? name = leftSum? (listed terms name) ∧
      Option.Rel SameNumber ((ofTerms terms constant).coefficient? name)
        (leftSum? (listed terms name)) := by
  have same : (ofTerms terms constant).SameByName (summed terms constant) := by
    constructor
    · intro name
      rw [coefficient?_summed]
      exact rel_coefficient?_ofTerms terms constant name
    · rw [constant_summed]
      exact (SameNumber.zero_add constant).symm
  have keys (name : String) :
      (ofTerms terms constant).var? name = (summed terms constant).var? name := by
    rw [var?_summed, var?_ofTerms]
  refine ⟨same, Table.keys_congr keys, same.text_eq, fun name => ⟨?_, ?_, ?_⟩⟩
  · exact var?_ofTerms terms constant name
  · exact coefficient?_summed terms constant name
  · exact rel_coefficient?_ofTerms terms constant name

end MixedInteger.Expression
