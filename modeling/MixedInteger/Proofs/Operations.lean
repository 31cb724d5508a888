import MixedInteger.Expression.Argument
import MixedInteger.Proofs.Arithmetic
import MixedInteger.Proofs.Keys

/-!
# Agreement of the operations

A sum, a difference, a negation or a product can be formed in three ways: of quantities, by
an operator whose arguments may be numbers and variables, and of expressions.  All three
give the same terms and the same constant, whatever the numbers are.
-/

namespace MixedInteger

namespace Expression

variable {R : Type} [Add R]

/-- Terms after all the others are added at the end. -/
theorem entries_foldl_update (added : List (Variable × R)) (table : Table Variable R)
    (ordered : Table.Ordered (table.entries ++ added)) :
    (added.foldl (fun acc p => acc.update p.1 fun
      | some present => present + p.2
      | none => p.2) table).entries = table.entries ++ added := by
  induction added generalizing table with
  | nil => exact (List.append_nil _).symm
  | cons entry rest ih =>
      obtain ⟨-, -, below⟩ := List.pairwise_append.mp ordered
      have stored : (table.update entry.1 fun
          | some present => present + entry.2
          | none => entry.2).entries = table.entries ++ [entry] :=
        Table.upsert_of_above fun p present => below p present entry List.mem_cons_self
      have moved : table.entries ++ entry :: rest = table.entries ++ [entry] ++ rest :=
        List.append_cons _ _ _
      rw [List.foldl_cons, ih _ (by rwa [stored, ← moved]), stored, moved]

theorem addTerms_empty (table : Table Variable R) : addTerms Table.empty table = table :=
  Table.eq_of_entries_eq (entries_foldl_update table.entries Table.empty table.ordered)

/-- A constant on the left of a sum only adds to the constant. -/
theorem ofConstant_merged (x : R) (e : Expression R) :
    (ofConstant x).merged e = ⟨e.terms, x + e.constant⟩ := by
  rw [merged, ofConstant, addTerms_empty]

theorem merged_ofConstant (x : R) (e : Expression R) :
    e.merged (ofConstant x) = ⟨e.terms, e.constant + x⟩ := rfl

/-- A constant may stand on either side of a sum. -/
theorem ofConstant_merged_comm (x : Float) (e : Expression Float) :
    (ofConstant x).merged e = e.merged (ofConstant x) := by
  rw [ofConstant_merged, merged_ofConstant, Rounding.float_add_comm]

theorem negated_ofConstant (x : Float) : (ofConstant x).negated = ofConstant (-x) :=
  congrArg ofConstant (Rounding.float_mul_minusOne x)

end Expression

namespace Quantity

theorem toExpression_plus (a b : Quantity Float) :
    (a.plus b).toExpression = a.toExpression + b.toExpression := by
  cases a <;> cases b <;> rfl

theorem toExpression_negated (a : Quantity Float) :
    a.negated.toExpression = -a.toExpression := by
  cases a with
  | number x => exact (Expression.negated_ofConstant x).symm
  | symbol v => rfl
  | expression e => rfl

theorem toExpression_minus (a b : Quantity Float) :
    (a.minus b).toExpression = a.toExpression - b.toExpression := by
  rw [minus, toExpression_plus, toExpression_negated]
  rfl

/-- A product with a number on the right scales the other side, and is a number if that is. -/
theorem times_number (a : Quantity Float) (x : Float) :
    ∃ c, a.times (.number x) = .ok c ∧ c.toExpression = a.toExpression.scaled x ∧
      c.isSymbolic = a.isSymbolic := by
  cases a <;> exact ⟨_, rfl, rfl, rfl⟩

/-- A product with a number on the left scales the other side, and is a number if that is. -/
theorem number_times (x : Float) (a : Quantity Float) :
    ∃ c, (number x).times a = .ok c ∧ c.toExpression = a.toExpression.scaled x ∧
      c.isSymbolic = a.isSymbolic := by
  cases a with
  | number y =>
      have scaled := congrArg Expression.ofConstant (Rounding.float_mul_comm x y)
      exact ⟨_, rfl, scaled, rfl⟩
  | symbol v => exact ⟨_, rfl, rfl, rfl⟩
  | expression e => exact ⟨_, rfl, rfl, rfl⟩

theorem times_error_iff (a b : Quantity Float) :
    (∃ p, a.times b = .error p) ↔ a.isSymbolic = true ∧ b.isSymbolic = true := by
  cases a <;> cases b <;> simp [times, isSymbolic]

theorem isSymbolic_plus (a b : Quantity Float) :
    (a.plus b).isSymbolic = (a.isSymbolic || b.isSymbolic) := by
  cases a <;> cases b <;> rfl

theorem isSymbolic_negated (a : Quantity Float) : a.negated.isSymbolic = a.isSymbolic := by
  cases a <;> rfl

theorem isSymbolic_minus (a b : Quantity Float) :
    (a.minus b).isSymbolic = (a.isSymbolic || b.isSymbolic) := by
  rw [minus, isSymbolic_plus, isSymbolic_negated]

end Quantity

namespace Argument

/-- The argument is a variable or an expression. -/
def isSymbolic : Argument → Bool
  | symbol _ => true
  | expression _ => true
  | _ => false

/-- The argument is a real number. -/
def isReal : Argument → Bool
  | real _ => true
  | _ => false

/-- The argument is a quantity, which stands beside no operator. -/
def isQuantity : Argument → Bool
  | quantity _ => true
  | _ => false

/-- A plus or a minus may stand between the arguments. -/
def adds (s t : Argument) : Bool :=
  s.isSymbolic && !t.isQuantity || s.isReal && t.isSymbolic

/-- A multiplication sign may stand between the arguments. -/
def multiplies (s t : Argument) : Bool :=
  s.isSymbolic && t.isReal || s.isReal && t.isSymbolic

theorem plus?_eq (s t : Argument) :
    s.plus? t = if s.adds t then some (s.toExpression.merged t.toExpression) else none := by
  cases s <;> cases t
  case real.symbol x v => exact congrArg some (Expression.ofConstant_merged_comm x _).symm
  case real.expression x e => exact congrArg some (Expression.ofConstant_merged_comm x _).symm
  all_goals rfl

theorem minus?_eq (s t : Argument) :
    s.minus? t =
      if s.adds t then some (s.toExpression.merged t.toExpression.negated) else none := by
  cases s <;> cases t
  case real.symbol x v => exact congrArg some (Expression.ofConstant_merged_comm x _).symm
  case real.expression x e => exact congrArg some (Expression.ofConstant_merged_comm x _).symm
  all_goals rfl

/-- A number on the left scales a variable or an expression. -/
theorem real_times?_eq (x : Float) (t : Argument) :
    (real x).times? t = if t.isSymbolic then some (t.toExpression.scaled x) else none := by
  cases t <;> rfl

/-- A number on the right scales a variable or an expression. -/
theorem times?_real_eq (s : Argument) (x : Float) :
    s.times? (real x) = if s.isSymbolic then some (s.toExpression.scaled x) else none := by
  cases s <;> rfl

theorem times?_eq_none_iff (s t : Argument) : s.times? t = none ↔ s.multiplies t = false := by
  cases s <;> cases t <;> simp [times?, multiplies, isReal, isSymbolic]

theorem negated?_eq (s : Argument) :
    s.negated? = if s.isSymbolic then some s.toExpression.negated else none := by
  cases s <;> rfl

theorem posited?_eq (s : Argument) :
    s.posited? = if s.isSymbolic then some s.toExpression else none := by
  cases s <;> rfl

end Argument

/-- The operations on quantities and the operators do what the operations on expressions do. -/
theorem operations_agree :
    (∀ a b : Quantity Float,
      (a.plus b).toExpression = a.toExpression + b.toExpression ∧
      (a.minus b).toExpression = a.toExpression - b.toExpression ∧
      a.negated.toExpression = -a.toExpression ∧
      ((∃ p, a.times b = .error p) ↔ a.isSymbolic = true ∧ b.isSymbolic = true) ∧
      (a.plus b).isSymbolic = (a.isSymbolic || b.isSymbolic) ∧
      (a.minus b).isSymbolic = (a.isSymbolic || b.isSymbolic) ∧
      a.negated.isSymbolic = a.isSymbolic) ∧
    (∀ (a : Quantity Float) (x : Float),
      (∃ c, a.times (.number x) = .ok c ∧ c.toExpression = a.toExpression.scaled x ∧
        c.isSymbolic = a.isSymbolic) ∧
      ∃ c, Quantity.times (.number x) a = .ok c ∧ c.toExpression = a.toExpression.scaled x ∧
        c.isSymbolic = a.isSymbolic) ∧
    (∀ s t : Argument,
      s.plus? t = (if s.adds t then some (s.toExpression.merged t.toExpression) else none) ∧
      s.minus? t =
        (if s.adds t then some (s.toExpression.merged t.toExpression.negated) else none) ∧
      (s.times? t = none ↔ s.multiplies t = false) ∧
      s.negated? = (if s.isSymbolic then some s.toExpression.negated else none) ∧
      s.posited? = (if s.isSymbolic then some s.toExpression else none)) ∧
    ∀ (s : Argument) (x : Float),
      s.times? (.real x) = (if s.isSymbolic then some (s.toExpression.scaled x) else none) ∧
      Argument.times? (.real x) s =
        (if s.isSymbolic then some (s.toExpression.scaled x) else none) := by
  refine ⟨fun a b => ?_, fun a x => ?_, fun s t => ?_, fun s x => ?_⟩
  · exact ⟨a.toExpression_plus b, a.toExpression_minus b, a.toExpression_negated,
      a.times_error_iff b, a.isSymbolic_plus b, a.isSymbolic_minus b, a.isSymbolic_negated⟩
  · exact ⟨a.times_number x, Quantity.number_times x a⟩
  · exact ⟨s.plus?_eq t, s.minus?_eq t, s.times?_eq_none_iff t, s.negated?_eq, s.posited?_eq⟩
  · exact ⟨s.times?_real_eq x, Argument.real_times?_eq x s⟩

end MixedInteger
