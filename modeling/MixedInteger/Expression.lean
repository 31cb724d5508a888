import MixedInteger.Variable

/-!
# Linear expressions

A linear expression is a table of coefficients and a constant.  Terms are never
dropped: a coefficient that cancels stays in the table as a zero, so that the
variables of an expression are exactly those it was built from.  The scalars
are arbitrary; no operation here depends on how they are rounded or written.
-/

namespace MixedInteger

/-- A sum of coefficients times variables, and a constant. -/
structure Expression (R : Type) where
  terms : Table Variable R
  constant : R

namespace Expression

variable {R : Type} [Zero R] [One R] [Add R] [Mul R] [Neg R]

/-- The expression without terms that has a given constant. -/
def ofConstant (constant : R) : Expression R := ⟨Table.empty, constant⟩

def zero : Expression R := ofConstant 0

def term (v : Variable) (coefficient : R) : Expression R :=
  ⟨Table.empty.update v fun _ => coefficient, 0⟩

/-- The variable itself, with coefficient one. -/
def ofVariable (v : Variable) : Expression R := term v 1

/-- Many terms at once: the coefficients listed for a name are added up from zero. -/
def ofTerms (terms : List (Variable × R)) (constant : R) : Expression R where
  terms := terms.foldl
    (fun table p => table.update p.1 fun present => present.getD 0 + p.2) Table.empty
  constant := constant

/-- The coefficients of one table added to those of another. -/
def addTerms (table other : Table Variable R) : Table Variable R :=
  other.entries.foldl
    (fun acc p => acc.update p.1 fun
      | some present => present + p.2
      | none => p.2) table

def merged (a b : Expression R) : Expression R :=
  ⟨addTerms a.terms b.terms, a.constant + b.constant⟩

/-- Every coefficient and the constant multiplied by a scalar. -/
def scaled (a : Expression R) (factor : R) : Expression R :=
  ⟨a.terms.map (· * factor), a.constant * factor⟩

def negated (a : Expression R) : Expression R := a.scaled (-1)

def withoutConstant (a : Expression R) : Expression R := ⟨a.terms, 0⟩

/-- The sum of a list, added up from zero. -/
def sum (items : List (Expression R)) : Expression R :=
  items.foldl merged zero

def coefficient? (a : Expression R) (name : String) : Option R :=
  a.terms.value? name

def vars (a : Expression R) : List Variable := a.terms.keys

instance [BEq R] : BEq (Expression R) :=
  ⟨fun a b => a.terms == b.terms && a.constant == b.constant⟩

instance : Add (Expression R) := ⟨merged⟩

instance : Neg (Expression R) := ⟨negated⟩

instance : Sub (Expression R) := ⟨fun a b => a.merged b.negated⟩

instance : HMul (Expression R) R (Expression R) := ⟨scaled⟩

instance : HMul R (Expression R) (Expression R) := ⟨fun factor a => a.scaled factor⟩

/-- A scalar on the left of a sum is added on the right. -/
instance : HAdd R (Expression R) (Expression R) := ⟨fun x a => a + ofConstant x⟩

/-- A scalar on the left of a difference is added to the negated expression. -/
instance : HSub R (Expression R) (Expression R) := ⟨fun x a => -a + ofConstant x⟩

end Expression

end MixedInteger
