import MixedInteger.Model

/-!
# Tallies of models

How many variables of each kind a model declares, how many constraints it has,
and how many of the variables no constraint mentions.
-/

namespace MixedInteger

structure Tally where
  continuous : Nat
  integer : Nat
  binary : Nat
  constraints : Nat
  /-- The declared variables that a written model leaves out. -/
  unmentioned : Nat
deriving DecidableEq, Repr

namespace Model

variable {R : Type}

def countOfKind (model : Model R) (kind : Kind) : Nat :=
  (model.vars.filter fun v => v.kind == kind).length

/-- The declared variables that no constraint mentions. -/
def unmentioned (model : Model R) : List Variable :=
  model.vars.filter fun v => !model.declared.hasName v.name

def tally (model : Model R) : Tally where
  continuous := model.countOfKind .continuous
  integer := model.countOfKind .integer
  binary := model.countOfKind .binary
  constraints := model.constraints.length
  unmentioned := model.unmentioned.length

end Model

end MixedInteger
