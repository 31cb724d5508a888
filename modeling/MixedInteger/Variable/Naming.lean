import MixedInteger.Variable

/-!
# Generated names

A variable that is given no name receives `u`, a letter for its kind and the
count of the variables of its kind named in this way so far, itself included.
-/

namespace MixedInteger

/-- The letter that stands for a kind in a generated name. -/
def Kind.letter : Kind → Char
  | .continuous => 'r'
  | .integer => 'i'
  | .binary => 'b'

/-- How many names have been generated for each kind. -/
structure Naming where
  continuous : Nat
  integer : Nat
  binary : Nat
deriving DecidableEq, Repr

namespace Naming

/-- No name has been generated yet. -/
def fresh : Naming := ⟨0, 0, 0⟩

def count (naming : Naming) : Kind → Nat
  | .continuous => naming.continuous
  | .integer => naming.integer
  | .binary => naming.binary

/-- One more name of a kind is in use. -/
def advance (naming : Naming) : Kind → Naming
  | .continuous => { naming with continuous := naming.continuous + 1 }
  | .integer => { naming with integer := naming.integer + 1 }
  | .binary => { naming with binary := naming.binary + 1 }

theorem count_fresh (kind : Kind) : fresh.count kind = 0 := by
  cases kind <;> rfl

/-- A name of one kind leaves the counts of the others alone. -/
theorem count_advance (naming : Naming) (kind other : Kind) :
    (naming.advance kind).count other = naming.count other + if kind = other then 1 else 0 := by
  cases kind <;> cases other <;> rfl

/-- The generated name with a given count. -/
def generatedName (kind : Kind) (count : Nat) : String :=
  String.ofList ('u' :: kind.letter :: Nat.toDigits 10 count)

def nextName (naming : Naming) (kind : Kind) : String × Naming :=
  let next := naming.advance kind
  (generatedName kind (next.count kind), next)

/-- A variable with the next name of its kind. -/
def generate (naming : Naming) (kind : Kind) : Variable × Naming :=
  let (name, next) := naming.nextName kind
  (Variable.named kind name, next)

/-- A variable with the given name, or with a generated one. -/
def make (naming : Naming) (kind : Kind) : Option String → Variable × Naming
  | some name => (Variable.named kind name, naming)
  | none => naming.generate kind

end Naming

end MixedInteger
