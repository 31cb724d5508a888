import MixedInteger.Table
import MixedInteger.Text.Blank

/-!
# Decision variables

A variable is known by its name alone: two variables with one name are the same
variable for `==`, for hashing and for the order, whatever their kinds.  Names
hold no white space, so that a name is one word of every text it is written in.
-/

namespace MixedInteger

/-- The numbers that a variable may take. -/
inductive Kind where
  | continuous
  | integer
  | binary
deriving DecidableEq, Repr

/-- A decision variable, whose name holds no blank. -/
structure Variable where
  name : String
  kind : Kind
  name_unspaced : ∀ c ∈ name.toList, Text.isBlank c = false

namespace Variable

/-- The name that a text gives to a variable. -/
def nameOf (text : String) : String :=
  String.ofList (Text.unspaced text.toList)

/-- The variable of a kind that a text names. -/
def named (kind : Kind) (text : String) : Variable where
  name := nameOf text
  kind := kind
  name_unspaced := by
    intro c present
    rw [nameOf, String.toList_ofList] at present
    exact Text.isBlank_of_mem_unspaced present

/-- A name already in use names the same variable again. -/
theorem nameOf_name (v : Variable) : nameOf v.name = v.name := by
  rw [nameOf, Text.unspaced_eq_self v.name_unspaced, String.ofList_toList]

instance : Named Variable := ⟨Variable.name⟩

instance : BEq Variable where
  beq v w := v.name == w.name

instance : Hashable Variable where
  hash v := hash v.name

instance : Ord Variable where
  compare v w := compare v.name w.name

end Variable

end MixedInteger
