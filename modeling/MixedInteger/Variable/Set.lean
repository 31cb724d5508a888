import MixedInteger.Variable

/-!
# Sets of variables

The variables of a model form a set in which each name occurs once.  Putting a
variable in one at a time keeps the variable that came first under a name;
collecting a whole list keeps the one that came last.
-/

namespace MixedInteger

/-- A set of variables, at most one of each name. -/
abbrev VariableSet := Table Variable Unit

namespace VariableSet

/-- The set with one more variable, unless its name is taken. -/
def insert (vars : VariableSet) (v : Variable) : VariableSet :=
  vars.update v fun _ => ()

/-- The variable of the set with a given name. -/
def find? (vars : VariableSet) (name : String) : Option Variable :=
  (vars.pair? name).map Prod.fst

/-- Some variable of the set has the given name. -/
def hasName (vars : VariableSet) (name : String) : Bool :=
  (vars.find? name).isSome

/-- The set of the variables put in one after another. -/
def ofList (vs : List Variable) : VariableSet :=
  vs.foldl insert Table.empty

/-- The set of a list as a whole, which keeps the last variable of each name. -/
def collect (vs : List Variable) : VariableSet :=
  vs.foldr (fun v vars => vars.insert v) Table.empty

/-- The names of the variables of one kind, in order. -/
def namesOfKind (vars : VariableSet) (kind : Kind) : List String :=
  (vars.keys.filter fun v => v.kind == kind).map Variable.name

end VariableSet

end MixedInteger
