import MixedInteger.Document
import MixedInteger.Variable.Json

/-!
# JSON form of documents

A formula is a number, a name, or an object with the key of an operator.  If an
object has several such keys, the first operator in the order sum, difference,
product, opposite whose key stands there once and with a valid value counts; all
other keys are passed over.  Nothing inside a formula may be out of range or
without content, not even what is passed over.
-/

namespace MixedInteger

namespace Relation

def names : List (String × Relation) :=
  [("<", .less), ("<=", .lessEqual), (">", .greater), (">=", .greaterEqual), ("=", .equal)]

end Relation

instance : Json.Form Relation where
  write relation := .ofString relation.token
  read? := Json.choice? Relation.names

namespace Direction

def names : List (String × Direction) :=
  [("minimize", .minimize), ("maximize", .maximize)]

def label : Direction → String
  | minimize => "minimize"
  | maximize => "maximize"

end Direction

instance : Json.Form Direction where
  write direction := .ofString direction.label
  read? := Json.choice? Direction.names

namespace Formula

mutual

/-- Every number in a value is finite and every text has content. -/
def isRegular : Json → Bool
  | .number literal => (Json.floatOfLiteral? literal).isSome
  | .text content => content.isSome
  | .array items => areRegular items
  | .object members => areRegularMembers members
  | _ => true
termination_by structural value => value

def areRegular : List Json → Bool
  | [] => true
  | value :: rest => isRegular value && areRegular rest
termination_by structural items => items

def areRegularMembers : List (Option String × Json) → Bool
  | [] => true
  | (key, value) :: rest => key.isSome && isRegular value && areRegularMembers rest
termination_by structural members => members

end

/-- What a value can be read as: a formula, or the formulas of an array. -/
inductive Reading where
  | formula (value : Option (Formula Float))
  | items (values : Option (List (Formula Float)))

def Reading.formula? : Reading → Option (Formula Float)
  | formula value => value
  | items _ => none

def Reading.items? : Reading → Option (List (Formula Float))
  | formula _ => none
  | items values => values

/-- The reading of the only member with a key. -/
def only? (key : String) (members : List (Option String × Reading)) : Option Reading :=
  match members.filter fun p => p.1 == some key with
  | [(_, reading)] => some reading
  | _ => none

def pair? (key : String) (members : List (Option String × Reading)) :
    Option (Formula Float × Formula Float) :=
  match (only? key members).bind Reading.items? with
  | some [left, right] => some (left, right)
  | _ => none

/-- The formula that the members of an object describe. -/
def ofMembers? (members : List (Option String × Reading)) : Option (Formula Float) :=
  (((only? "add" members).bind Reading.items?).map sum) <|>
  ((pair? "sub" members).map fun p => difference p.1 p.2) <|>
  ((pair? "mul" members).map fun p => product p.1 p.2) <|>
  (((only? "neg" members).bind Reading.formula?).map opposite)

mutual

def readingOf : Json → Reading
  | .number literal => .formula ((Json.floatOfLiteral? literal).map number)
  | .text content => .formula (content.map name)
  | .array items => .items (readingsOfItems items)
  | .object members => .formula (ofMembers? (readingsOfMembers members))
  | _ => .formula none
termination_by structural value => value

/-- The formulas of some items, if all of them are formulas. -/
def readingsOfItems : List Json → Option (List (Formula Float))
  | [] => some []
  | value :: rest =>
    match (readingOf value).formula?, readingsOfItems rest with
    | some first, some others => some (first :: others)
    | _, _ => none
termination_by structural items => items

/-- The readings of the values of some members. -/
def readingsOfMembers : List (Option String × Json) → List (Option String × Reading)
  | [] => []
  | (key, value) :: rest => (key, readingOf value) :: readingsOfMembers rest
termination_by structural members => members

end

def ofJson? (value : Json) : Option (Formula Float) :=
  (readingOf value).formula?

mutual

def toJson : Formula Float → Json
  | .number value => .ofFloat value
  | .name text => .ofString text
  | .sum items => .ofFields [("add", .array (toJsonItems items))]
  | .difference left right => .ofFields [("sub", .array [left.toJson, right.toJson])]
  | .product left right => .ofFields [("mul", .array [left.toJson, right.toJson])]
  | .opposite inner => .ofFields [("neg", inner.toJson)]
termination_by structural formula => formula

def toJsonItems : List (Formula Float) → List Json
  | [] => []
  | item :: rest => item.toJson :: toJsonItems rest
termination_by structural items => items

end

end Formula

instance : Json.Form (Formula Float) where
  write := Formula.toJson
  read? room value :=
    if value.height ≤ room && Formula.isRegular value then Formula.ofJson? value else none

instance : Json.Form Declaration where
  write d :=
    .ofFields [("name", d.name.elim .null .ofString), ("kind", Json.Form.write d.kind)]
  read? room value := do
    let [name, kind] ← Json.fields? ["name", "kind"] room value | none
    let name ← Json.optional none
      (fun
        | .null => some none
        | value => (Json.string? value).map some) name
    let kind ← Json.optional .continuous (Json.Form.read? (room - 1)) kind
    return ⟨name, kind⟩

instance : Json.Form (Requirement Float) where
  write c := .ofFields
    [("lhs", Json.Form.write c.left), ("sense", Json.Form.write c.relation),
      ("rhs", Json.Form.write c.right)]
  read? room value := do
    let [left, relation, right] ← Json.fields? ["lhs", "sense", "rhs"] room value | none
    let left ← Json.required (Json.Form.read? (room - 1)) left
    let relation ← Json.required (Json.Form.read? (room - 1)) relation
    let right ← Json.required (Json.Form.read? (room - 1)) right
    return ⟨left, relation, right⟩

instance : Json.Form (Document Float) where
  write d := .ofFields
    [("sense", Json.Form.write d.direction),
      ("variables", .array (d.declarations.map Json.Form.write)),
      ("objective", Json.Form.write d.objective),
      ("constraints", .array (d.requirements.map Json.Form.write))]
  read? room value := do
    let [direction, declarations, objective, requirements] ←
      Json.fields? ["sense", "variables", "objective", "constraints"] room value | none
    let direction ← Json.required (Json.Form.read? (room - 1)) direction
    let declarations ←
      Json.optional [] (Json.list? Json.Form.read? (room - 1)) declarations
    let objective ← Json.required (Json.Form.read? (room - 1)) objective
    let requirements ←
      Json.optional [] (Json.list? Json.Form.read? (room - 1)) requirements
    return ⟨direction, declarations, objective, requirements⟩

end MixedInteger
