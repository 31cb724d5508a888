/-!
# JSON values

A value of a JSON text.  Numbers keep their spelling, since what a literal is
worth is a question of its reader: a field that nobody reads may hold a number
of any size.  In the same way a quoted text that holds half of a surrogate pair
is a value without content.
-/

namespace MixedInteger

/-- A JSON value; members of objects keep their order and may repeat. -/
inductive Json where
  | null
  | boolean (value : Bool)
  | number (literal : String)
  /-- A quoted text, without content if a surrogate stands alone in it. -/
  | text (content : Option String)
  | array (items : List Json)
  | object (members : List (Option String × Json))

namespace Json

def ofString (content : String) : Json := text (some content)

def ofFields (fields : List (String × Json)) : Json :=
  object (fields.map fun p => (some p.1, p.2))

def string? : Json → Option String
  | text content => content
  | _ => none

mutual

/-- How many arrays and objects are open at once inside a value, itself included. -/
def height : Json → Nat
  | array items => heightOfItems items + 1
  | object members => heightOfMembers members + 1
  | _ => 0
termination_by structural value => value

def heightOfItems : List Json → Nat
  | [] => 0
  | value :: rest => max value.height (heightOfItems rest)
termination_by structural items => items

def heightOfMembers : List (Option String × Json) → Nat
  | [] => 0
  | (_, value) :: rest => max value.height (heightOfMembers rest)
termination_by structural members => members

end

end Json

end MixedInteger
