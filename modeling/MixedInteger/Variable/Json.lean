import MixedInteger.Json.Form
import MixedInteger.Variable

/-!
# JSON form of variables

A variable that is read gets its name in the same way as one that is made: the
blanks are taken out.  A kind that is left out is continuous.
-/

namespace MixedInteger

def Kind.names : List (String × Kind) :=
  [("continuous", .continuous), ("integer", .integer), ("binary", .binary)]

def Kind.label : Kind → String
  | .continuous => "continuous"
  | .integer => "integer"
  | .binary => "binary"

instance : Json.Form Kind where
  write kind := .ofString kind.label
  read? := Json.choice? Kind.names

instance : Json.Form Variable where
  write v := .ofFields [("name", .ofString v.name), ("kind", Json.Form.write v.kind)]
  read? room value := do
    let [name, kind] ← Json.fields? ["name", "kind"] room value | none
    let name ← Json.required Json.string? name
    let kind ← Json.optional .continuous (Json.Form.read? (room - 1)) kind
    return Variable.named kind name

end MixedInteger
