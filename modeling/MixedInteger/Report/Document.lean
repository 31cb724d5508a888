import MixedInteger.Report
import MixedInteger.Xml

/-!
# Reports as XML documents

The objective is an attribute of the first header directly below the root, and
the values are attributes of the variable elements directly inside the
variables elements directly below the root.  Everything else is passed over.
-/

namespace MixedInteger.Report

def objectiveOfRoot? (root : Xml.Node) : Option Float := do
  let header ← root.children.find? fun node => node.hasName "header"
  let token ← header.attribute? "objectiveValue"
  finite? token.toList

/-- The elements that report variables, in order. -/
def variableElements (root : Xml.Node) : List Xml.Node :=
  (root.children.filter fun node => node.hasName "variables").flatMap fun node =>
    node.children.filter fun node => node.hasName "variable"

def entryOfElement (element : Xml.Node) : Entry :=
  match element.attribute? "name", element.attribute? "value" with
  | some name, some token =>
    match finite? token.toList with
    | some value => .ok (name, value)
    | none => .error (.tell (.rejected (.unusableValue name token)) (.give (.ok none)))
  | _, _ => .error (.tell (.rejected .incompleteVariable) (.give (.ok none)))

/-- The reading of a report whose root element is given. -/
def readRoot (vars : VariableSet) (root : Xml.Node) : Reading :=
  match objectiveOfRoot? root with
  | none => .tell (.rejected .noObjective) (.give (.ok none))
  | some objective => ofEntries vars objective ((variableElements root).map entryOfElement)

def readXml (vars : VariableSet) (text : String) : Reading :=
  match Xml.parse? text with
  | none => .tell (.rejected .malformed) (.give (.ok none))
  | some root => readRoot vars root

end MixedInteger.Report
