import MixedInteger.Xml.Markup

/-!
# XML documents

A document is a tree of elements with character data, comments and instructions
between them.  Names are resolved against the namespaces that the tags declare: an
element is known by its own name, whatever its namespace, and an attribute by its
own name together with its namespace.  What character data, comments and
instructions hold is never asked for and is not kept.
-/

namespace MixedInteger.Xml

/-- An attribute; without a prefix it is in no namespace. -/
structure Attribute where
  space : Option String
  name : String
  value : String
deriving DecidableEq, Repr

/-- An element with its own name, its attributes and the nodes inside it, or another node. -/
inductive Node where
  | element (name : String) (attributes : List Attribute) (children : List Node)
  | characters
  | comment
  | instruction

namespace Node

/-- The node is an element with the given name of its own. -/
def hasName : Node → String → Bool
  | element own _ _, name => own == name
  | _, _ => false

/-- The attributes of a node, of which only an element has any. -/
def attributes : Node → List Attribute
  | element _ attributes _ => attributes
  | _ => []

/-- The nodes inside a node, of which only an element has any. -/
def children : Node → List Node
  | element _ _ children => children
  | _ => []

/-- The value of an attribute that is in no namespace. -/
def attribute? (node : Node) (name : String) : Option String :=
  (node.attributes.find? fun a => a.space.isNone && a.name == name).map Attribute.value

end Node

/-- Prefixes and the namespaces they are bound to, innermost first. -/
abbrev Bindings := List (String × String)

/-- The namespace of the prefix `xml`, which is bound without a declaration. -/
def xmlSpace : String := "http://www.w3.org/XML/1998/namespace"

/-- The namespace of declarations, to which nothing may be bound. -/
def declarationSpace : String := "http://www.w3.org/2000/xmlns/"

/-- The bindings that the attributes of a tag declare, and its other attributes. -/
structure Declarations where
  bindings : Bindings
  others : List WrittenAttribute

namespace Declarations

/-- One more attribute of the tag. -/
def add? (d : Declarations) (a : WrittenAttribute) : Option Declarations :=
  if a.name.space = "xmlns" then
    if a.value = declarationSpace then none
    else if (a.name.own == "xml") != (a.value == xmlSpace) then none
    else if (d.bindings.lookup a.name.own).isSome then none
    else if a.value = xmlSpace then some d
    else some { d with bindings := (a.name.own, a.value) :: d.bindings }
  else if a.name.own = "xmlns" then
    if a.value = xmlSpace || a.value = declarationSpace then none else some d
  else some { d with others := d.others ++ [a] }

/-- The attributes of a tag, sorted out. -/
def ofWritten? (written : List WrittenAttribute) : Option Declarations :=
  written.foldlM add? ⟨[], []⟩

end Declarations

/-- An attribute with its prefix resolved. -/
def resolve? (bindings : Bindings) (a : WrittenAttribute) : Option Attribute :=
  if a.name.space = "" then some ⟨none, a.name.own, a.value⟩
  else if a.name.space = "xml" then some ⟨some xmlSpace, a.name.own, a.value⟩
  else (bindings.lookup a.name.space).map fun space => ⟨some space, a.name.own, a.value⟩

/-- No two attributes have the same namespace and name. -/
def areDistinct : List Attribute → Bool
  | [] => true
  | a :: rest => !(rest.any fun b => a.space == b.space && a.name == b.name) && areDistinct rest

/-- The attributes of a tag and the bindings inside it, given those around it. -/
def attributesOf? (outer : Bindings) (name : QualifiedName) (written : List WrittenAttribute) :
    Option (List Attribute × Bindings) := do
  let d ← Declarations.ofWritten? written
  let bindings := d.bindings ++ outer
  let attributes ← d.others.mapM (resolve? bindings)
  if !areDistinct attributes then none
  else if name.space = "" then some (attributes, bindings)
  else if (bindings.lookup name.space).isSome && name.space != "xmlns" then
    some (attributes, bindings)
  else none

/-- An element whose end has not been reached, the last of its children first. -/
structure Open where
  name : QualifiedName
  attributes : List Attribute
  bindings : Bindings
  children : List Node

/-- The bindings inside the innermost open element. -/
def bindingsOf : List Open → Bindings
  | [] => []
  | top :: _ => top.bindings

/-- The open elements once a node is complete; it is the root if none are open. -/
def complete (node : Node) : List Open → List Open × Option Node
  | [] => ([], some node)
  | top :: rest => ({ top with children := node :: top.children } :: rest, none)

/-- The root element of a sequence of markup, given the elements that are open. -/
def ofPieces? : List Open → List Piece → Option Node
  | _, [] => none
  | stack, .opening name written :: pieces => do
    let (attributes, bindings) ← attributesOf? (bindingsOf stack) name written
    ofPieces? (⟨name, attributes, bindings, []⟩ :: stack) pieces
  | stack, .empty name written :: pieces => do
    let (attributes, _) ← attributesOf? (bindingsOf stack) name written
    match complete (.element name.own attributes []) stack with
    | (_, some root) => if pieces.isEmpty then some root else none
    | (stack, none) => ofPieces? stack pieces
  | [], .closing _ :: _ => none
  | top :: rest, .closing name :: pieces =>
    if name = top.name then
      match complete (.element top.name.own top.attributes top.children.reverse) rest with
      | (_, some root) => if pieces.isEmpty then some root else none
      | (stack, none) => ofPieces? stack pieces
    else none
  | stack, .characters :: pieces => ofPieces? (complete .characters stack).1 pieces
  | stack, .comment :: pieces => ofPieces? (complete .comment stack).1 pieces
  | stack, .instruction :: pieces => ofPieces? (complete .instruction stack).1 pieces

def parse? (text : String) : Option Node :=
  (Markup.pieces? text.toList).bind (ofPieces? [])

end MixedInteger.Xml
