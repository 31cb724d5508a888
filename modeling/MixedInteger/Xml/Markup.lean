import MixedInteger.Xml.Character

/-!
# Markup of an XML text

A text is a sequence of tags, character data, comments and instructions.  What
stands in character data, comments and instructions is checked for its form and
dropped; that they are there is kept.  References are the five predefined ones and
those to characters by number; document type definitions are refused.
-/

namespace MixedInteger.Xml

/-- A name and the part before its colon, which is empty without a colon. -/
structure QualifiedName where
  space : String
  own : String
deriving DecidableEq, Repr

/-- An attribute as it is written, with the references in its value resolved. -/
structure WrittenAttribute where
  name : QualifiedName
  value : String
deriving DecidableEq, Repr

/-- A piece of markup: one of the three kinds of tags, or something between tags. -/
inductive Piece where
  | opening (name : QualifiedName) (attributes : List WrittenAttribute)
  | empty (name : QualifiedName) (attributes : List WrittenAttribute)
  | closing (name : QualifiedName)
  | characters
  | comment
  | instruction
deriving DecidableEq, Repr

namespace Markup

/-- What follows a given beginning. -/
def after? : List Char → List Char → Option (List Char)
  | [], text => some text
  | c :: rest, d :: text => if c = d then after? rest text else none
  | _ :: _, [] => none

/-- The text before and after the first occurrence of a delimiter. -/
def cut? (delimiter : List Char) : List Char → Option (List Char × List Char)
  | [] => none
  | c :: text =>
    match after? delimiter (c :: text) with
    | some rest => some ([], rest)
    | none => (cut? delimiter text).map fun p => (c :: p.1, p.2)

def contains (part text : List Char) : Bool := (cut? part text).isSome

/-- The text after its leading blanks. -/
def withoutSpaces (text : List Char) : List Char := text.dropWhile isSpace

/-- A name that starts the text, which may hold colons, and what follows it. -/
def name? (text : List Char) : Option (List Char × List Char) :=
  match text with
  | c :: _ =>
    if isNameStart c then some (text.takeWhile isNameChar, text.dropWhile isNameChar) else none
  | [] => none

/-- The text begins with a character that may begin a name. -/
def startsName : List Char → Bool
  | c :: _ => isNameStart c
  | [] => false

/-- A name with at most one colon that starts the text, and what follows it. -/
def qualifiedName? (text : List Char) : Option (QualifiedName × List Char) :=
  let written := text.takeWhile isNameChar
  let rest := text.dropWhile isNameChar
  match written.splitOnP (· == ':') with
  | [whole] => if startsName whole then some (⟨"", String.ofList whole⟩, rest) else none
  | [space, own] =>
    if (space.isEmpty || startsName space) && startsName own then
      some (⟨String.ofList space, String.ofList own⟩, rest)
    else none
  | _ => none

/-- The characters of the predefined references. -/
def predefined : List (String × Char) :=
  [("quot", '"'), ("amp", '&'), ("apos", '\''), ("lt", '<'), ("gt", '>')]

/-- The value of a digit of a base up to sixteen. -/
def digit? (base : Nat) (c : Char) : Option Nat :=
  let value :=
    if '0' ≤ c && c ≤ '9' then c.toNat - '0'.toNat
    else if 'a' ≤ c && c ≤ 'f' then c.toNat - 'a'.toNat + 10
    else if 'A' ≤ c && c ≤ 'F' then c.toNat - 'A'.toNat + 10
    else base
  if value < base then some value else none

/-- The number that some digits of a base spell. -/
def numeral? (base : Nat) : Nat → List Char → Option Nat
  | acc, [] => some acc
  | acc, c :: rest => (digit? base c).bind fun d => numeral? base (base * acc + d) rest

/--
The character with a given number of at most thirty-two bits.  Numbers of no
character stand for the replacement character.
-/
def numbered? (n : Nat) : Option Char :=
  if 0xFFFFFFFF < n then none
  else
    let c := if n.isValidChar then Char.ofNat n else '\uFFFD'
    if isDocumentChar c then some c else none

/-- The character that the body of a reference stands for. -/
def referenced? : List Char → Option Char
  | '#' :: 'x' :: digits =>
    if digits.isEmpty then none else (numeral? 16 0 digits).bind numbered?
  | '#' :: digits =>
    if digits.isEmpty then none else (numeral? 10 0 digits).bind numbered?
  | body => predefined.lookup (String.ofList body)

/-- The references of some character data are well formed; `body` is the one being read. -/
def referencesFrom : Option (List Char) → List Char → Bool
  | none, [] => true
  | some _, [] => false
  | none, c :: rest => referencesFrom (if c = '&' then some [] else none) rest
  | some body, c :: rest =>
    if c = ';' then (referenced? body.reverse).isSome && referencesFrom none rest
    else referencesFrom (some (c :: body)) rest

/--
The value of an attribute: references resolved, and each tab, line end or other
blank that is not a reference made a space.
-/
def valueFrom : Option (List Char) → List Char → Option (List Char)
  | none, [] => some []
  | some _, [] => none
  | none, '\r' :: '\n' :: rest => (valueFrom none rest).map (' ' :: ·)
  | none, c :: rest =>
    if c = '&' then valueFrom (some []) rest
    else (valueFrom none rest).map ((if isSpace c then ' ' else c) :: ·)
  | some body, c :: rest =>
    if c = ';' then
      match referenced? body.reverse, valueFrom none rest with
      | some d, some value => some (d :: value)
      | _, _ => none
    else valueFrom (some (c :: body)) rest

/-- An attribute that starts the text: its name, its raw value and what follows. -/
def attribute? (text : List Char) : Option (QualifiedName × List Char × List Char) := do
  let (name, rest) ← qualifiedName? text
  match withoutSpaces rest with
  | '=' :: rest =>
    match withoutSpaces rest with
    | quote :: rest =>
      if quote = '"' || quote = '\'' then
        let (value, rest) ← cut? [quote] rest
        if value.contains '<' then none else some (name, value, rest)
      else none
    | [] => none
  | _ => none

def startsSpace : List Char → Bool
  | c :: _ => isSpace c
  | [] => false

/--
The attributes and the end of a tag, at most `count` of them: what they are,
whether the tag closes its element, and what follows it.
-/
def attributes? : Nat → List Char → Option (List WrittenAttribute × Bool × List Char)
  | 0, _ => none
  | count + 1, text =>
    match withoutSpaces text with
    | '/' :: '>' :: rest => some ([], true, rest)
    | '>' :: rest => some ([], false, rest)
    | other =>
      if startsSpace text then do
        let (name, raw, rest) ← attribute? other
        let value ← valueFrom none raw
        let (others, closed, rest) ← attributes? count rest
        return (⟨name, String.ofList value⟩ :: others, closed, rest)
      else none

/-- A tag that opens an element, after its bracket. -/
def openingTag? (text : List Char) : Option (Piece × List Char) := do
  let (name, rest) ← qualifiedName? text
  let (attributes, closed, rest) ← attributes? (rest.length + 1) rest
  return (if closed then .empty name attributes else .opening name attributes, rest)

/-- A tag that closes an element, after its bracket and slash. -/
def closingTag? (text : List Char) : Option (Piece × List Char) := do
  let (name, rest) ← qualifiedName? text
  let rest ← after? ['>'] (withoutSpaces rest)
  return (.closing name, rest)

def isComment (body : List Char) : Bool :=
  !contains ['-', '-'] body && body.getLast? != some '-'

/-- The body of an instruction: a name, which is not that of the declaration. -/
def isInstruction (body : List Char) : Bool :=
  (after? "xml ".toList body).isNone && (name? body).isSome

/-- Character data between tags. -/
def isCharacterData (text : List Char) : Bool :=
  !contains "]]>".toList text && referencesFrom none text

/-- A comment or an instruction that starts the text is passed over. -/
def afterRemark? (text : List Char) : Option (List Char) :=
  match after? "<!--".toList text with
  | some rest => do
    let (body, rest) ← cut? "-->".toList rest
    if isComment body then some rest else none
  | none => do
    let rest ← after? "<?".toList text
    let (body, rest) ← cut? "?>".toList rest
    if isInstruction body then some rest else none

/--
The markup inside an element, its closing tag included, at most `count` pieces of it,
from a point where `depth + 1` elements are open: the pieces and what follows the last
of them.
-/
def content? : Nat → Nat → List Char → Option (List Piece × List Char)
  | 0, _, _ => none
  | count + 1, depth, text =>
    match text with
    | '<' :: '/' :: rest => do
      let (tag, rest) ← closingTag? rest
      match depth with
      | 0 => return ([tag], rest)
      | depth + 1 => do
        let (pieces, rest) ← content? count depth rest
        return (tag :: pieces, rest)
    | '<' :: '!' :: '[' :: rest => do
      let rest ← after? "CDATA[".toList rest
      let (_, rest) ← cut? "]]>".toList rest
      let (pieces, rest) ← content? count depth rest
      return (.characters :: pieces, rest)
    | '<' :: '!' :: _ => do
      let rest ← afterRemark? text
      let (pieces, rest) ← content? count depth rest
      return (.comment :: pieces, rest)
    | '<' :: '?' :: _ => do
      let rest ← afterRemark? text
      let (pieces, rest) ← content? count depth rest
      return (.instruction :: pieces, rest)
    | '<' :: rest => do
      let (tag, rest) ← openingTag? rest
      let opened := match tag with
        | .opening _ _ => depth + 1
        | _ => depth
      let (pieces, rest) ← content? count opened rest
      return (tag :: pieces, rest)
    | [] => none
    | _ =>
      if isCharacterData (text.takeWhile (· != '<')) then do
        let (pieces, rest) ← content? count depth (text.dropWhile (· != '<'))
        return (.characters :: pieces, rest)
      else none

/-- Blanks, comments and instructions outside the root, at most `count` of them. -/
def afterRemarks : Nat → List Char → List Char
  | 0, text => withoutSpaces text
  | count + 1, text =>
    match afterRemark? (withoutSpaces text) with
    | some rest => afterRemarks count rest
    | none => withoutSpaces text

/-- An attribute of the declaration, if its name begins as given, with the blanks after it. -/
def declared? (name : String) (text : List Char) : Option (List Char) := do
  let _ ← after? name.toList text
  let (_, _, rest) ← attribute? text
  match rest with
  | c :: _ =>
    if isSpace c then some (withoutSpaces rest)
    else if (after? "?>".toList rest).isSome then some rest
    else none
  | [] => none

/--
What follows the declaration, after its name: a version, then optionally an
encoding, then optionally whether the document stands alone.
-/
def afterDeclaration? (text : List Char) : Option (List Char) := do
  let rest ← declared? "version" (withoutSpaces text)
  let rest ←
    if (after? "encoding".toList rest).isSome then declared? "encoding" rest else some rest
  let rest ←
    if (after? "standalone".toList rest).isSome then
      (attribute? rest).map fun p => p.2.2
    else some rest
  after? "?>".toList (withoutSpaces rest)

/-- The text after its byte order mark and its declaration. -/
def afterProlog? (text : List Char) : Option (List Char) :=
  let text := (after? ['\uFEFF'] text).getD text
  match after? "<?xml ".toList text with
  | some rest => afterDeclaration? rest
  | none => some text

/-- The markup of the root element of a document, in order. -/
def pieces? (text : List Char) : Option (List Piece) := do
  if !text.all isDocumentChar then none
  let text ← afterProlog? text
  let text ← after? ['<'] (afterRemarks text.length text)
  let (root, rest) ← openingTag? text
  let (inside, rest) ← match root with
    | .opening _ _ => content? (rest.length + 1) 0 rest
    | _ => some ([], rest)
  if (afterRemarks rest.length rest).isEmpty then some (root :: inside) else none

end Markup

end MixedInteger.Xml
