import MixedInteger.Decimal.Style
import MixedInteger.Json.Reader
import MixedInteger.Json.Writer

/-!
# JSON forms

A type with a JSON form is written as a JSON value and read from one.  Reading
is bounded in depth: it is given the number of arrays and objects that may
still be opened.  Records are written as objects and read from objects or from
arrays of their fields; a choice between names is written as a text and read
from a text or from an object with that one name and nothing as its value.
-/

namespace MixedInteger.Json

/-- How many arrays and objects may be open at once in what is read. -/
def nestingLimit : Nat := 127

/-- Numbers of a JSON text: positional from a hundred-thousandth, and signed powers of ten. -/
def numberStyle : Decimal.Style where
  positional exponent := decide (-5 ≤ exponent ∧ exponent < 16)
  pointed := true
  plus := true
  tie := .even

/-- The value of a number, which is nothing if the number is not finite. -/
def ofFloat (x : Float) : Json :=
  if x.isFinite then number (numberStyle.write x) else null

/-- The number of a literal, if it is finite. -/
def floatOfLiteral? (literal : String) : Option Float :=
  match Decimal.strict? literal.toList with
  | some value => if value.toFloat.isFinite then some value.toFloat else none
  | none => none

def float? : Json → Option Float
  | number literal => floatOfLiteral? literal
  | _ => none

def boolean? : Json → Option Bool
  | boolean value => some value
  | _ => none

/-- A type whose values are written as JSON and read from it. -/
class Form (α : Type) where
  write : α → Json
  /-- Reads a value in which at most `room` arrays and objects are open at once. -/
  read? (room : Nat) : Json → Option α

def encode {α : Type} [Form α] (a : α) : String :=
  (Form.write a).write

def decode? {α : Type} [Form α] (text : String) : Option α :=
  (parse? text).bind (Form.read? nestingLimit)

def choice? {α : Type} (names : List (String × α)) (room : Nat) : Json → Option α
  | text (some name) => names.lookup name
  | object [(some name, null)] => if room = 0 then none else names.lookup name
  | _ => none

/-- The values under one key, in order. -/
def valuesOf (key : String) (members : List (Option String × Json)) : List Json :=
  (members.filter fun p => p.1 == some key).map Prod.snd

/-- The fields of an object: each key at most once, other keys left out. -/
def fieldsOfMembers? (members : List (Option String × Json)) :
    List String → Option (List (Option Json))
  | [] => some []
  | key :: rest =>
    match valuesOf key members with
    | [] => (fieldsOfMembers? members rest).map (none :: ·)
    | [value] => (fieldsOfMembers? members rest).map (some value :: ·)
    | _ => none

/-- The fields of an array, which may end before the last of them. -/
def fieldsOfItems? : List Json → List String → Option (List (Option Json))
  | [], keys => some (keys.map fun _ => none)
  | _ :: _, [] => none
  | value :: rest, _ :: keys => (fieldsOfItems? rest keys).map (some value :: ·)

/-- The fields of a record, in the order of their keys. -/
def fields? (keys : List String) (room : Nat) : Json → Option (List (Option Json))
  | object members =>
    if room = 0 || !members.all (·.1.isSome) then none else fieldsOfMembers? members keys
  | array items => if room = 0 then none else fieldsOfItems? items keys
  | _ => none

def required {α : Type} (read : Json → Option α) : Option Json → Option α
  | some value => read value
  | none => none

def optional {α : Type} (standard : α) (read : Json → Option α) : Option Json → Option α
  | some value => read value
  | none => some standard

def list? {α : Type} (read : Nat → Json → Option α) (room : Nat) : Json → Option (List α)
  | array items => if room = 0 then none else items.mapM (read (room - 1))
  | _ => none

end MixedInteger.Json
