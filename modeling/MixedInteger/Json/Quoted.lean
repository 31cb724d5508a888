/-!
# Quoted texts of JSON

Inside quotation marks a character stands for itself, except that quotation
marks, backslashes and control characters are written as escapes.  Escapes may
also spell any other character by its UTF-16 code units; a unit that is half of
a surrogate pair has to stand beside its other half.
-/

namespace MixedInteger.Json.Quoted

/-- The value of a hexadecimal digit in either case. -/
def hexDigit? (c : Char) : Option Nat :=
  if '0' ≤ c && c ≤ '9' then some (c.toNat - '0'.toNat)
  else if 'a' ≤ c && c ≤ 'f' then some (c.toNat - 'a'.toNat + 10)
  else if 'A' ≤ c && c ≤ 'F' then some (c.toNat - 'A'.toNat + 10)
  else none

/-- The code unit that four hexadecimal digits spell. -/
def unit? (a b c d : Char) : Option Nat := do
  let a ← hexDigit? a
  let b ← hexDigit? b
  let c ← hexDigit? c
  let d ← hexDigit? d
  return ((a * 16 + b) * 16 + c) * 16 + d

/-- The character that an escape of one letter stands for. -/
def letter? : Char → Option Char
  | '"' => some '"'
  | '\\' => some '\\'
  | '/' => some '/'
  | 'b' => some '\x08'
  | 'f' => some '\x0c'
  | 'n' => some '\n'
  | 'r' => some '\r'
  | 't' => some '\t'
  | _ => none

/-- The code points and code units between quotation marks, if every escape is well formed. -/
def units? : List Char → Option (List Nat)
  | [] => some []
  | '\\' :: 'u' :: a :: b :: c :: d :: rest => do
    let unit ← unit? a b c d
    let units ← units? rest
    return unit :: units
  | '\\' :: c :: rest => do
    let escaped ← letter? c
    let units ← units? rest
    return escaped.toNat :: units
  | ['\\'] => none
  | c :: rest => do
    let units ← units? rest
    return c.toNat :: units

def isLeading (unit : Nat) : Bool := 0xD800 ≤ unit && unit < 0xDC00

def isTrailing (unit : Nat) : Bool := 0xDC00 ≤ unit && unit < 0xE000

/-- The characters that code units stand for, if no surrogate stands alone. -/
def characters? : List Nat → Option (List Char)
  | [] => some []
  | first :: rest =>
    if isLeading first then
      match rest with
      | [] => none
      | second :: rest =>
        if isTrailing second then do
          let text ← characters? rest
          return Char.ofNat ((first - 0xD800) * 0x400 + (second - 0xDC00) + 0x10000) :: text
        else none
    else if isTrailing first then none
    else do
      let text ← characters? rest
      return Char.ofNat first :: text

/--
The content of what stands between quotation marks: no result if an escape is
malformed, and no content if a surrogate stands alone.
-/
def content? (raw : List Char) : Option (Option String) :=
  (units? raw).map fun units => (characters? units).map String.ofList

def hexDigit (n : Nat) : Char :=
  if n < 10 then Char.ofNat ('0'.toNat + n) else Char.ofNat ('a'.toNat + (n - 10))

/-- A character as it is written between quotation marks. -/
def escape (c : Char) : List Char :=
  if c = '"' then ['\\', '"']
  else if c = '\\' then ['\\', '\\']
  else if c = '\x08' then ['\\', 'b']
  else if c = '\x0c' then ['\\', 'f']
  else if c = '\n' then ['\\', 'n']
  else if c = '\r' then ['\\', 'r']
  else if c = '\t' then ['\\', 't']
  else if c.toNat < 0x20 then
    ['\\', 'u', '0', '0', hexDigit (c.toNat / 16), hexDigit (c.toNat % 16)]
  else [c]

/-- A quoted text; a text without content is written as a surrogate that stands alone. -/
def write : Option String → List Char
  | some content => '"' :: (content.toList.flatMap escape ++ ['"'])
  | none => ['"', '\\', 'u', 'd', '8', '0', '0', '"']

end MixedInteger.Json.Quoted
