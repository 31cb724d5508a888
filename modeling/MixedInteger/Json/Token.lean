import MixedInteger.Decimal
import MixedInteger.Json.Quoted

/-!
# Tokens of a JSON text

A JSON text is a sequence of marks, quoted texts and words, with blanks allowed
between them.  The scanner goes through the text one character at a time; what
it has read of an unfinished token is its state.
-/

namespace MixedInteger.Json

/-- A token, with the content of quoted texts and the spelling of numbers. -/
inductive Token where
  | openObject
  | closeObject
  | openArray
  | closeArray
  | colon
  | comma
  | null
  | boolean (value : Bool)
  | number (literal : String)
  | text (content : Option String)
deriving DecidableEq, Repr

namespace Token

/-- The blanks of JSON are space, tab, line feed and carriage return. -/
def isSpace (c : Char) : Bool :=
  c == ' ' || c == '\t' || c == '\n' || c == '\r'

/-- The token of a character that is a token by itself. -/
def mark? (c : Char) : Option Token :=
  if c = '\x7b' then some openObject
  else if c = '\x7d' then some closeObject
  else if c = '[' then some openArray
  else if c = ']' then some closeArray
  else if c = ':' then some colon
  else if c = ',' then some comma
  else none

/-- A character that words and numbers consist of. -/
def isWordChar (c : Char) : Bool :=
  c.isAlphanum || c == '+' || c == '-' || c == '.'

def ofWord? (word : List Char) : Option Token :=
  if word = "null".toList then some null
  else if word = "true".toList then some (boolean true)
  else if word = "false".toList then some (boolean false)
  else if (Decimal.strict? word).isSome then some (number (String.ofList word))
  else none

/-- What has been read of the token that the scanner is in, last character first. -/
inductive Pending where
  | idle
  | word (read : List Char)
  | quoted (read : List Char)
  /-- Inside a quoted text and directly after a backslash. -/
  | escaped (read : List Char)

/-- The tokens read so far, last token first, and the unfinished one. -/
structure Scan where
  tokens : List Token
  pending : Pending

/-- A character that starts a token or stands between tokens. -/
def start? (tokens : List Token) (c : Char) : Option Scan :=
  if isSpace c then some ⟨tokens, .idle⟩
  else if c = '"' then some ⟨tokens, .quoted []⟩
  else if isWordChar c then some ⟨tokens, .word [c]⟩
  else (mark? c).map fun token => ⟨token :: tokens, .idle⟩

def step? (scan : Scan) (c : Char) : Option Scan :=
  match scan.pending with
  | .idle => start? scan.tokens c
  | .word read =>
    if isWordChar c then some ⟨scan.tokens, .word (c :: read)⟩
    else (ofWord? read.reverse).bind fun token => start? (token :: scan.tokens) c
  | .quoted read =>
    if c = '"' then
      (Quoted.content? read.reverse).map fun content => ⟨text content :: scan.tokens, .idle⟩
    else if c = '\\' then some ⟨scan.tokens, .escaped (c :: read)⟩
    else if c.toNat < 0x20 then none
    else some ⟨scan.tokens, .quoted (c :: read)⟩
  | .escaped read => some ⟨scan.tokens, .quoted (c :: read)⟩

def finish? (scan : Scan) : Option (List Token) :=
  match scan.pending with
  | .idle => some scan.tokens.reverse
  | .word read => (ofWord? read.reverse).map fun token => (token :: scan.tokens).reverse
  | _ => none

def scan? (text : List Char) : Option (List Token) :=
  (text.foldlM step? ⟨[], .idle⟩).bind finish?

end Token

end MixedInteger.Json
