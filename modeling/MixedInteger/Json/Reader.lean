import MixedInteger.Json
import MixedInteger.Json.Token

/-!
# Reading JSON

The tokens of a text are read from left to right.  Each array or object that is
open stands on a stack with what it holds so far, and beside the stack is kept
what may come next.  Nothing bounds how deep a text may be nested.
-/

namespace MixedInteger.Json

namespace Reader

/-- An open array or object, its contents with the last one first. -/
inductive Frame where
  | items (done : List Json)
  /-- An object whose next value belongs to `key`. -/
  | members (done : List (Option String × Json)) (key : Option String)

/-- What the reader is waiting for. -/
inductive Expected where
  | value
  | itemOrEnd
  | keyOrEnd (done : List (Option String × Json))
  | key (done : List (Option String × Json))
  | colon (done : List (Option String × Json)) (key : Option String)
  /-- A value of the innermost frame is complete. -/
  | separator (value : Json)

/-- The open arrays and objects, innermost first, and what comes next. -/
structure State where
  stack : List Frame
  expected : Expected

/-- The state after a token that begins a value. -/
def beginValue? (stack : List Frame) : Token → Option State
  | .openObject => some ⟨stack, .keyOrEnd []⟩
  | .openArray => some ⟨stack, .itemOrEnd⟩
  | .null => some ⟨stack, .separator .null⟩
  | .boolean value => some ⟨stack, .separator (.boolean value)⟩
  | .number literal => some ⟨stack, .separator (.number literal)⟩
  | .text content => some ⟨stack, .separator (.text content)⟩
  | _ => none

def step? (state : State) (token : Token) : Option State :=
  match state.expected, token with
  | .value, token => beginValue? state.stack token
  | .itemOrEnd, .closeArray => some ⟨state.stack, .separator (.array [])⟩
  | .itemOrEnd, token => beginValue? (.items [] :: state.stack) token
  | .keyOrEnd done, .closeObject => some ⟨state.stack, .separator (.object done.reverse)⟩
  | .keyOrEnd done, .text key => some ⟨state.stack, .colon done key⟩
  | .key done, .text key => some ⟨state.stack, .colon done key⟩
  | .colon done key, .colon => some ⟨.members done key :: state.stack, .value⟩
  | .separator value, .comma =>
    match state.stack with
    | .items done :: rest => some ⟨.items (value :: done) :: rest, .value⟩
    | .members done key :: rest => some ⟨rest, .key ((key, value) :: done)⟩
    | [] => none
  | .separator value, .closeArray =>
    match state.stack with
    | .items done :: rest => some ⟨rest, .separator (.array (value :: done).reverse)⟩
    | _ => none
  | .separator value, .closeObject =>
    match state.stack with
    | .members done key :: rest =>
      some ⟨rest, .separator (.object ((key, value) :: done).reverse)⟩
    | _ => none
  | _, _ => none

/-- The value that has been read when all tokens are used up. -/
def finish? (state : State) : Option Json :=
  match state.stack, state.expected with
  | [], .separator value => some value
  | _, _ => none

end Reader

def ofTokens? (tokens : List Token) : Option Json :=
  (tokens.foldlM Reader.step? ⟨[], .value⟩).bind Reader.finish?

def parse? (text : String) : Option Json :=
  (Token.scan? text.toList).bind ofTokens?

end MixedInteger.Json
