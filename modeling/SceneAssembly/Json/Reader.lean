/-
  SceneAssembly/Json/Reader.lean
  ==============================
  **From tokens to JSON values.**

  A pushdown reader: the containers around the current position wait on a
  stack, so that no nesting is too deep for it, and each token either moves it
  on or is refused.  `Json.ofString?` accepts exactly the texts that hold one
  value.
-/
import SceneAssembly.Json.Lexer

namespace SceneAssembly

namespace Reader

/-- A container that waits for the value of its next item or member; what it holds already is in
    reverse. -/
inductive Frame where
  | array (done : List Json)
  | object (done : List (Option String × Json)) (key : Option String)

/-- What may stand next. -/
inductive Expect where
  | value
  | itemOrClose
  | keyOrClose
  | key (done : List (Option String × Json))
  | colon (done : List (Option String × Json)) (key : Option String)
  | commaOrCloseArray (done : List Json)
  | commaOrCloseObject (done : List (Option String × Json))
  | nothing (value : Json)

structure State where
  stack : List Frame
  expect : Expect

/-- Hands a complete value to the container around it. -/
def complete (stack : List Frame) (value : Json) : State :=
  match stack with
  | [] => ⟨[], .nothing value⟩
  | .array done :: stack => ⟨stack, .commaOrCloseArray (value :: done)⟩
  | .object done key :: stack => ⟨stack, .commaOrCloseObject ((key, value) :: done)⟩

/-- A token where a value may start. -/
def stepValue (stack : List Frame) : Token → Option State
  | .openArray => some ⟨stack, .itemOrClose⟩
  | .openObject => some ⟨stack, .keyOrClose⟩
  | .null => some (complete stack .null)
  | .bool b => some (complete stack (.bool b))
  | .number n => some (complete stack (.number n))
  | .text s => some (complete stack (.text s))
  | _ => none

def step (s : State) (t : Token) : Option State :=
  match s.expect, t with
  | .value, t => stepValue s.stack t
  | .itemOrClose, .closeArray => some (complete s.stack (.array []))
  | .itemOrClose, t => stepValue (.array [] :: s.stack) t
  | .keyOrClose, .closeObject => some (complete s.stack (.object []))
  | .keyOrClose, .text key => some ⟨s.stack, .colon [] key⟩
  | .key done, .text key => some ⟨s.stack, .colon done key⟩
  | .colon done key, .colon => some ⟨.object done key :: s.stack, .value⟩
  | .commaOrCloseArray done, .comma => some ⟨.array done :: s.stack, .value⟩
  | .commaOrCloseArray done, .closeArray => some (complete s.stack (.array done.reverse))
  | .commaOrCloseObject done, .comma => some ⟨s.stack, .key done⟩
  | .commaOrCloseObject done, .closeObject => some (complete s.stack (.object done.reverse))
  | _, _ => none

end Reader

/-- Reads a text that holds one JSON value. -/
def Json.ofString? (input : String) : Option Json := do
  let s ← (← tokens? input).foldlM Reader.step ⟨[], .value⟩
  match s.expect with
  | .nothing value => some value
  | _ => none

end SceneAssembly
