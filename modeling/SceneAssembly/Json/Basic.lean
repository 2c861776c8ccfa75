/-
  SceneAssembly/Json/Basic.lean
  =============================
  **JSON values as they are written.**

  A value keeps what a reader may still have to refuse: members of an object in
  order and with repetitions, strings that pair no surrogate (`none`), and
  numbers too large for a double.  A part of a document that nobody asks for may
  hold any of these; `strict` is the check for the parts that are kept.
-/
import SceneAssembly.Table

namespace SceneAssembly

/-- The value of a number token.  An integer stays one while it fits 64 bits. -/
inductive Number where
  /-- A non-negative integer below `2 ^ 64`. -/
  | natural (n : Nat)
  /-- The integer `-n`, for `0 < n ≤ 2 ^ 63`. -/
  | negative (n : Nat)
  /-- Any other number, at double precision. -/
  | double (x : Float)
  /-- A magnitude above the largest double. -/
  | outOfRange

/-- A JSON value. -/
inductive Json where
  | null
  | bool (b : Bool)
  | number (n : Number)
  /-- A string, or `none` for one that holds an unpaired surrogate. -/
  | text (s : Option String)
  | array (items : List Json)
  | object (members : List (Option String × Json))

namespace Json

/-- A member list with the last value of each key, or `none` when a key is no text. -/
def lastWins (members : List (Option String × Json)) : Option (List (Option String × Json)) :=
  (members.mapM fun (m : Option String × Json) => m.1.map fun key => (key, m.2)).map fun named =>
    (Table.ofList named).entries.map fun e => (some e.1, e.2)

mutual

/-- The value with one member per key, the last one, provided that its containers nest at most
    `depth` deep, its strings are texts and its numbers are in range. -/
def strict (depth : Nat) : Json → Option Json
  | null => some null
  | bool b => some (bool b)
  | number .outOfRange => none
  | number n => some (number n)
  | text none => none
  | text (some s) => some (text (some s))
  | array items =>
    match depth with
    | 0 => none
    | depth + 1 => (strictItems depth items).map array
  | object members =>
    match depth with
    | 0 => none
    | depth + 1 => ((strictMembers depth members).bind lastWins).map object

def strictItems (depth : Nat) : List Json → Option (List Json)
  | [] => some []
  | item :: rest => do
    let item ← strict depth item
    let rest ← strictItems depth rest
    return item :: rest

def strictMembers (depth : Nat) :
    List (Option String × Json) → Option (List (Option String × Json))
  | [] => some []
  | (key, value) :: rest => do
    let value ← strict depth value
    let rest ← strictMembers depth rest
    return (key, value) :: rest

end

/-- The first member under a key. -/
def member? (key : String) : Json → Option Json
  | object members => members.lookup (some key)
  | _ => none

/-- The string stored under a key. -/
def tag? (key : String) (j : Json) : Option String :=
  match j.member? key with
  | some (text s) => s
  | _ => none

end Json

end SceneAssembly
