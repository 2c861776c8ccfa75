/-
  SceneAssembly/Json/Decoder.lean
  ===============================
  **Typed values out of JSON.**

  A decoder either yields a value or refuses; why it refuses is not told.
  Numbers become single precision, integers directly and doubles by rounding,
  and a count is read only from a non-negative integer token.  A record is an
  object whose known members occur at most once, or an array that gives its
  fields in order and may stop early; members it does not know are ignored,
  whatever they hold.
-/
import SceneAssembly.Json.Reader
import SceneAssembly.Vector

namespace SceneAssembly

/-- A partial reading of a JSON value. -/
abbrev Decoder (α : Type) := Json → Option α

namespace Decoder

variable {α : Type}

/-! ## 1. Plain values -/

def bool : Decoder Bool
  | .bool b => some b
  | _ => none

def text : Decoder String
  | .text s => s
  | _ => none

/-- A number rounded to single precision. -/
def single : Decoder Float32
  | .number (.natural n) => some (Float32.ofNat n)
  | .number (.negative n) => some (-Float32.ofNat n)
  | .number (.double x) => some x.toFloat32
  | _ => none

/-- A non-negative integer below a bound. -/
def below (bound : Nat) : Decoder Nat
  | .number (.natural n) => if n < bound then some n else none
  | _ => none

/-- A count that fits 32 bits. -/
def count : Decoder Nat := below UInt32.size

def list (item : Decoder α) : Decoder (List α)
  | .array items => items.mapM item
  | _ => none

/-- The value, or `none` for a JSON null. -/
def nullable (value : Decoder α) : Decoder (Option α)
  | .null => some none
  | j => (value j).map some

def vec2 : Decoder (Vec2 Float32)
  | .array [x, y] => return ⟨← single x, ← single y⟩
  | _ => none

def vec3 : Decoder (Vec3 Float32)
  | .array [x, y, z] => return ⟨← single x, ← single y, ← single z⟩
  | _ => none

/-- An object as a table; the last member of a key wins, and each member has to decode. -/
def table (value : Decoder α) : Decoder (Table α)
  | .object members => do
    let entries ← members.mapM fun m => return (← m.1, ← value m.2)
    return Table.ofList entries
  | _ => none

/-- A choice between names, written as a string or as an object with the name as its only key and
    a null under it. -/
def choice (named : String → Option α) : Decoder α
  | .text (some name) => named name
  | .object [(some name, .null)] => named name
  | _ => none

end Decoder

/-! ## 2. Records -/

/-- The fields of a record that a value gives. -/
abbrev Fields := List (String × Json)

namespace Fields

variable {α : Type}

/-- The members of an object under known names, unless a key is no text or a known one repeats. -/
def ofMembers (names : List String) (members : List (Option String × Json)) : Option Fields := do
  let named ← members.mapM fun m => return (← m.1, m.2)
  let known : Fields := named.filter fun m => names.contains m.1
  if (known.map Prod.fst).Nodup then some known else none

/-- The fields given by an object, or by an array in the order of `names`. -/
def ofJson (names : List String) : Decoder Fields
  | .object members => ofMembers names members
  | .array items => if items.length ≤ names.length then some (names.zip items) else none
  | _ => none

/-- A field that has to be there. -/
def required (fields : Fields) (name : String) (value : Decoder α) : Option α :=
  (fields.lookup name).bind value

/-- A field with a value of its own when it is left out. -/
def optional (fields : Fields) (name : String) (value : Decoder α) (default : α) : Option α :=
  match fields.lookup name with
  | none => some default
  | some j => value j

end Fields

end SceneAssembly
