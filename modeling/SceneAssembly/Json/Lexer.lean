/-
  SceneAssembly/Json/Lexer.lean
  =============================
  **Tokens of a JSON text.**

  The text is read character by character.  Between tokens only the four blanks
  of JSON may stand; a word is one of the three constants; a string runs to the
  first quote that no backslash escapes and holds no raw control character.
-/
import SceneAssembly.Json.Number

namespace SceneAssembly

inductive Token where
  | openArray | closeArray | openObject | closeObject | comma | colon
  | null
  | bool (b : Bool)
  | number (n : Number)
  | text (s : Option String)

namespace Lexer

/-! ## 1. Strings -/

/-- A character of a string, or half of a surrogate pair. -/
inductive Piece where
  | char (c : Char)
  | high (unit : Nat)
  | low (unit : Nat)

def hexDigit? (c : Char) : Option Nat :=
  if c.isDigit then some (c.toNat - '0'.toNat)
  else if 'a' ≤ c ∧ c ≤ 'f' then some (c.toNat - 'a'.toNat + 10)
  else if 'A' ≤ c ∧ c ≤ 'F' then some (c.toNat - 'A'.toNat + 10)
  else none

/-- The code unit written by four hexadecimal digits. -/
def unit (value : Nat) : Piece :=
  if 0xD800 ≤ value ∧ value < 0xDC00 then .high value
  else if 0xDC00 ≤ value ∧ value < 0xE000 then .low value
  else .char (Char.ofNat value)

/-- The pieces of a string body, or `none` for an escape that is none. -/
def pieces : List Char → Option (List Piece)
  | [] => some []
  | '\\' :: 'u' :: a :: b :: c :: d :: rest => do
    let value := ((← hexDigit? a) * 16 + (← hexDigit? b)) * 256 + (← hexDigit? c) * 16 + (← hexDigit? d)
    return unit value :: (← pieces rest)
  | '\\' :: c :: rest => do
    let c ← match c with
      | '"' => some '"'
      | '\\' => some '\\'
      | '/' => some '/'
      | 'b' => some '\x08'
      | 'f' => some '\x0c'
      | 'n' => some '\n'
      | 'r' => some '\r'
      | 't' => some '\t'
      | _ => none
    return .char c :: (← pieces rest)
  | c :: rest => do
    if c = '\\' then none else return .char c :: (← pieces rest)

/-- The characters that the pieces spell, or `none` if a surrogate is left without its pair. -/
def joined : List Piece → Option (List Char)
  | [] => some []
  | .char c :: rest => (joined rest).map (c :: ·)
  | .high h :: .low l :: rest =>
    (joined rest).map (Char.ofNat (0x10000 + (h - 0xD800) * 0x400 + (l - 0xDC00)) :: ·)
  | .high _ :: _ => none
  | .low _ :: _ => none

/-- The string token with the given body. -/
def textToken (body : List Char) : Option Token :=
  (pieces body).map fun ps => .text ((joined ps).map String.ofList)

/-! ## 2. The scan -/

/-- What the scan is inside of; characters are gathered in reverse. -/
inductive Mode where
  | between
  | word (gathered : List Char)
  | number (gathered : List Char)
  | text (gathered : List Char) (escaped : Bool)

structure State where
  /-- The tokens found, in reverse. -/
  tokens : List Token
  mode : Mode

def wordToken : List Char → Option Token
  | ['n', 'u', 'l', 'l'] => some .null
  | ['t', 'r', 'u', 'e'] => some (.bool true)
  | ['f', 'a', 'l', 's', 'e'] => some (.bool false)
  | _ => none

def isNumberChar (c : Char) : Bool :=
  c.isDigit || c == '+' || c == '-' || c == '.' || c == 'e' || c == 'E'

/-- A character between tokens. -/
def stepBetween (tokens : List Token) (c : Char) : Option State :=
  match c with
  | ' ' | '\n' | '\r' | '\t' => some ⟨tokens, .between⟩
  | '[' => some ⟨.openArray :: tokens, .between⟩
  | ']' => some ⟨.closeArray :: tokens, .between⟩
  | '\x7b' => some ⟨.openObject :: tokens, .between⟩
  | '\x7d' => some ⟨.closeObject :: tokens, .between⟩
  | ',' => some ⟨.comma :: tokens, .between⟩
  | ':' => some ⟨.colon :: tokens, .between⟩
  | '"' => some ⟨tokens, .text [] false⟩
  | c =>
    if c.isDigit || c == '-' then some ⟨tokens, .number [c]⟩
    else if c.isLower then some ⟨tokens, .word [c]⟩
    else none

/-- The tokens up to here, a word or number that was open being complete. -/
def flush (s : State) : Option (List Token) :=
  match s.mode with
  | .between => some s.tokens
  | .word cs => (wordToken cs.reverse).map (· :: s.tokens)
  | .number cs => (NumberToken.ofChars? cs.reverse).map fun n => .number n.value :: s.tokens
  | .text _ _ => none

def step (s : State) (c : Char) : Option State :=
  match s.mode with
  | .text cs true => if c.toNat < 0x20 then none else some ⟨s.tokens, .text (c :: cs) false⟩
  | .text cs false =>
    if c = '"' then (textToken cs.reverse).map fun t => ⟨t :: s.tokens, .between⟩
    else if c.toNat < 0x20 then none
    else some ⟨s.tokens, .text (c :: cs) (c == '\\')⟩
  | .word cs =>
    if c.isLower then some ⟨s.tokens, .word (c :: cs)⟩
    else (flush s).bind (stepBetween · c)
  | .number cs =>
    if isNumberChar c then some ⟨s.tokens, .number (c :: cs)⟩
    else (flush s).bind (stepBetween · c)
  | .between => stepBetween s.tokens c

end Lexer

/-- The tokens of a text. -/
def tokens? (input : String) : Option (List Token) := do
  let s ← input.toList.foldlM Lexer.step ⟨[], .between⟩
  return (← Lexer.flush s).reverse

end SceneAssembly
