/-
  SceneAssembly/AssetPath.lean
  ============================
  **Paths of assets.**

  A path is a text with `/` between its parts and is never simplified.  Joining
  puts one `/` between a directory and a relative path where the directory does
  not end in one; an absolute path replaces the directory.  Quoting a path in a
  description of a value escapes the double quote and the backslash, and writes
  by number what cannot be seen on its own.
-/
import SceneAssembly.Text.Hidden

namespace SceneAssembly.AssetPath

/-- A path below a directory. -/
def join (directory path : String) : String :=
  if path.startsWith "/" then path
  else if directory = "" ∨ directory.endsWith "/" then directory ++ path
  else directory ++ "/" ++ path

/-- The directory that a path names its last part in. -/
def parent (path : String) : String :=
  match path.toList.reverse.dropWhile (· ≠ '/') with
  | [] => ""
  | ['/'] => "/"
  | _ :: rest => String.ofList rest.reverse

/-! ## Quoting -/

/-- A character as it stands between quotes. -/
def quotedChar (c : Char) : List Char :=
  match c with
  | '\x00' => ['\\', '0']
  | '\t' => ['\\', 't']
  | '\n' => ['\\', 'n']
  | '\r' => ['\\', 'r']
  | '"' | '\\' => ['\\', c]
  | c =>
    if Text.isHidden c then ['\\', 'u', '\x7b'] ++ Nat.toDigits 16 c.toNat ++ ['\x7d'] else [c]

/-- A path between quotes. -/
def quote (path : String) : String :=
  "\"" ++ String.ofList (path.toList.flatMap quotedChar) ++ "\""

end SceneAssembly.AssetPath
