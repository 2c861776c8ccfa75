/-
  SceneAssembly/Text/Hidden.lean
  ==============================
  **Characters that cannot be seen on their own.**

  A text that is shown for reading writes these by number.  They are the
  controls, the format characters, the blanks other than the space, the letters
  that are drawn as nothing, private use, the extending marks and the code
  points without a character, after Unicode 17.
-/
import SceneAssembly.Text.Extending
import SceneAssembly.Text.Unassigned

namespace SceneAssembly.Text

/-- Control characters. -/
def controls : CharacterClass :=
  ⟨[(0x0, 0x1f), (0x7f, 0x9f)]⟩

/-- Format characters: they steer the text around them. -/
def formats : CharacterClass :=
  ⟨[(0xad, 0xad), (0x600, 0x605), (0x61c, 0x61c), (0x6dd, 0x6dd), (0x70f, 0x70f),
     (0x890, 0x891), (0x8e2, 0x8e2), (0x180e, 0x180e), (0x200b, 0x200f), (0x202a, 0x202e),
     (0x2060, 0x2064), (0x2066, 0x206f), (0xfeff, 0xfeff), (0xfff9, 0xfffb), (0x110bd, 0x110bd),
     (0x110cd, 0x110cd), (0x13430, 0x1343f), (0x1bca0, 0x1bca3), (0x1d173, 0x1d17a),
     (0xe0001, 0xe0001), (0xe0020, 0xe007f)]⟩

/-- Separators of words, lines and paragraphs, without the space. -/
def blanks : CharacterClass :=
  ⟨[(0xa0, 0xa0), (0x1680, 0x1680), (0x2000, 0x200a), (0x2028, 0x2029), (0x202f, 0x202f),
     (0x205f, 0x205f), (0x3000, 0x3000)]⟩

/-- Letters that are drawn as nothing: the fillers of Hangul syllables. -/
def fillers : CharacterClass :=
  ⟨[(0x115f, 0x1160), (0x3164, 0x3164), (0xffa0, 0xffa0)]⟩

/-- Code points whose characters are agreed on in private. -/
def privateUse : CharacterClass :=
  ⟨[(0xe000, 0xf8ff), (0xf0000, 0xffffd), (0x100000, 0x10fffd)]⟩

/-- Every class of characters that cannot be seen on their own. -/
def hidden : CharacterClass :=
  controls ∪ formats ∪ blanks ∪ fillers ∪ privateUse ∪ extending ∪ unassigned

/-- A character that cannot be seen on its own. -/
def isHidden (c : Char) : Bool := hidden.contains c

end SceneAssembly.Text
