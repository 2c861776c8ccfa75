/-
  SceneAssembly/Text/CharacterClass.lean
  ======================================
  **Classes of characters as ranges of code points.**

  A class is a list of closed ranges, and a character is in it where a range
  holds its code point.  A union lists the ranges of both sides.
-/

namespace SceneAssembly.Text

/-- Closed ranges of code points, each with its first and its last. -/
structure CharacterClass where
  ranges : List (Nat × Nat)

namespace CharacterClass

def contains (k : CharacterClass) (c : Char) : Bool :=
  k.ranges.any fun r => decide (r.1 ≤ c.toNat) && decide (c.toNat ≤ r.2)

instance instUnion : Union CharacterClass := ⟨fun a b => ⟨a.ranges ++ b.ranges⟩⟩

end CharacterClass

end SceneAssembly.Text
