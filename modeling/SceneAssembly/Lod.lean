/-
  SceneAssembly/Lod.lean
  ======================
  **Levels of detail.**

  Each level is shown from its distance on.  Levels are kept in ascending order
  of distance, levels at one distance in the order in which they were added, and
  a level is found by bisection.
-/
import SceneAssembly.Scalar

namespace SceneAssembly

structure Level (K α : Type) where
  minDistance : K
  node : α

structure Lod (K α : Type) where
  levels : List (Level K α)

namespace Lod

variable {K α : Type}

def empty : Lod K α := ⟨[]⟩

def length (l : Lod K α) : Nat := l.levels.length

def isEmpty (l : Lod K α) : Bool := l.levels.isEmpty

/-- The things shown, nearest first. -/
def nodes (l : Lod K α) : List α := l.levels.map Level.node

variable [Scalar K]

/-- Puts a level before the first one that is farther away. -/
def insertLevel (level : Level K α) : List (Level K α) → List (Level K α)
  | [] => [level]
  | l :: rest => if level.minDistance < l.minDistance then level :: l :: rest
    else l :: insertLevel level rest

def add (l : Lod K α) (minDistance : K) (node : α) : Lod K α :=
  ⟨insertLevel ⟨minDistance, node⟩ l.levels⟩

/-- Is the level at a position reached at a distance? -/
def reached (levels : List (Level K α)) (distance : K) (position : Nat) : Bool :=
  match levels[position]? with
  | some l => decide (l.minDistance ≤ distance)
  | none => false

/-- How many levels are reached at a distance, provided that these come first.  The answer
    lies between `low` and `low + size`; each step halves the range. -/
def countReached (levels : List (Level K α)) (distance : K) (low size : Nat) : Nat :=
  if 1 < size then
    let half := size / 2
    countReached levels distance (if reached levels distance (low + half) then low + half else low)
      (size - half)
  else if reached levels distance low then low + 1 else low
termination_by size
decreasing_by omega

/-- The position of the level shown at a distance: the last one reached, or the first one where none
    is reached. -/
def selectIndex? (l : Lod K α) (distance : K) : Option Nat :=
  if l.levels.isEmpty then none
  else some (countReached l.levels distance 0 l.levels.length - 1)

/-- The level shown at a distance. -/
def select? (l : Lod K α) (distance : K) : Option (Level K α) :=
  (l.selectIndex? distance).bind fun i => l.levels[i]?

end Lod

end SceneAssembly
