/-
  SceneAssembly/Proofs/Nodes.lean
  ===============================
  **What the operations on nodes leave alone.**

  Placing a subtree anew changes worlds and takes numbers, nothing else; adding
  and gathering shadow flags changes flags, nothing else.
-/
import SceneAssembly.SceneNode.Basic

namespace SceneAssembly.SceneNode

variable {K : Type}

/-! ## 1. Gathering shadow flags -/

section Gathering

variable (n : SceneNode K)

@[simp] theorem gatherShadows_name : n.gatherShadows.name = n.name := rfl
@[simp] theorem gatherShadows_world : n.gatherShadows.world = n.world := rfl
@[simp] theorem gatherShadows_mesh : n.gatherShadows.mesh = n.mesh := rfl
@[simp] theorem gatherShadows_light : n.gatherShadows.light = n.light := rfl
@[simp] theorem gatherShadows_lod : n.gatherShadows.lod = n.lod := rfl
@[simp] theorem gatherShadows_children : n.gatherShadows.children = n.children := rfl
@[simp] theorem gatherShadows_branches : n.gatherShadows.branches = n.branches := rfl

end Gathering

/-! ## 2. Adding shadow flags -/

section Adding

variable (n : SceneNode K) (cast receive : Bool)

theorem addShadows_castShadow :
    (n.addShadows cast receive).castShadow = (n.castShadow || cast) := by
  obtain ⟨name, placement, world, mesh, light, lod, children, c, r⟩ := n
  rcases lod with _ | ⟨levels⟩ <;> rw [addShadows]

theorem addShadows_receiveShadow :
    (n.addShadows cast receive).receiveShadow = (n.receiveShadow || receive) := by
  obtain ⟨name, placement, world, mesh, light, lod, children, c, r⟩ := n
  rcases lod with _ | ⟨levels⟩ <;> rw [addShadows]

end Adding

/-! ## 3. Placing anew -/

variable [Scalar K]

theorem placeIn_next (parent : Shared (Affine K)) (placement : Option (Affine K)) (a : Arena) :
    a.next ≤ (placeIn parent placement a).2.next := by
  cases placement with
  | none => exact Nat.le_refl _
  | some m => exact Nat.le_succ _

theorem rebase_castShadow (parent : Shared (Affine K)) (n : SceneNode K) (a : Arena) :
    (n.rebase parent a).1.castShadow = n.castShadow := by
  obtain ⟨name, placement, world, mesh, light, lod, children, c, r⟩ := n
  rcases lod with _ | ⟨levels⟩ <;> rw [rebase] <;> rfl

theorem rebase_receiveShadow (parent : Shared (Affine K)) (n : SceneNode K) (a : Arena) :
    (n.rebase parent a).1.receiveShadow = n.receiveShadow := by
  obtain ⟨name, placement, world, mesh, light, lod, children, c, r⟩ := n
  rcases lod with _ | ⟨levels⟩ <;> rw [rebase] <;> rfl

mutual

/-- Placing a subtree anew takes back no number. -/
theorem rebase_next (parent : Shared (Affine K)) :
    ∀ (n : SceneNode K) (a : Arena), a.next ≤ (n.rebase parent a).2.next
  | ⟨_, placement, _, _, _, none, children, _, _⟩, a => by
    rw [rebase]
    exact Nat.le_trans (placeIn_next parent placement a) (rebaseAll_next _ children _)
  | ⟨_, placement, _, _, _, some ⟨levels⟩, children, _, _⟩, a => by
    rw [rebase]
    exact Nat.le_trans (Nat.le_trans (placeIn_next parent placement a)
      (rebaseAll_next _ children _)) (rebaseLevels_next _ levels _)

theorem rebaseAll_next (parent : Shared (Affine K)) :
    ∀ (ns : List (SceneNode K)) (a : Arena), a.next ≤ (rebaseAll parent ns a).2.next
  | [], a => by rw [rebaseAll]; exact Nat.le_refl _
  | n :: rest, a => by
    rw [rebaseAll]
    exact Nat.le_trans (rebase_next parent n a) (rebaseAll_next parent rest _)

theorem rebaseLevels_next (parent : Shared (Affine K)) :
    ∀ (levels : List (Level K (SceneNode K))) (a : Arena),
      a.next ≤ (rebaseLevels parent levels a).2.next
  | [], a => by rw [rebaseLevels]; exact Nat.le_refl _
  | ⟨_, n⟩ :: rest, a => by
    rw [rebaseLevels]
    exact Nat.le_trans (rebase_next parent n a) (rebaseLevels_next parent rest _)

end

end SceneAssembly.SceneNode
