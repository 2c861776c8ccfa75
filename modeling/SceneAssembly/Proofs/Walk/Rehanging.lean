/-
  SceneAssembly/Proofs/Walk/Rehanging.lean
  ========================================
  **Scenes and models that are placed anew.**

  A walk and a rebasing compute worlds in the same way, so a scene that is
  placed below the identity keeps the value of every world
  (`world_value_rebase_scene`).  An instance of a model is its template placed
  anew; the library keeps the template as it is (`instantiate_of_template`).  The
  numbers of its worlds are new, so two instances have no world in common but
  one that they were placed below (`world_of_instances`).
-/
import SceneAssembly.Proofs.ModelRuns
import SceneAssembly.Proofs.Rebasing
import SceneAssembly.Proofs.Walk.Placing

namespace SceneAssembly

variable {K : Type} [Scalar K]

open SceneNode (Rebases)

/-! ## 1. Assembled scenes -/

/-- Below the identity, a scene has the worlds that it was assembled with. -/
theorem world_value_rebase_scene {settings : Settings K} {d : Document K} {w w' : Workshop K}
    {scene : Scene K} (h : assemble settings d w = (.ok scene, w'))
    (hnumbers : w.library.KeepsNumbers) {parent : Shared (Affine K)}
    (hparent : parent.value = Affine.identity) (a : Arena) {address : List Nat} {x : SceneNode K}
    (hx : scene.root.at? address = some x) :
    ∃ y, (scene.root.rebase parent a).1.at? address = some y ∧ y.world.value = x.world.value := by
  obtain ⟨world, hvalue, hhangs, -⟩ := hangs_scene h hnumbers
  have hplacement := SceneNode.rebase_at?_map (f := SceneNode.placement)
    (fun n parent a => SceneNode.rebase_placement parent n a) scene.root parent a address
  rw [hx, Option.map_some, Option.map_eq_some_iff] at hplacement
  obtain ⟨y, hy, -⟩ := hplacement
  refine ⟨y, hy, ?_⟩
  rw [(SceneNode.rebases_rebase scene.root parent a).world_value address y hy, hparent, ← hvalue]
  exact (hhangs.world_value hx).symm

/-! ## 2. Instances of models -/

namespace ModelLibrary

variable {l l' : ModelLibrary K} {path assetDir : String} {parent : Shared (Affine K)} {a b : Arena}
  {t : Shared (ModelTemplate K)}

omit [Scalar K] in
theorem template_of_find? (h : l.find? path = some t) (assetDir : String) (a : Arena) :
    l.template path assetDir a = ((.ok t, l), a) := by
  unfold template
  rw [h]
  rfl

/-- An instance is the template placed anew, and nothing else happens. -/
theorem instantiate_of_template (h : l.template path assetDir a = ((.ok t, l'), b)) :
    l.instantiate path assetDir parent a =
      ((.ok (t.value.root.rebase parent b).1, l'), (t.value.root.rebase parent b).2) := by
  simp only [instantiate, bind, StateT.bind, h]
  rfl

/-- How a library makes instances. -/
structure Instantiates (l : ModelLibrary K) : Prop where
  /-- A template that is there is placed anew, and stays. -/
  of_stored : ∀ path assetDir parent a t, l.find? path = some t →
    l.instantiate path assetDir parent a =
      ((.ok (t.value.root.rebase parent a).1, l), (t.value.root.rebase parent a).2)
  /-- So is one that had to be imported; what was there already stays with it. -/
  of_template : ∀ path assetDir parent a t l' b, l.template path assetDir a = ((.ok t, l'), b) →
    l.instantiate path assetDir parent a =
      ((.ok (t.value.root.rebase parent b).1, l'), (t.value.root.rebase parent b).2) ∧
    l'.find? path = some t ∧ ∀ key u, l.get? key = some u → l'.get? key = some u

theorem instantiates_of_isIndex (hl : l.IsIndex) : Instantiates l where
  of_stored path assetDir parent a t h := instantiate_of_template (template_of_find? h assetDir a)
  of_template path assetDir parent a t l' b h := by
    have hserved := template_served l path assetDir a
    rw [h] at hserved
    exact ⟨instantiate_of_template h, hserved.find?_eq hl, fun key u hu => hserved.keeps hl hu⟩

/-- A world of an instance is the one that it was placed below, or its number is new. -/
theorem world_instantiate {n : SceneNode K} (hnumbers : l.KeepsNumbers)
    (h : l.instantiate path assetDir parent a = ((.ok n, l'), b)) :
    a.next ≤ b.next ∧ ∀ x ∈ n.preorder,
      x.world = parent ∨ a.next ≤ x.world.id ∧ x.world.id < b.next := by
  obtain ⟨found, c, hserved, ⟨d, -, herror, -⟩ | ⟨t, m, -, hrebase, hok⟩⟩ := instantiate_served h
  · cases herror
  · cases hok
    have hlow := hserved.next hnumbers
    have hhigh := SceneNode.rebase_next parent t.value.root c
    rw [hrebase] at hhigh
    refine ⟨Nat.le_trans hlow hhigh, fun x hx => ?_⟩
    have hmem : x ∈ (t.value.root.rebase parent c).1.preorder := by rwa [hrebase]
    rcases SceneNode.world_rebase hmem with hworld | ⟨hnew, hlt⟩
    · exact .inl hworld
    · rw [hrebase] at hlt
      exact .inr ⟨Nat.le_trans hlow hnew, hlt⟩

/-- Two instances, the second one made after the first, have no world in common but the one that
the second was placed below; and if that was there before both, so was the first. -/
theorem world_of_instances {l₁ l₁' l₂ l₂' : ModelLibrary K} {path₁ path₂ dir₁ dir₂ : String}
    {parent₁ parent₂ : Shared (Affine K)} {a₁ b₁ a₂ b₂ : Arena} {n₁ n₂ x y : SceneNode K}
    (hnumbers₁ : l₁.KeepsNumbers) (hnumbers₂ : l₂.KeepsNumbers)
    (h₁ : l₁.instantiate path₁ dir₁ parent₁ a₁ = ((.ok n₁, l₁'), b₁))
    (h₂ : l₂.instantiate path₂ dir₂ parent₂ a₂ = ((.ok n₂, l₂'), b₂))
    (hparent : parent₁.id < a₁.next) (hlater : b₁.next ≤ a₂.next)
    (hx : x ∈ n₁.preorder) (hy : y ∈ n₂.preorder) (hid : x.world.id = y.world.id) :
    y.world = parent₂ ∧ (parent₂.id < a₁.next → x.world = parent₁) := by
  obtain ⟨hmono, hworlds₁⟩ := world_instantiate hnumbers₁ h₁
  obtain ⟨-, hworlds₂⟩ := world_instantiate hnumbers₂ h₂
  have hgiven : x.world.id < a₂.next := by
    rcases hworlds₁ x hx with hworld | ⟨-, hlt⟩
    · rw [hworld]
      omega
    · omega
  have hsecond : y.world = parent₂ := by
    rcases hworlds₂ y hy with hworld | ⟨hnew, -⟩
    · exact hworld
    · omega
  refine ⟨hsecond, fun hold => ?_⟩
  rcases hworlds₁ x hx with hworld | ⟨hnew, -⟩
  · exact hworld
  · rw [hid, hsecond] at hnew
    omega

end ModelLibrary

/-! ## 3. The laws -/

/-- **Placing a tree anew.**  Its worlds are those of a tree that hangs below the given world, and
nothing else changes; what the worlds were before is of no importance.  So a scene keeps the values
of its worlds below the identity.  An instance of a model is the stored template, placed below the
given world; two instances have no world in common but one that they were placed below. -/
theorem rebase_over_trees :
    (∀ (n : SceneNode K) parent a,
      Rebases n parent a (n.rebase parent a).1 (n.rebase parent a).2) ∧
    (∀ (n m : SceneNode K) world, n.inWorld world = m.inWorld world →
      ∀ parent, n.rebase parent = m.rebase parent) ∧
    (∀ (n : SceneNode K) first parent a, (n.rebase first a).1.rebase parent = n.rebase parent) ∧
    (∀ (settings : Settings K) d w scene w' parent a, w.library.KeepsNumbers →
      assemble settings d w = (.ok scene, w') → parent.value = Affine.identity →
      ∀ address x, scene.root.at? address = some x →
        ∃ y, (scene.root.rebase parent a).1.at? address = some y ∧
          y.world.value = x.world.value) ∧
    (∀ l : ModelLibrary K, l.IsIndex → l.Instantiates) ∧
    ∀ (l₁ l₁' l₂ l₂' : ModelLibrary K) path₁ path₂ dir₁ dir₂ parent₁ parent₂ a₁ b₁ a₂ b₂ n₁ n₂,
      l₁.KeepsNumbers → l₂.KeepsNumbers →
      l₁.instantiate path₁ dir₁ parent₁ a₁ = ((.ok n₁, l₁'), b₁) →
      l₂.instantiate path₂ dir₂ parent₂ a₂ = ((.ok n₂, l₂'), b₂) →
      parent₁.id < a₁.next → b₁.next ≤ a₂.next →
      ∀ x ∈ n₁.preorder, ∀ y ∈ n₂.preorder, x.world.id = y.world.id →
        y.world = parent₂ ∧ (parent₂.id < a₁.next → x.world = parent₁) := by
  refine ⟨SceneNode.rebases_rebase, fun n m world h => SceneNode.rebase_congr h,
    SceneNode.rebase_rebase, ?_, fun l => ModelLibrary.instantiates_of_isIndex, ?_⟩
  · intro settings d w scene w' parent a hnumbers h hparent address x hx
    exact world_value_rebase_scene h hnumbers hparent a hx
  · intro l₁ l₁' l₂ l₂' path₁ path₂ dir₁ dir₂ parent₁ parent₂ a₁ b₁ a₂ b₂ n₁ n₂ hnumbers₁
      hnumbers₂ h₁ h₂ hparent hlater x hx y hy hid
    exact ModelLibrary.world_of_instances hnumbers₁ hnumbers₂ h₁ h₂ hparent hlater hx hy hid

/-- A car with a wheel that has a place of its own. -/
def carModel : ModelTemplate Float32 where
  path := "car"
  root := { SceneNode.bare "car" none ⟨0, Affine.identity⟩ with
    children := [.bare "wheel" (some (Affine.shift Vec3.one)) ⟨1, Affine.identity⟩] }

theorem rebase_over_trees_car :
    let garage : ModelLibrary Float32 := (ModelLibrary.empty.put ⟨0, carModel⟩).2
    let parent : Shared (Affine Float32) := ⟨1, Affine.identity⟩
    garage.IsIndex ∧ garage.KeepsNumbers ∧
    (∃ n₁ n₂ b₁ b₂, garage.instantiate "car" "." parent ⟨2, #[]⟩ = ((.ok n₁, garage), b₁) ∧
      garage.instantiate "car" "." parent b₁ = ((.ok n₂, garage), b₂) ∧
      n₁ = (carModel.root.rebase parent ⟨2, #[]⟩).1 ∧
      ∀ x ∈ n₁.preorder, ∀ y ∈ n₂.preorder, x.world.id = y.world.id →
        x.world = parent ∧ y.world = parent) ∧
    ∃ scene w', assemble .standard Document.hinged
        ⟨.empty, .ofRecords .empty "." .placeholder, .withLoader (.ofDocuments .empty)⟩ =
          (.ok scene, w') ∧
      ∀ address x, scene.root.at? address = some x →
        ∃ y, (scene.root.rebase parent w'.arena).1.at? address = some y ∧
          y.world.value = x.world.value := by
  intro garage parent
  have hindex : garage.IsIndex := (ModelLibrary.IsIndex.start none).put _
  have hnumbers : garage.KeepsNumbers := nofun
  obtain ⟨-, -, -, hscene, hinstances, hapart⟩ := rebase_over_trees (K := Float32)
  have hstored : garage.find? "car" = some ⟨0, carModel⟩ := rfl
  have h₁ := (hinstances garage hindex).of_stored "car" "." parent ⟨2, #[]⟩ _ hstored
  have h₂ := (hinstances garage hindex).of_stored "car" "." parent
    (carModel.root.rebase parent ⟨2, #[]⟩).2 _ hstored
  obtain ⟨scene, w', hassemble⟩ := exists_scene (d := Document.hinged) .standard
    ⟨.empty, .ofRecords .empty "." .placeholder, .withLoader (.ofDocuments .empty)⟩ rfl
  refine ⟨hindex, hnumbers, ⟨_, _, _, _, h₁, h₂, rfl, fun x hx y hy hid => ?_⟩, scene, w',
    hassemble, ?_⟩
  · obtain ⟨hsecond, hfirst⟩ := hapart garage garage garage garage "car" "car" "." "." parent parent
      _ _ _ _ _ _ hnumbers hnumbers h₁ h₂ (by decide) (Nat.le_refl _) x hx y hy hid
    exact ⟨hfirst (by decide), hsecond⟩
  · exact hscene .standard Document.hinged _ scene w' parent w'.arena
      (keepsNumbers_ofDocuments .empty) hassemble rfl

end SceneAssembly
