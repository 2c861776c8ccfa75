/-
  SceneAssembly/Proofs/Walk/Filling.lean
  ======================================
  **What the node of an element holds.**

  An element is entered with an empty node that carries its flags
  (`Entered.own_eq`).  A shape or a light then puts one thing into it, or
  nothing: a mesh (`attachMesh_ok`), the instance of a model (`attachModel_eq`)
  or a light (`attachLight_eq`).
-/
import SceneAssembly.Proofs.Models
import SceneAssembly.Proofs.Nodes
import SceneAssembly.Proofs.Walk.Visits

namespace SceneAssembly

variable {K : Type}

namespace Walk

theorem onArena_share {α : Type} (x : α) (p : Progress K) :
    onArena (Arena.share x) p =
      (⟨p.arena.next, x⟩, { p with arena := { p.arena with next := p.arena.next + 1 } }) :=
  rfl

variable [Scalar K]

variable {c : Setting K} {scope : Inherited K} {n m : SceneNode K} {p q : Progress K}

/-! ## 1. Entering -/

/-- What holds at an element: its material, then its texture, then its flags. -/
theorem scopeOf_parts {e : Element K} {inherited : Inherited K}
    (h : scopeOf c e inherited p = (scope, q)) :
    ∃ p', materialOf c e inherited p = (scope.material, p') ∧
      textureOf e inherited p' = (scope.texture, q) ∧
      scope.castShadow = (inherited.castShadow || e.casts) ∧
      scope.receiveShadow = (inherited.receiveShadow || e.receives) := by
  obtain ⟨m, p', hmaterial⟩ : ∃ m p', materialOf c e inherited p = (m, p') := ⟨_, _, rfl⟩
  obtain ⟨t, q', htexture⟩ : ∃ t q', textureOf e inherited p' = (t, q') := ⟨_, _, rfl⟩
  simp only [scopeOf, bind, StateT.bind, hmaterial, htexture] at h
  cases h
  exact ⟨p', hmaterial, htexture, rfl, rfl⟩

namespace Entered

variable {parent : Shared (Affine K)} {inherited : Inherited K} {path : List String} {id : String}
  {e : Element K} {own : SceneNode K}

theorem enter_parts (h : Entered c parent inherited path id p e scope own q) :
    (∃ p' a, scopeOf c e inherited p = (scope, p') ∧ p'.arena.next ≤ a.next ∧
      q = { p'.noting (TransformStep.faults e.transforms) with arena := a }) ∧
    ∃ world, own = { SceneNode.bare id (TransformStep.placement? e.transforms) world with
      castShadow := scope.castShadow, receiveShadow := scope.receiveShadow } := by
  obtain ⟨scope', p', hscope⟩ : ∃ scope' p', scopeOf c e inherited p = (scope', p') :=
    ⟨_, _, rfl⟩
  have hnext := SceneNode.placeIn_next parent (TransformStep.placement? e.transforms) p'.arena
  have hentered := h.entered
  simp only [enter, bind, StateT.bind, hscope] at hentered
  cases hentered
  exact ⟨⟨p', _, hscope, hnext, rfl⟩, _, rfl⟩

/-- The world of an element is made last, with the numbers that are free then. -/
theorem own_placed (h : Entered c parent inherited path id p e scope own q) :
    ∃ p', scopeOf c e inherited p = (scope, p') ∧
      placeIn parent own.placement p'.arena = (own.world, q.arena) := by
  obtain ⟨scope', p', hscope⟩ : ∃ scope' p', scopeOf c e inherited p = (scope', p') :=
    ⟨_, _, rfl⟩
  have hentered := h.entered
  simp only [enter, bind, StateT.bind, hscope] at hentered
  cases hentered
  exact ⟨p', hscope, rfl⟩

theorem own_eq (h : Entered c parent inherited path id p e scope own q) :
    ∃ world, own = { SceneNode.bare id (TransformStep.placement? e.transforms) world with
      castShadow := scope.castShadow, receiveShadow := scope.receiveShadow } :=
  h.enter_parts.2

theorem scope_made (h : Entered c parent inherited path id p e scope own q) :
    ∃ p' a, scopeOf c e inherited p = (scope, p') ∧ p'.arena.next ≤ a.next ∧
      q = { p'.noting (TransformStep.faults e.transforms) with arena := a } :=
  h.enter_parts.1

theorem own_name (h : Entered c parent inherited path id p e scope own q) : own.name = id := by
  obtain ⟨world, rfl⟩ := h.own_eq
  rfl

theorem own_mesh (h : Entered c parent inherited path id p e scope own q) : own.mesh = none := by
  obtain ⟨world, rfl⟩ := h.own_eq
  rfl

theorem own_lod (h : Entered c parent inherited path id p e scope own q) : own.lod = none := by
  obtain ⟨world, rfl⟩ := h.own_eq
  rfl

theorem own_children (h : Entered c parent inherited path id p e scope own q) :
    own.children = [] := by
  obtain ⟨world, rfl⟩ := h.own_eq
  rfl

theorem own_branches (h : Entered c parent inherited path id p e scope own q) :
    own.branches = [] := by
  obtain ⟨world, rfl⟩ := h.own_eq
  rfl

end Entered

/-! ## 2. Lights -/

theorem attachLight_eq {spec : LightSpec K} (h : attachLight spec n p = (m, q)) :
    ∃ light, m = { n with light := light } := by
  unfold attachLight at h
  cases hlight : Light.ofSpec spec with
  | error d =>
    rw [hlight] at h
    cases h
    cases n
    exact ⟨_, rfl⟩
  | ok light =>
    rw [hlight] at h
    cases h
    exact ⟨some light, rfl⟩

/-! ## 3. Models -/

/-- A model that cannot be had is reported; otherwise its template is placed anew, with the flags of
    its place. -/
theorem attachModel_cases {path : String} (h : attachModel c scope path n p = (m, q)) :
    (∃ d library b, p.library.Served path c.settings.assetDir p.arena (.error d) library b ∧
        m = n ∧ q = ({ p with library := library, arena := b } : Progress K).noting [d]) ∨
      ∃ t library b model arena,
        p.library.Served path c.settings.assetDir p.arena (.ok t) library b ∧
        t.value.root.rebase n.world b = (model, arena) ∧
        m = { n with
          children := n.children ++ [model.addShadows scope.castShadow scope.receiveShadow] } ∧
        q = { p with library := library, arena := arena } := by
  obtain ⟨result, library, arena, heq⟩ : ∃ result library arena,
      p.library.instantiate path c.settings.assetDir n.world p.arena = ((result, library), arena) :=
    ⟨_, _, _, rfl⟩
  obtain ⟨found, b, hserved, hcases⟩ := ModelLibrary.instantiate_served heq
  simp only [attachModel, onLibrary, bind, StateT.bind, heq] at h
  rcases hcases with ⟨d, rfl, rfl, rfl⟩ | ⟨t, model, rfl, hrebase, rfl⟩
  · cases h
    exact .inl ⟨d, library, _, hserved, rfl, rfl⟩
  · cases h
    exact .inr ⟨t, library, b, model, arena, hserved, hrebase, rfl, rfl⟩

theorem attachModel_eq {path : String} (h : attachModel c scope path n p = (m, q)) :
    m = n ∨ ∃ t library b model arena,
      p.library.Served path c.settings.assetDir p.arena (.ok t) library b ∧
      t.value.root.rebase n.world b = (model, arena) ∧
      m = { n with
        children := n.children ++ [model.addShadows scope.castShadow scope.receiveShadow] } := by
  rcases attachModel_cases h with ⟨_, _, _, -, rfl, -⟩ | ⟨t, l, b, model, a, hserved, hrebase, hm, -⟩
  · exact .inl rfl
  · exact .inr ⟨t, l, b, model, a, hserved, hrebase, hm⟩

/-! ## 4. Meshes -/

variable {shape : ShapeSpec K}

theorem attachMesh_error {d : Diagnostic K} (hbuild : shape.build c.settings = .error d)
    (h : attachMesh c scope shape n p = (m, q)) : m = n := by
  rw [attachMesh, hbuild] at h
  cases h
  rfl

theorem attachMesh_ok {g : Geometry K} (hbuild : shape.build c.settings = .ok g)
    (h : attachMesh c scope shape n p = (m, q)) :
    ∃ geometry material p' groups,
      geometry = ⟨p.arena.next, g⟩ ∧
      surfaceMaterial c scope { p with arena := { p.arena with next := p.arena.next + 1 } } =
        (material, p') ∧
      groupMaterials shape p' = (groups, q) ∧
      m = { n with mesh := some {
        Mesh.ofParts geometry material with
        name := n.name
        groupMaterials := groups
        castShadows := scope.castShadow
        receiveShadows := scope.receiveShadow } } := by
  obtain ⟨material, p', hsurface⟩ : ∃ material p', surfaceMaterial c scope
      { p with arena := { p.arena with next := p.arena.next + 1 } } = (material, p') := ⟨_, _, rfl⟩
  obtain ⟨groups, q', hgroups⟩ : ∃ groups q', groupMaterials shape p' = (groups, q') :=
    ⟨_, _, rfl⟩
  have hrun : attachMesh c scope shape n p = ({ n with mesh := some {
        Mesh.ofParts ⟨p.arena.next, g⟩ material with
        name := n.name
        groupMaterials := groups
        castShadows := scope.castShadow
        receiveShadows := scope.receiveShadow } }, q') := by
    simp only [attachMesh, hbuild, bind, StateT.bind, onArena_share, hsurface, hgroups]
    rfl
  rw [hrun] at h
  cases h
  exact ⟨_, material, p', groups, rfl, hsurface, hgroups, rfl⟩

theorem attachMesh_eq (h : attachMesh c scope shape n p = (m, q)) :
    ∃ mesh, m = { n with mesh := mesh } := by
  cases hbuild : shape.build c.settings with
  | error d =>
    obtain rfl := attachMesh_error hbuild h
    cases m
    exact ⟨_, rfl⟩
  | ok g =>
    obtain ⟨geometry, material, p', groups, -, -, -, hm⟩ := attachMesh_ok hbuild h
    exact ⟨_, hm⟩

theorem attachShape_of_ne_model (h : ∀ path, shape ≠ .model path) (n : SceneNode K) :
    attachShape c scope shape n = attachMesh c scope shape n := by
  cases shape with
  | model path => exact absurd rfl (h path)
  | _ => rfl

end Walk

end SceneAssembly
