/-
  SceneAssembly/Proofs/Materials/Building.lean
  ============================================
  **What the material of a description is made of.**

  But for its serial number, a built material is fixed by its description, its
  colour map and the textures that its other names resolve to
  (`MaterialSpec.made`).  These are the objects of the registry; the colour map
  is either that too or, for a material with a tiling, a copy (`IsMapping`).
  Since a registry only grows, `build_eq_made` may read them off any later one.
-/
import SceneAssembly.Material.Build
import SceneAssembly.Proofs.Textures.Growth

namespace SceneAssembly

variable {K : Type}

/-- How a material maps a texture: the object itself, or a copy with the tiling of the material. -/
def IsMapping (tiling : Option (Vec2 K)) (t map : Shared (Texture K)) : Prop :=
  match tiling with
  | none => map = t
  | some tiling =>
    ∃ serial, map.value = { t.value with serial := serial, version := 0 }.withTiling tiling

def TextureRegistry.named? (r : TextureRegistry K) (id : Option String) :
    Option (Shared (Texture K)) :=
  id.bind r.handles.find?

/-- A report of an optional name without a texture. -/
def TextureRegistry.missing (r : TextureRegistry K) : Option String → List (Diagnostic K)
  | none => []
  | some id => if r.knows id then [] else [.missingTexture id]

/-- What is missing does not depend on which textures have been made. -/
theorem TextureRegistry.Extends.missing_eq {r r' : TextureRegistry K} (h : r.Extends r') :
    r'.missing = r.missing := by
  funext id
  cases id with
  | none => rfl
  | some id => rw [missing, missing, h.knows_eq]

theorem TextureRegistry.missing_eq_nil_iff {r : TextureRegistry K} {id : Option String} :
    r.missing id = [] ↔ ∀ name ∈ id, r.knows name = true := by
  cases id with
  | none => simp [missing]
  | some id => simp [missing]

theorem TextureRegistry.eq_of_mem_missing {r : TextureRegistry K} {id : Option String}
    {d : Diagnostic K} (h : d ∈ r.missing id) : ∃ name, d = .missingTexture name := by
  cases id with
  | none => cases h
  | some name =>
    rw [missing] at h
    split at h
    · cases h
    · exact ⟨name, List.mem_singleton.mp h⟩

theorem eq_of_rel_isMapping_none {t map : Option (Shared (Texture K))}
    (h : Option.Rel (IsMapping none) t map) : map = t := by
  cases h with
  | none => rfl
  | some h => exact congrArg some h

variable [Scalar K]

namespace MaterialSpec

def shaderOf (m : MaterialSpec K) (map specularMap bumpMap : Option (Shared (Texture K))) :
    Shader K :=
  match m.shading with
  | .unlit => .unlit ⟨m.color.extend 1, map, specularMap⟩
  | shading => .phong {
      color := m.color.extend 1
      specular := m.specular
      emissive := m.emissive
      emissiveIntensity := 1
      shininess := m.shininess
      flat := shading == .flat
      map
      specularMap
      bumpMap
      bumpScale := m.bumpScale }

/-- The material of a description, given its serial number and its maps. -/
def made (m : MaterialSpec K) (serial : Nat)
    (map specularMap bumpMap : Option (Shared (Texture K))) : Material K where
  serial := serial
  name := if m.id = "" then none else some m.id
  shader := m.shaderOf map specularMap bumpMap
  side := if m.twoSided then .double else .front
  wireframe := m.wireframe
  transparent := false
  depthWrite := true
  depthTest := true
  mapRepeat := m.tiling

theorem setMap_made (m : MaterialSpec K) (serial serial' : Nat)
    (map map' specularMap bumpMap : Option (Shared (Texture K))) :
    { (m.made serial map specularMap bumpMap).setMap map' with serial := serial' } =
      m.made serial' map' specularMap bumpMap := by
  unfold made shaderOf Material.setMap
  cases m.shading <;> rfl

/-! ## 1. Looking up -/

variable {s : TextureRegistry K × Arena}

open Texturing (Growth)

theorem growth_lookup (id : Option String) (tiling : Option (Vec2 K)) :
    Growth s (lookup id tiling s).2 := by
  cases id with
  | none => exact Growth.refl s
  | some id =>
    cases tiling with
    | none => exact TextureRegistry.growth_resolve id
    | some tiling => exact TextureRegistry.growth_resolveTiled id tiling

/-- Looking up is resolving; neither a tiled copy nor the report changes the registry again. -/
theorem lookup_some (id : String) (tiling : Option (Vec2 K)) :
    (lookup (some id) tiling s).2.1 = (TextureRegistry.resolve id s).2.1 ∧
      Option.Rel (IsMapping tiling) (TextureRegistry.resolve id s).1
        (lookup (some id) tiling s).1.1 := by
  obtain ⟨t, u, heq⟩ : ∃ t u, TextureRegistry.resolve id s = (t, u) := ⟨_, _, rfl⟩
  cases tiling with
  | none =>
    simp only [lookup, bind, StateT.bind, heq]
    refine ⟨rfl, ?_⟩
    cases t with
    | none => exact .none
    | some t => exact .some rfl
  | some tiling =>
    simp only [lookup, TextureRegistry.resolveTiled, bind, StateT.bind, heq]
    cases t with
    | none => exact ⟨rfl, .none⟩
    | some t => exact ⟨rfl, .some ⟨u.2.next, rfl⟩⟩

/-- A name finds the texture kept under it, as the tiling asks for. -/
theorem lookup_isMapping (id : Option String) (tiling : Option (Vec2 K)) {r : TextureRegistry K}
    (h : (lookup id tiling s).2.1.Extends r) :
    Option.Rel (IsMapping tiling) (r.named? id) (lookup id tiling s).1.1 := by
  cases id with
  | none => exact .none
  | some id =>
    obtain ⟨hregistry, hmapping⟩ := lookup_some (s := s) id tiling
    rw [hregistry] at h
    rw [(TextureRegistry.resolve_eq_of_extends h).1] at hmapping
    exact hmapping

/-- All that a look-up reports is that there is no texture. -/
theorem lookup_faults (id : Option String) (tiling : Option (Vec2 K)) :
    (lookup id tiling s).1.2 = s.1.missing id := by
  cases id with
  | none => rfl
  | some id =>
    have hknows := TextureRegistry.isSome_resolve (s := s) id
    obtain ⟨t, u, heq⟩ : ∃ t u, TextureRegistry.resolve id s = (t, u) := ⟨_, _, rfl⟩
    rw [heq] at hknows
    cases tiling with
    | none =>
      simp only [lookup, bind, StateT.bind, heq, TextureRegistry.missing, ← hknows]
      cases t <;> rfl
    | some tiling =>
      simp only [lookup, TextureRegistry.resolveTiled, bind, StateT.bind, heq,
        TextureRegistry.missing, ← hknows]
      cases t <;> rfl

/-- The names of textures that a description has looked up, in order; a surface without light needs
    no bump map. -/
def names (m : MaterialSpec K) : List (Option String) :=
  if m.shading = .unlit then [m.texture, m.specularMap]
  else [m.texture, m.specularMap, m.bumpMap]

/-- Every texture that a description names is known to a registry; a surface without light needs no
    bump map. -/
structure IsComplete (m : MaterialSpec K) (r : TextureRegistry K) : Prop where
  texture : ∀ id ∈ m.texture, r.knows id = true
  specularMap : ∀ id ∈ m.specularMap, r.knows id = true
  bumpMap : m.shading ≠ .unlit → ∀ id ∈ m.bumpMap, r.knows id = true

omit [Scalar K] in
theorem IsComplete.of_extends {m : MaterialSpec K} {r r' : TextureRegistry K}
    (h : m.IsComplete r') (hr : r.Extends r') : m.IsComplete r where
  texture id hid := hr.knows_eq id ▸ h.texture id hid
  specularMap id hid := hr.knows_eq id ▸ h.specularMap id hid
  bumpMap hlit id hid := hr.knows_eq id ▸ h.bumpMap hlit id hid

/-! ## 2. Building -/

/-- The shader of a description comes out of two or three look-ups, one after the other: a surface
    without light has no bump map to look up. -/
theorem shader_lookups (m : MaterialSpec K) (s : TextureRegistry K × Arena) :
    ∃ map d₁ s₁ specular d₂ s₂ bump d₃ s₃,
      lookup m.texture m.tiling s = ((map, d₁), s₁) ∧
      lookup m.specularMap none s₁ = ((specular, d₂), s₂) ∧
      lookup m.bumpMap none s₂ = ((bump, d₃), s₃) ∧
      ((∀ any, m.shader s = ((m.shaderOf map specular any, d₁ ++ d₂), s₂)) ∨
        m.shader s = ((m.shaderOf map specular bump, d₁ ++ d₂ ++ d₃), s₃)) := by
  obtain ⟨map, d₁, s₁, h₁⟩ : ∃ map d₁ s₁, lookup m.texture m.tiling s = ((map, d₁), s₁) :=
    ⟨_, _, _, rfl⟩
  obtain ⟨specular, d₂, s₂, h₂⟩ : ∃ t d₂ s₂, lookup m.specularMap none s₁ = ((t, d₂), s₂) :=
    ⟨_, _, _, rfl⟩
  obtain ⟨bump, d₃, s₃, h₃⟩ : ∃ t d₃ s₃, lookup m.bumpMap none s₂ = ((t, d₃), s₃) :=
    ⟨_, _, _, rfl⟩
  refine ⟨map, d₁, s₁, specular, d₂, s₂, bump, d₃, s₃, h₁, h₂, h₃, ?_⟩
  cases hshading : m.shading with
  | unlit =>
    refine .inl fun any => ?_
    simp only [shader, shaderOf, hshading, bind, StateT.bind, h₁, h₂]
    rfl
  | _ =>
    refine .inr ?_
    simp only [shader, shaderOf, hshading, bind, StateT.bind, h₁, h₂, h₃]
    rfl

theorem growth_shader_of_lookup (m : MaterialSpec K) :
    Growth (lookup m.texture m.tiling s).2 (m.shader s).2 := by
  obtain ⟨map, d₁, s₁, specular, d₂, s₂, bump, d₃, s₃, h₁, h₂, h₃, hends⟩ := shader_lookups m s
  have hgrow₂ := growth_lookup (s := s₁) m.specularMap none
  have hgrow₃ := growth_lookup (s := s₂) m.bumpMap none
  rw [h₂] at hgrow₂
  rw [h₃] at hgrow₃
  rw [h₁]
  rcases hends with hend | hend
  · rw [hend none]
    exact hgrow₂
  · rw [hend]
    exact hgrow₂.trans hgrow₃

theorem shader_eq_shaderOf (m : MaterialSpec K) {r : TextureRegistry K}
    (h : (m.shader s).2.1.Extends r) :
    ∃ map, Option.Rel (IsMapping m.tiling) (r.named? m.texture) map ∧
      (m.shader s).1.1 = m.shaderOf map (r.named? m.specularMap) (r.named? m.bumpMap) := by
  obtain ⟨map, d₁, s₁, specular, d₂, s₂, bump, d₃, s₃, h₁, h₂, h₃, hends⟩ := shader_lookups m s
  have hmap := lookup_isMapping (s := s) (r := r) m.texture m.tiling
  have hspecular := lookup_isMapping (s := s₁) (r := r) m.specularMap none
  have hbump := lookup_isMapping (s := s₂) (r := r) m.bumpMap none
  have hgrow₂ := growth_lookup (s := s₁) m.specularMap none
  have hgrow₃ := growth_lookup (s := s₂) m.bumpMap none
  rw [h₁] at hmap
  rw [h₂] at hspecular hgrow₂
  rw [h₃] at hbump hgrow₃
  rcases hends with hend | hend
  · have hr : s₂.1.Extends r := by rwa [hend none] at h
    have heq : specular = r.named? m.specularMap := eq_of_rel_isMapping_none (hspecular hr)
    refine ⟨map, hmap (hgrow₂.registry.trans hr), ?_⟩
    rw [hend (r.named? m.bumpMap), ← heq]
  · have hr₃ : s₃.1.Extends r := by rwa [hend] at h
    have hr₂ : s₂.1.Extends r := hgrow₃.registry.trans hr₃
    have heq₃ : bump = r.named? m.bumpMap := eq_of_rel_isMapping_none (hbump hr₃)
    have heq₂ : specular = r.named? m.specularMap := eq_of_rel_isMapping_none (hspecular hr₂)
    refine ⟨map, hmap (hgrow₂.registry.trans hr₂), ?_⟩
    rw [hend, ← heq₂, ← heq₃]

/-- What is reported of a shader are the names in its description that have no texture. -/
theorem shader_faults (m : MaterialSpec K) : (m.shader s).1.2 = m.names.flatMap s.1.missing := by
  obtain ⟨map, d₁, s₁, h₁⟩ : ∃ map d₁ s₁, lookup m.texture m.tiling s = ((map, d₁), s₁) :=
    ⟨_, _, _, rfl⟩
  obtain ⟨specular, d₂, s₂, h₂⟩ : ∃ t d₂ s₂, lookup m.specularMap none s₁ = ((t, d₂), s₂) :=
    ⟨_, _, _, rfl⟩
  obtain ⟨bump, d₃, s₃, h₃⟩ : ∃ t d₃ s₃, lookup m.bumpMap none s₂ = ((t, d₃), s₃) :=
    ⟨_, _, _, rfl⟩
  -- Each look-up is made in a registry that the ones before it have let grow.
  have hgrow₁ := growth_lookup (s := s) m.texture m.tiling
  have hgrow₂ := growth_lookup (s := s₁) m.specularMap none
  have hmap := lookup_faults (s := s) m.texture m.tiling
  have hspecular := lookup_faults (s := s₁) m.specularMap none
  have hbump := lookup_faults (s := s₂) m.bumpMap none
  rw [h₁] at hgrow₁ hmap
  rw [h₂] at hgrow₂ hspecular
  rw [h₃] at hbump
  rw [hgrow₁.registry.missing_eq] at hspecular
  rw [(hgrow₁.trans hgrow₂).registry.missing_eq] at hbump
  have hnames : m.names.flatMap s.1.missing = if m.shading = .unlit then d₁ ++ d₂
      else d₁ ++ d₂ ++ d₃ := by
    have hmap : s.1.missing m.texture = d₁ := hmap.symm
    have hspecular : s.1.missing m.specularMap = d₂ := hspecular.symm
    have hbump : s.1.missing m.bumpMap = d₃ := hbump.symm
    rw [names]
    split <;> simp [hmap, hspecular, hbump]
  rw [hnames]
  cases hshading : m.shading with
  | unlit =>
    simp only [shader, hshading, bind, StateT.bind, h₁, h₂, if_true]
    rfl
  | _ =>
    simp only [shader, hshading, bind, StateT.bind, h₁, h₂, h₃, reduceCtorEq, if_false]
    rfl

/-- The last step of building gives the material its serial number. -/
theorem build_eq (m : MaterialSpec K) :
    ∃ shader d t, m.shader s = ((shader, d), t) ∧
      m.build s = (({
        serial := t.2.next
        name := if m.id = "" then none else some m.id
        shader
        side := if m.twoSided then .double else .front
        wireframe := m.wireframe
        transparent := false
        depthWrite := true
        depthTest := true
        mapRepeat := m.tiling }, d), (t.1, { t.2 with next := t.2.next + 1 })) := by
  obtain ⟨shader, d, t, heq⟩ : ∃ shader d t, m.shader s = ((shader, d), t) := ⟨_, _, _, rfl⟩
  refine ⟨shader, d, t, heq, ?_⟩
  simp only [build, bind, StateT.bind, heq]
  rfl

theorem growth_build_of_lookup (m : MaterialSpec K) :
    Growth (lookup m.texture m.tiling s).2 (m.build s).2 := by
  obtain ⟨shader, d, t, hshader, heq⟩ := build_eq (s := s) m
  have hgrow := growth_shader_of_lookup (s := s) m
  rw [hshader] at hgrow
  rw [heq]
  exact hgrow.trans (Growth.ofArena (Nat.le_succ _))

theorem growth_build (m : MaterialSpec K) : Growth s (m.build s).2 :=
  (growth_lookup m.texture m.tiling).trans (growth_build_of_lookup m)

@[simp] theorem build_mapRepeat (m : MaterialSpec K) : (m.build s).1.1.mapRepeat = m.tiling := by
  obtain ⟨shader, d, t, -, heq⟩ := build_eq (s := s) m
  rw [heq]

/-- Building reports the names that have no texture. -/
theorem build_faults (m : MaterialSpec K) : (m.build s).1.2 = m.names.flatMap s.1.missing := by
  obtain ⟨shader, faults, t, hshader, heq⟩ := build_eq (s := s) m
  have hfaults := shader_faults (s := s) m
  rw [hshader] at hfaults
  rw [heq]
  exact hfaults

theorem mem_build_faults {m : MaterialSpec K} {d : Diagnostic K} (h : d ∈ (m.build s).1.2) :
    ∃ id, d = .missingTexture id := by
  rw [build_faults] at h
  obtain ⟨name, -, hd⟩ := List.mem_flatMap.mp h
  exact TextureRegistry.eq_of_mem_missing hd

omit [Scalar K] in
theorem isComplete_iff {m : MaterialSpec K} {r : TextureRegistry K} :
    m.IsComplete r ↔ m.names.flatMap r.missing = [] := by
  rw [List.flatMap_eq_nil_iff, names]
  by_cases hlit : m.shading = .unlit
  · rw [if_pos hlit]
    simp only [List.forall_mem_cons, TextureRegistry.missing_eq_nil_iff]
    exact ⟨fun h => ⟨h.texture, h.specularMap, by simp⟩,
      fun ⟨htexture, hspecular, _⟩ => ⟨htexture, hspecular, fun h => absurd hlit h⟩⟩
  · rw [if_neg hlit]
    simp only [List.forall_mem_cons, TextureRegistry.missing_eq_nil_iff]
    exact ⟨fun h => ⟨h.texture, h.specularMap, h.bumpMap hlit, by simp⟩,
      fun ⟨htexture, hspecular, hbump, _⟩ => ⟨htexture, hspecular, fun _ => hbump⟩⟩

/-- Building has nothing to report exactly if the description is complete. -/
theorem build_faults_eq_nil_iff (m : MaterialSpec K) :
    (m.build s).1.2 = [] ↔ m.IsComplete s.1 := by
  rw [build_faults, isComplete_iff]

/-- **What a built material is made of.** -/
theorem build_eq_made (m : MaterialSpec K) {r : TextureRegistry K}
    (h : (m.build s).2.1.Extends r) :
    ∃ serial map, Option.Rel (IsMapping m.tiling) (r.named? m.texture) map ∧
      (m.build s).1.1 = m.made serial map (r.named? m.specularMap) (r.named? m.bumpMap) := by
  obtain ⟨shader, d, t, hshader, heq⟩ := build_eq (s := s) m
  have hmade := shader_eq_shaderOf (s := s) (r := r) m
  rw [heq] at h
  rw [hshader] at hmade
  obtain ⟨map, hmap, hshape⟩ := hmade h
  refine ⟨t.2.next, map, hmap, ?_⟩
  rw [heq]
  simp only [made]
  rw [← hshape]

end MaterialSpec

end SceneAssembly
