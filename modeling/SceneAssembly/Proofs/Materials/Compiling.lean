/-
  SceneAssembly/Proofs/Materials/Compiling.lean
  =============================================
  **Materials that share textures.**

  A description builds into the same material whatever has been built before,
  as far as anything can be seen of it: the textures that are kept stay as they
  are, and those that are made look as their descriptions say
  (`contents_buildAll`).  Its maps are the textures that are kept under its
  names; only a colour map with a tiling is a copy, with a number that nothing
  kept has (`map_of_tiling`), so that the tiling is nobody else's.  A name
  without a texture is reported and otherwise as good as no name
  (`build_without_of_unknown`).
-/
import SceneAssembly.Proofs.Materials.Making
import SceneAssembly.Proofs.Textures.Adding
import SceneAssembly.Proofs.Textures.Runs

namespace SceneAssembly

variable {K : Type}

/-! ## 1. Looking up -/

namespace MaterialSpec

variable [Scalar K] {s : TextureRegistry K × Arena}

open Texturing (Adds)

theorem lookup_untiled {id : String} {found : Option (Shared (Texture K))}
    {u : TextureRegistry K × Arena} (h : TextureRegistry.resolve id s = (found, u)) :
    lookup (some id) none s = ((found, if found.isNone then [.missingTexture id] else []), u) := by
  simp only [lookup, bind, StateT.bind, h]
  rfl

theorem lookup_tiled {id : String} {base : Shared (Texture K)} {u : TextureRegistry K × Arena}
    (h : TextureRegistry.resolve id s = (some base, u)) (tiling : Vec2 K) :
    lookup (some id) (some tiling) s =
      ((some ⟨u.2.next + 1, { base.value with
        serial := u.2.next
        version := 0 }.withTiling tiling⟩, []), (u.1, { u.2 with next := u.2.next + 2 })) := by
  simp only [lookup, bind, StateT.bind, TextureRegistry.resolveTiled_some h]
  rfl

/-- A name without a texture changes nothing. -/
theorem lookup_unknown {id : String} (h : s.1.knows id = false) (tiling : Option (Vec2 K)) :
    lookup (some id) tiling s = ((none, [.missingTexture id]), s) := by
  obtain ⟨hhandle, hrecord⟩ : s.1.handles.find? id = none ∧ s.1.records.find? id = none := by
    simpa [TextureRegistry.knows] using h
  have hresolve := TextureRegistry.resolve_unknown hhandle hrecord
  cases tiling with
  | none => exact lookup_untiled hresolve
  | some tiling =>
    simp only [lookup, bind, StateT.bind, TextureRegistry.resolveTiled_none hresolve]
    rfl

theorem adds_lookup (id : Option String) (tiling : Option (Vec2 K)) :
    Adds s (lookup id tiling s).2 := by
  cases id with
  | none => exact .refl s
  | some id =>
    obtain ⟨found, u, hresolve⟩ : ∃ found u, TextureRegistry.resolve id s = (found, u) :=
      ⟨_, _, rfl⟩
    have hadds := TextureRegistry.adds_resolve (s := s) id
    rw [hresolve] at hadds
    cases tiling with
    | none =>
      rw [lookup_untiled hresolve]
      exact hadds
    | some tiling =>
      cases found with
      | none =>
        simp only [lookup, bind, StateT.bind, TextureRegistry.resolveTiled_none hresolve]
        exact hadds
      | some base =>
        rw [lookup_tiled hresolve]
        exact hadds.trans (.ofArena (Nat.le_add_right _ 2) rfl)

/-- The shader of a description, by its look-ups. -/
theorem shader_of_lookups {m : MaterialSpec K} {map specular bump : Option (Shared (Texture K))}
    {d₁ d₂ d₃ : List (Diagnostic K)} {s₁ s₂ s₃ : TextureRegistry K × Arena}
    (h₁ : lookup m.texture m.tiling s = ((map, d₁), s₁))
    (h₂ : lookup m.specularMap none s₁ = ((specular, d₂), s₂))
    (h₃ : lookup m.bumpMap none s₂ = ((bump, d₃), s₃)) :
    (m.shader s).1.1 = m.shaderOf map specular bump ∧
      (m.shader s).2 = if m.shading = .unlit then s₂ else s₃ := by
  cases hshading : m.shading <;>
    simp only [shader, shaderOf, hshading, bind, StateT.bind, h₁, h₂, h₃, reduceCtorEq, if_true,
      if_false] <;>
    exact ⟨rfl, rfl⟩

/-- After its first look-up, building looks up the other names and takes a serial number. -/
theorem build_of_lookup (m : MaterialSpec K) :
    (m.build s).1.1.map = (lookup m.texture m.tiling s).1.1 ∧
      Adds (lookup m.texture m.tiling s).2 (m.build s).2 := by
  obtain ⟨map, d₁, s₁, specular, d₂, s₂, bump, d₃, s₃, h₁, h₂, h₃, -⟩ := shader_lookups m s
  obtain ⟨hshape, hend⟩ := shader_of_lookups h₁ h₂ h₃
  obtain ⟨shader, d, t, hshader, hbuild⟩ := build_eq (s := s) m
  rw [hshader] at hshape hend
  have hadds : Adds s₁ t := by
    have hadds₂ := adds_lookup (s := s₁) m.specularMap none
    have hadds₃ := adds_lookup (s := s₂) m.bumpMap none
    rw [h₂] at hadds₂
    rw [h₃] at hadds₃
    rw [show t = _ from hend]
    split
    · exact hadds₂
    · exact hadds₂.trans hadds₃
  rw [hbuild, h₁]
  refine ⟨?_, hadds.trans (.ofArena (Nat.le_succ _) rfl)⟩
  rw [show shader = _ from hshape]
  unfold shaderOf Material.map
  cases m.shading <;> rfl

theorem adds_build (m : MaterialSpec K) : Adds s (m.build s).2 :=
  (adds_lookup m.texture m.tiling).trans (build_of_lookup m).2

end MaterialSpec

/-! ## 2. Names without a texture -/

/-- What a texture is for on a surface. -/
inductive MapRole where
  | color
  | specular
  | bump
deriving DecidableEq

def Material.mapAt (m : Material K) : MapRole → Option (Shared (Texture K))
  | .color => m.map
  | .specular => m.specularMap
  | .bump => m.bumpMap

def MaterialLook.mapAt (m : MaterialLook K) : MapRole → Option (TextureLook K)
  | .color => m.map
  | .specular => m.specularMap
  | .bump => m.bumpMap

namespace MaterialSpec

/-- The name of the texture for a role. -/
def nameAt (m : MaterialSpec K) : MapRole → Option String
  | .color => m.texture
  | .specular => m.specularMap
  | .bump => m.bumpMap

/-- The description without the texture for a role. -/
def without (m : MaterialSpec K) : MapRole → MaterialSpec K
  | .color => { m with texture := none }
  | .specular => { m with specularMap := none }
  | .bump => { m with bumpMap := none }

/-- The roles that a texture is looked up for, in order. -/
def roles (m : MaterialSpec K) : List MapRole :=
  if m.shading = .unlit then [.color, .specular] else [.color, .specular, .bump]

theorem names_eq (m : MaterialSpec K) : m.names = m.roles.map m.nameAt := by
  unfold names roles
  split <;> rfl

section Building

variable [Scalar K] {s : TextureRegistry K × Arena} {m : MaterialSpec K} {role : MapRole}
  {id : String}

omit [Scalar K] in
theorem shading_without : (m.without role).shading = m.shading := by cases role <;> rfl

theorem shaderOf_without : (m.without role).shaderOf = m.shaderOf := by cases role <;> rfl

/-- The look-ups after one that finds nothing are those that there would be without it. -/
theorem shader_without_of_unknown (hname : m.nameAt role = some id) (h : s.1.knows id = false) :
    ((m.without role).shader s).1.1 = (m.shader s).1.1 ∧
      ((m.without role).shader s).2 = (m.shader s).2 := by
  obtain ⟨map, d₁, s₁, specular, d₂, s₂, bump, d₃, s₃, h₁, h₂, h₃, -⟩ := shader_lookups m s
  have hgrow₁ := (growth_lookup (s := s) m.texture m.tiling).registry
  have hgrow₂ := (growth_lookup (s := s₁) m.specularMap none).registry
  rw [h₁] at hgrow₁
  rw [h₂] at hgrow₂
  obtain ⟨hshape, hend⟩ := shader_of_lookups h₁ h₂ h₃
  cases role with
  | color =>
    have hunknown := lookup_unknown h m.tiling
    rw [show some id = m.texture from hname.symm, h₁] at hunknown
    cases hunknown
    have hnone : lookup (m.without .color).texture (m.without .color).tiling s = ((none, []), s) :=
      rfl
    obtain ⟨hshape', hend'⟩ := shader_of_lookups hnone h₂ h₃
    rw [hshape, hend, hshape', hend', shading_without, shaderOf_without]
    exact ⟨rfl, rfl⟩
  | specular =>
    have hunknown := lookup_unknown (s := s₁) ((hgrow₁.knows_eq id).trans h) none
    rw [show some id = m.specularMap from hname.symm, h₂] at hunknown
    cases hunknown
    have hnone : lookup (m.without .specular).specularMap none s₁ = ((none, []), s₁) := rfl
    obtain ⟨hshape', hend'⟩ := shader_of_lookups (m := m.without .specular) h₁ hnone h₃
    rw [hshape, hend, hshape', hend', shading_without, shaderOf_without]
    exact ⟨rfl, rfl⟩
  | bump =>
    have hunknown :=
      lookup_unknown (s := s₂) (((hgrow₁.trans hgrow₂).knows_eq id).trans h) none
    rw [show some id = m.bumpMap from hname.symm, h₃] at hunknown
    cases hunknown
    have hnone : lookup (m.without .bump).bumpMap none s₂ = ((none, []), s₂) := rfl
    obtain ⟨hshape', hend'⟩ := shader_of_lookups (m := m.without .bump) h₁ h₂ hnone
    rw [hshape, hend, hshape', hend', shading_without, shaderOf_without]
    exact ⟨rfl, rfl⟩

/-- A name without a texture is as good as no name, but for the report. -/
theorem build_without_of_unknown (hname : m.nameAt role = some id) (h : s.1.knows id = false) :
    ((m.without role).build s).1.1 = (m.build s).1.1 ∧
      ((m.without role).build s).2 = (m.build s).2 := by
  obtain ⟨hshape, hend⟩ := shader_without_of_unknown hname h
  obtain ⟨shader, d, t, hshader, hbuild⟩ := build_eq (s := s) m
  obtain ⟨shader', d', t', hshader', hbuild'⟩ := build_eq (s := s) (m.without role)
  rw [hshader, hshader'] at hshape hend
  obtain ⟨rfl, rfl⟩ : shader' = shader ∧ t' = t := ⟨hshape, hend⟩
  rw [hbuild, hbuild']
  cases role <;> exact ⟨rfl, rfl⟩

/-- What is reported are the names looked up without a texture, in order. -/
theorem build_report (m : MaterialSpec K) (s : TextureRegistry K × Arena) : (m.build s).1.2 =
    ((m.roles.filterMap m.nameAt).filter fun id => !s.1.knows id).map .missingTexture := by
  rw [build_faults, names_eq, List.flatMap_map]
  induction m.roles with
  | nil => rfl
  | cons role rest ih =>
    rw [List.flatMap_cons, ih, List.filterMap_cons]
    cases hname : m.nameAt role with
    | none => rfl
    | some id => cases hknows : s.1.knows id <;> simp [TextureRegistry.missing, hknows]

end Building

end MaterialSpec

/-! ## 3. The maps -/

namespace MaterialSpec

variable [Scalar K] {s : TextureRegistry K × Arena} {m : MaterialSpec K} {role : MapRole}
  {id : String}

open TextureRegistry (Founded shown)
open Texturing (Adds)

/-- A material has a map exactly where its description looks up a name with a texture. -/
theorem isSome_mapAt_iff (hs : Founded s) (m : MaterialSpec K) (role : MapRole) :
    ((m.build s).1.1.mapAt role).isSome ↔
      role ∈ m.roles ∧ ∃ id ∈ m.nameAt role, s.1.knows id = true := by
  obtain ⟨material, t, hbuild, -, hlook⟩ := showing_build hs.shows m
  have hmap : (material.mapAt role).map (·.value.look t.2) = (m.look (shown s)).mapAt role := by
    rw [← hlook.eq]
    cases role <;> rfl
  have hseen (name : Option String) (tiling : Option (Vec2 K)) :
      (lookOf (shown s) name tiling).isSome ↔ ∃ id ∈ name, s.1.knows id = true := by
    cases name with
    | none => simp [lookOf]
    | some name => simp [lookOf, TextureRegistry.isSome_shown]
  rw [hbuild]
  show (material.mapAt role).isSome ↔ _
  rw [← Option.isSome_map, hmap, roles]
  by_cases hlit : m.shading = .unlit
  · cases role <;> simp [hlit, MaterialLook.mapAt, look, hseen, nameAt]
  · cases role <;> simp [hlit, MaterialLook.mapAt, look, hseen, nameAt]

theorem mapAt_made (hrole : role ∈ m.roles) (serial : Nat)
    (map specularMap bumpMap : Option (Shared (Texture K))) :
    (m.made serial map specularMap bumpMap).mapAt role =
      match role with
      | .color => map
      | .specular => specularMap
      | .bump => bumpMap := by
  unfold made shaderOf Material.mapAt Material.map Material.specularMap Material.bumpMap
  cases hshading : m.shading with
  | unlit =>
    rw [roles, if_pos hshading] at hrole
    cases role with
    | bump => simp at hrole
    | _ => rfl
  | _ => cases role <;> rfl

/-- But for a colour map with a tiling, a map is the texture that is kept under its name. -/
theorem mapAt_of_knows (hs : Founded s) (hrole : role ∈ m.roles) (hname : m.nameAt role = some id)
    (h : s.1.knows id = true) (hplain : role = .color → m.tiling = none) :
    ∃ base, (m.build s).2.1.handles.find? id = some base ∧
      (m.build s).1.1.mapAt role = some base := by
  obtain ⟨base, hbase⟩ :=
    Option.isSome_iff_exists.mp ((isSome_mapAt_iff hs m role).mpr ⟨hrole, id, hname, h⟩)
  obtain ⟨serial, map, hmap, hmade⟩ := build_eq_made (s := s) m (.refl (m.build s).2.1)
  have hkept : (m.build s).1.1.mapAt role = (m.build s).2.1.named? (m.nameAt role) := by
    rw [hmade, mapAt_made hrole]
    cases role with
    | color =>
      rw [hplain rfl] at hmap
      exact eq_of_rel_isMapping_none hmap
    | specular => rfl
    | bump => rfl
  refine ⟨base, ?_, hbase⟩
  rw [hbase, hname] at hkept
  exact hkept.symm

/-- A texture with another's pixels and a tiling of its own, on an object that neither was there
before nor is kept. -/
structure IsPrivateCopy (s t : TextureRegistry K × Arena) (base copy : Shared (Texture K))
    (tiling : Vec2 K) : Prop where
  source_eq : copy.value.source = base.value.source
  mipmaps_eq : copy.value.mipmaps = base.value.mipmaps
  tiling_eq : copy.value.transform.tiling = tiling
  fresh : s.2.next ≤ copy.id
  apart : ∀ id x, t.1.handles.find? id = some x → x.id ≠ copy.id

/-- A colour map with a tiling is a copy of the texture that is kept under its name. -/
theorem map_of_tiling (hs : Founded s) (hname : m.texture = some id) (h : s.1.knows id = true)
    {tiling : Vec2 K} (htiling : m.tiling = some tiling) :
    ∃ base copy, (m.build s).2.1.handles.find? id = some base ∧
      (m.build s).1.1.map = some copy ∧ IsPrivateCopy s (m.build s).2 base copy tiling := by
  obtain ⟨base, u, hresolve⟩ : ∃ base u, TextureRegistry.resolve id s = (some base, u) := by
    have hsome := TextureRegistry.isSome_resolve (s := s) id
    rw [h] at hsome
    obtain ⟨base, hbase⟩ := Option.isSome_iff_exists.mp hsome
    exact ⟨base, _, Prod.ext hbase rfl⟩
  have hkept := (TextureRegistry.resolve_eq_find? (s := s) id).1
  have hresolved := TextureRegistry.adds_resolve (s := s) id
  have hgrow := (growth_build_of_lookup (s := s) m).registry
  obtain ⟨hmap, hadds⟩ := build_of_lookup (s := s) m
  rw [hresolve] at hkept hresolved
  rw [hname, htiling, lookup_tiled hresolve] at hgrow hmap hadds
  refine ⟨base, _, hgrow.handles hkept.symm, hmap, rfl, rfl, rfl, ?_, fun id' x hx => ?_⟩
  · exact Nat.le_succ_of_le hresolved.next
  · rcases hadds.origin hx with hold | hmade
    · exact Nat.ne_of_lt (Nat.lt_succ_of_lt ((hresolved.founded hs).given hold))
    · exact (Nat.ne_of_lt (Nat.lt_of_succ_le hmade.fresh)).symm

/-! ## 4. Tilings -/

/-- How often a texture repeats along an axis with an optional length. -/
structure IsRepeat (length : Option K) (r : K) : Prop where
  of_pos : ∀ l, length = some l → 0 < l → r = 1 / l
  otherwise : (∀ l, length = some l → ¬ 0 < l) → r = 1

theorem isRepeat_repeatsFor (length : Option K) : IsRepeat length (repeatsFor length) := by
  cases length with
  | none => exact ⟨nofun, fun _ => rfl⟩
  | some l =>
    constructor
    · rintro l' hl' hpos
      cases hl'
      exact if_pos hpos
    · intro hnone
      exact if_neg (hnone l rfl)

theorem isTiled_iff (length : Option K) : isTiled length = true ↔ ∃ l, length = some l ∧ 0 < l := by
  cases length with
  | none => simp [isTiled]
  | some l => simp [isTiled]

theorem isSome_tiling_iff (m : MaterialSpec K) : m.tiling.isSome = true ↔
    (∃ l, m.texLengthS = some l ∧ 0 < l) ∨ ∃ l, m.texLengthT = some l ∧ 0 < l := by
  rw [← isTiled_iff, ← isTiled_iff, ← Bool.or_eq_true, tiling]
  split <;> simp_all

/-! ## 5. One after another -/

/-- Builds descriptions one after another, each with its report. -/
def buildAll : List (MaterialSpec K) → Texturing K (List (Material K × List (Diagnostic K)))
  | [] => return []
  | m :: rest => do return (← m.build) :: (← buildAll rest)

/-- What there is to see of a material and its report. -/
def contents (a : Arena) (built : Material K × List (Diagnostic K)) :
    MaterialLook K × List (Diagnostic K) :=
  (built.1.look a, built.2)

theorem buildAll_cons (m : MaterialSpec K) (rest : List (MaterialSpec K))
    (s : TextureRegistry K × Arena) : buildAll (m :: rest) s =
      ((m.build s).1 :: (buildAll rest (m.build s).2).1, (buildAll rest (m.build s).2).2) :=
  rfl

theorem growth_buildAll (ms : List (MaterialSpec K)) :
    Texturing.Growth s (buildAll ms s).2 := by
  induction ms generalizing s with
  | nil => exact .refl s
  | cons m rest ih => exact (growth_build m).trans ih

theorem adds_buildAll (ms : List (MaterialSpec K)) : Adds s (buildAll ms s).2 := by
  induction ms generalizing s with
  | nil => exact .refl s
  | cons m rest ih => exact (adds_build m).trans ih

/-- What names look like says what each material looks like, whenever it is built. -/
theorem contents_buildAll {texture : String → Option (TextureLook K)}
    (h : ShowsTextures texture s) (ms : List (MaterialSpec K)) :
    Lasts (buildAll ms s).2.2 (fun b => (buildAll ms s).1.map (contents b))
      (ms.map fun m => (m.look texture, m.missingNames texture)) := by
  induction ms generalizing s with
  | nil => exact fun _ _ => rfl
  | cons m rest ih =>
    obtain ⟨material, t, hbuild, hshow, hlook⟩ := showing_build h m
    intro b hb
    rw [buildAll_cons, hbuild] at hb ⊢
    have hlater : t.2.Stays b := (adds_buildAll rest).stays.trans hb
    have hfirst : contents b (material, m.missingNames texture)
        = (m.look texture, m.missingNames texture) := Prod.ext (hlook b hlater) rfl
    exact congrArg₂ List.cons hfirst (ih hshow.shows b hb)

theorem contents_build {texture : String → Option (TextureLook K)} (h : ShowsTextures texture s)
    (m : MaterialSpec K) :
    contents (m.build s).2.2 (m.build s).1 = (m.look texture, m.missingNames texture) := by
  obtain ⟨material, t, hbuild, -, hlook⟩ := showing_build h m
  rw [hbuild, contents, hlook.eq]

/-- What is built of a description in a state, and the state after it. -/
structure Compiles (m : MaterialSpec K) (s t : TextureRegistry K × Arena) (material : Material K)
    (report : List (Diagnostic K)) : Prop where
  /-- There is a tiling if a length is given and positive. -/
  tiling_iff : material.mapRepeat.isSome = true ↔
    (∃ l, m.texLengthS = some l ∧ 0 < l) ∨ ∃ l, m.texLengthT = some l ∧ 0 < l
  tiling_eq : ∀ tiling, material.mapRepeat = some tiling →
    IsRepeat m.texLengthS tiling.x ∧ IsRepeat m.texLengthT tiling.y
  /-- A map is the object that is kept, -/
  registered : ∀ role ∈ m.roles, ∀ id, m.nameAt role = some id → s.1.knows id = true →
    (role = .color → material.mapRepeat = none) →
    ∃ base, t.1.handles.find? id = some base ∧ material.mapAt role = some base
  /-- but for a colour map with a tiling. -/
  copied : ∀ id tiling, m.texture = some id → s.1.knows id = true →
    material.mapRepeat = some tiling →
    ∃ base copy, t.1.handles.find? id = some base ∧ material.map = some copy ∧
      IsPrivateCopy s t base copy tiling
  report_eq : report =
    ((m.roles.filterMap m.nameAt).filter fun id => !s.1.knows id).map .missingTexture
  /-- A name without a texture leaves its map out and everything else as it is without it. -/
  unresolved : ∀ role id, m.nameAt role = some id → s.1.knows id = false →
    material.mapAt role = none ∧ ((m.without role).build s).1.1 = material ∧
      ((m.without role).build s).2 = t
  kept : ∀ id x, s.1.handles.find? id = some x → t.1.handles.find? id = some x
  made : ∀ id x, t.1.handles.find? id = some x →
    s.1.handles.find? id = some x ∨ x.value.transform = .standard

theorem compiles_build (hs : Founded s) (m : MaterialSpec K) :
    Compiles m s (m.build s).2 (m.build s).1.1 (m.build s).1.2 where
  tiling_iff := by
    rw [build_mapRepeat]
    exact isSome_tiling_iff m
  tiling_eq := by
    intro tiling htiling
    rw [build_mapRepeat, MaterialSpec.tiling] at htiling
    split at htiling
    · cases htiling
      exact ⟨isRepeat_repeatsFor _, isRepeat_repeatsFor _⟩
    · cases htiling
  registered := by
    intro role hrole id hname h hplain
    rw [build_mapRepeat] at hplain
    exact mapAt_of_knows hs hrole hname h hplain
  copied := by
    intro id tiling hname h htiling
    rw [build_mapRepeat] at htiling
    exact map_of_tiling hs hname h htiling
  report_eq := build_report m s
  unresolved := by
    intro role id hname h
    have habsent : ¬ ((m.build s).1.1.mapAt role).isSome := by
      rw [isSome_mapAt_iff hs, hname]
      simp [h]
    exact ⟨Option.not_isSome_iff_eq_none.mp habsent, build_without_of_unknown hname h⟩
  kept _ _ hx := (growth_build m).registry.handles hx
  made _ _ hx := ((adds_build m).origin hx).imp_right fun h => h.transform_eq

/-- Building in a state: each description as it says, and in a sequence as alone. -/
structure CompilesFrom (s : TextureRegistry K × Arena) : Prop where
  each : ∀ m : MaterialSpec K, Compiles m s (m.build s).2 (m.build s).1.1 (m.build s).1.2
  /-- After any sequence there is such a state again, with the same objects. -/
  founded : ∀ ms : List (MaterialSpec K), Founded (buildAll ms s).2
  kept : ∀ (ms : List (MaterialSpec K)) (id : String) (x : Shared (Texture K)),
    s.1.handles.find? id = some x → (buildAll ms s).2.1.handles.find? id = some x
  /-- The contents at the end do not depend on the sequence. -/
  contents_eq : ∀ ms : List (MaterialSpec K),
    (buildAll ms s).1.map (contents (buildAll ms s).2.2) =
      ms.map fun m => contents (m.build s).2.2 (m.build s).1

/-- **A material is what its description says, whatever else is built.** -/
theorem compilesFrom_of_founded (hs : Founded s) : CompilesFrom s where
  each m := compiles_build hs m
  founded ms := (adds_buildAll ms).founded hs
  kept ms _ _ hx := (growth_buildAll ms).registry.handles hx
  contents_eq ms := by
    rw [(contents_buildAll hs.shows ms).eq]
    apply List.map_congr_left
    intro m _
    exact (contents_build hs.shows m).symm

/-- A wall of bricks, with a bump map that is missing. -/
def brickWall : MaterialSpec Float32 :=
  { MaterialSpec.standard with texture := some "brick", bumpMap := some "ghost" }

/-- The wall with bricks of two units along S. -/
def tiledBrickWall : MaterialSpec Float32 := { brickWall with texLengthS := some 2 }

/-- One wall shows the bricks that are kept, the other one a copy with its own tiling. -/
theorem compilesFrom_of_founded_brickWall :
    let s : TextureRegistry Float32 × Arena :=
      (.ofRecords TextureRegistry.brickwork "assets" .deferred, .empty)
    Founded s ∧ (brickWall.build s).1.2 = [.missingTexture "ghost"] ∧
      (∃ base, (brickWall.build s).2.1.handles.find? "brick" = some base ∧
        (brickWall.build s).1.1.map = some base) ∧
      (brickWall.build s).1.1.bumpMap = none ∧
      ∃ base copy, (tiledBrickWall.build s).2.1.handles.find? "brick" = some base ∧
        (tiledBrickWall.build s).1.1.map = some copy ∧
        IsPrivateCopy s (tiledBrickWall.build s).2 base copy ⟨1 / 2, 1⟩ := by
  intro s
  have hs : Founded s := TextureRegistry.founded_ofRecords _ _ _ _
  have hcompiles := (compilesFrom_of_founded hs).each brickWall
  have htiled := (compilesFrom_of_founded hs).each tiledBrickWall
  have htwo : (0 : Float32) < 2 := by decide +kernel
  refine ⟨hs, hcompiles.report_eq, ?_, (hcompiles.unresolved .bump "ghost" rfl rfl).1, ?_⟩
  · refine hcompiles.registered .color (by decide) "brick" rfl rfl fun _ => ?_
    rw [build_mapRepeat]
    rfl
  · obtain ⟨tiling, htiling⟩ :=
      Option.isSome_iff_exists.mp (htiled.tiling_iff.mpr (.inl ⟨2, rfl, htwo⟩))
    obtain ⟨hx, hy⟩ := htiled.tiling_eq tiling htiling
    have hrepeat : tiling = ⟨1 / 2, 1⟩ := by
      ext
      · exact hx.of_pos 2 rfl htwo
      · exact hy.otherwise nofun
    exact htiled.copied "brick" _ rfl rfl (hrepeat ▸ htiling)

end MaterialSpec

end SceneAssembly
