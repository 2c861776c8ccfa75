/-
  SceneAssembly/Proofs/Looks.lean
  ===============================
  **Textures and materials, read back without their identities.**

  The look of a texture or of a material is all that there is to see of it: the
  pixel sources stand in it themselves, not their numbers, and the numbers of
  objects are left out.  Arenas keep the sources that they have, so a look that
  can be read back once can be read back for good (`Lasts`).

  What an identifier looks like is fixed before anything is made of it: a
  texture that is kept has a look, and a description has the look of what will
  be made of it (`ShowsTextures`).  Resolving identifiers and building materials
  leaves this as it is.
-/
import SceneAssembly.Proofs.Materials.Building

namespace SceneAssembly

variable {K : Type}

/-! ## 1. What stays in an arena -/

/-- The arena with one more pixel source. -/
def Arena.adding (a : Arena) (source : PixelSource) : Arena :=
  { a with sources := a.sources.push source }

/-- The pixel sources of an arena are still there in a later one. -/
def Arena.Stays (a b : Arena) : Prop :=
  ∀ (i : SourceId) (source : PixelSource), a.sources[i]? = some source → b.sources[i]? = some source

namespace Arena.Stays

variable {a b c : Arena}

theorem refl (a : Arena) : a.Stays a := fun _ _ h => h

theorem trans (h : a.Stays b) (h' : b.Stays c) : a.Stays c := fun i s hs => h' i s (h i s hs)

theorem of_sources (h : b.sources = a.sources) : a.Stays b := fun i s hs => by rwa [h]

theorem adding (a : Arena) (source : PixelSource) : a.Stays (a.adding source) := by
  intro i s hs
  obtain ⟨hi, rfl⟩ := Array.getElem?_eq_some_iff.mp hs
  exact Array.getElem?_push_lt hi

end Arena.Stays

/-- What is read back from an arena is the same from now on. -/
def Lasts {α : Type} (a : Arena) (read : Arena → α) (x : α) : Prop := ∀ b, a.Stays b → read b = x

namespace Lasts

variable {α β : Type} {a b : Arena} {read : Arena → α} {x : α}

theorem mono (h : Lasts a read x) (hab : a.Stays b) : Lasts b read x :=
  fun c hc => h c (hab.trans hc)

theorem eq (h : Lasts a read x) : read a = x := h a (.refl a)

theorem map (h : Lasts a read x) (f : α → β) : Lasts a (fun b => f (read b)) (f x) :=
  fun b hb => congrArg f (h b hb)

theorem of_some {o : Option α} {read : Arena → α} (h : Lasts a (fun b => some (read b)) o) :
    ∃ x, o = some x ∧ Lasts a read x :=
  ⟨read a, h.eq.symm, fun b hb => Option.some.inj ((h b hb).trans h.eq.symm)⟩

theorem added (a : Arena) (source : PixelSource) :
    Lasts (a.adding source) (fun b => b.sources[a.sources.size]?) (some source) :=
  fun _ hb => hb _ _ Array.getElem?_push_size

end Lasts

/-! ## 2. Textures -/

structure TextureLook (K : Type) where
  name : String
  source : Option PixelSource
  mipmaps : List (Option PixelSource)
  sampler : Sampler
  transform : UvTransform K
  video : Bool
  version : Nat

def Texture.look (t : Texture K) (a : Arena) : TextureLook K where
  name := t.name
  source := a.sources[t.source]?
  mipmaps := t.mipmaps.map fun i => a.sources[i]?
  sampler := t.sampler
  transform := t.transform
  video := t.video
  version := t.version

namespace TextureLook

/-- A copy with another tiling. -/
def tiled (t : TextureLook K) (tiling : Vec2 K) : TextureLook K :=
  { t with transform := { t.transform with tiling := tiling }, version := 0 }

/-- A texture as a material with a tiling of its own, or none, maps it. -/
def mapped (t : TextureLook K) : Option (Vec2 K) → TextureLook K
  | none => t
  | some tiling => t.tiled tiling

end TextureLook

theorem IsMapping.look_eq {tiling : Option (Vec2 K)} {t map : Shared (Texture K)}
    (h : IsMapping tiling t map) (a : Arena) :
    map.value.look a = (t.value.look a).mapped tiling := by
  cases tiling with
  | none => rw [h]; rfl
  | some tiling =>
    obtain ⟨serial, hmap⟩ := h
    rw [hmap]
    rfl

/-- The source that a loader answers a path with. -/
def ImageLoader.source (loader : ImageLoader) (path : String) : PixelSource :=
  match loader.load path with
  | some image => (PixelSource.pending path).fill image
  | none => PixelSource.pending path

/-- The look of the texture that will be made of a description. -/
def TextureSpec.look [Scalar K] (spec : TextureSpec) (id assetDir : String)
    (loader : ImageLoader) : TextureLook K :=
  let source (path : String) := some (loader.source (AssetPath.join assetDir path))
  { name := id
    source := source spec.path
    mipmaps := (spec.mipmaps.take Texture.maxMipmaps).map source
    sampler := { addressU := .ofWrap spec.wrapS, addressV := .ofWrap spec.wrapT }
    transform := .standard
    video := spec.video
    version := 1 + (spec.mipmaps.take Texture.maxMipmaps).length }

namespace TextureRegistry

/-- Sources requested for some mip levels. -/
def levelSources (r : TextureRegistry K) (paths : List String) : List (Option PixelSource) :=
  paths.map fun path => some (r.loader.source (AssetPath.join r.assetDir path))

section Making

variable {r : TextureRegistry K} {a : Arena}

theorem pushMipmaps_look {t : Texture K} {look : TextureLook K} (paths : List String)
    (hroom : t.mipmaps.length + paths.length ≤ Texture.maxMipmaps) (ht : Lasts a t.look look) :
    ∃ t' requests a', pushMipmaps t paths (r, a) = (t', { r with requests := requests }, a') ∧
      a.Stays a' ∧ Lasts a' t'.look { look with
        mipmaps := look.mipmaps ++ r.levelSources paths
        version := look.version + paths.length } := by
  induction paths generalizing t look r a with
  | nil => exact ⟨t, r.requests, a, rfl, .refl a, by simpa [levelSources] using ht⟩
  | cons path rest ih =>
    rw [List.length_cons] at hroom
    have haccepts : t.acceptsMipmap = true := by
      unfold Texture.acceptsMipmap
      exact decide_eq_true (by omega)
    have hpush : t.pushMipmap a.sources.size =
        { t with mipmaps := t.mipmaps ++ [a.sources.size], version := t.version + 1 } := by
      rw [Texture.pushMipmap, if_pos haccepts]
      rfl
    have hstays := Arena.Stays.adding a (r.loader.source (AssetPath.join r.assetDir path))
    have hadded := Lasts.added a (r.loader.source (AssetPath.join r.assetDir path))
    have hpushed : Lasts (a.adding (r.loader.source (AssetPath.join r.assetDir path)))
        (t.pushMipmap a.sources.size).look { look with
          mipmaps := look.mipmaps ++ r.levelSources [path]
          version := look.version + 1 } := by
      intro b hb
      rw [hpush, ← ht b (hstays.trans hb)]
      simp [Texture.look, levelSources, hadded b hb]
    obtain ⟨t', requests, a', heq, hstays', ht'⟩ := ih
      (r := { r with
        requests := r.requests ++ [⟨AssetPath.join r.assetDir path, a.sources.size⟩] })
      (by rw [hpush, List.length_append, List.length_singleton]; omega) hpushed
    refine ⟨t', requests, a', heq, hstays.trans hstays', ?_⟩
    simpa [levelSources, Nat.add_assoc, Nat.add_comm 1] using ht'

/-- **A texture looks as its description says.** -/
theorem create_look [Scalar K] (id : String) (spec : TextureSpec) :
    ∃ t requests a', create (K := K) id spec (r, a) = (t, { r with requests := requests }, a') ∧
      a.Stays a' ∧ Lasts a' t.look (spec.look id r.assetDir r.loader) := by
  have hstays := Arena.Stays.adding a (r.loader.source (AssetPath.join r.assetDir spec.path))
  have hadded := Lasts.added a (r.loader.source (AssetPath.join r.assetDir spec.path))
  let bare : Texture K := {
    serial := a.next, name := id, source := a.sources.size, mipmaps := [],
    sampler := {}, transform := .standard, video := false, version := 0 }
  let plain := { bare.setWrap spec.wrapS spec.wrapT with video := spec.video }
  let first := a.adding (r.loader.source (AssetPath.join r.assetDir spec.path))
  have hplain : Lasts { first with next := first.next + 1 } plain.look
      { spec.look id r.assetDir r.loader with mipmaps := [], version := 1 } := by
    intro b hb
    have hsource := hadded b hb
    simp [plain, bare, Texture.look, Texture.setWrap, Texture.touch, TextureSpec.look, hsource]
  have hroom : plain.mipmaps.length + (spec.mipmaps.take Texture.maxMipmaps).length ≤
      Texture.maxMipmaps := by
    have hempty : plain.mipmaps.length = 0 := rfl
    rw [hempty, Nat.zero_add, List.length_take]
    exact Nat.min_le_left _ _
  obtain ⟨t, requests, a', heq, hstays', ht⟩ := pushMipmaps_look
    (r := { r with
      requests := r.requests ++ [⟨AssetPath.join r.assetDir spec.path, a.sources.size⟩] })
    (spec.mipmaps.take Texture.maxMipmaps) hroom hplain
  exact ⟨t, requests, a', heq, hstays.trans hstays', ht⟩

end Making

end TextureRegistry

/-! ## 3. Registries -/

/-- Whatever an identifier is asked for, now or later, its texture has a given look. -/
structure ShowsTextures [Scalar K] (texture : String → Option (TextureLook K))
    (s : TextureRegistry K × Arena) : Prop where
  kept : ∀ {id t}, s.1.handles.find? id = some t →
    ∃ look, texture id = some look ∧ Lasts s.2 t.value.look look
  unmade : ∀ {id}, s.1.handles.find? id = none →
    texture id = (s.1.records.find? id).map (·.look id s.1.assetDir s.1.loader)

/-- An optional texture has an optional look. -/
def TextureLasts (a : Arena) (t : Option (Shared (Texture K))) (look : Option (TextureLook K)) :
    Prop :=
  Lasts a (fun b => t.map (·.value.look b)) look

/-- The texture of an optional name, mapped with an optional tiling. -/
def lookOf (texture : String → Option (TextureLook K)) (id : Option String)
    (tiling : Option (Vec2 K)) : Option (TextureLook K) :=
  (id.bind texture).map (·.mapped tiling)

/-- A report of a name that has no texture. -/
def missingName (texture : String → Option (TextureLook K)) :
    Option String → List (Diagnostic K)
  | none => []
  | some id => if (texture id).isNone then [.missingTexture id] else []

namespace TextureLasts

variable {a b : Arena} {x : Option (Shared (Texture K))} {look : Option (TextureLook K)}

theorem mono (h : TextureLasts a x look) (hab : a.Stays b) : TextureLasts b x look :=
  Lasts.mono h hab

theorem look_eq (h : TextureLasts a x look) (hab : a.Stays b) :
    x.map (·.value.look b) = look :=
  h b hab

theorem isNone_eq (h : TextureLasts a x look) : x.isNone = look.isNone := by
  rw [← Lasts.eq h]
  cases x <;> rfl

theorem mapping {tiling : Option (Vec2 K)} {map : Option (Shared (Texture K))}
    (h : TextureLasts a x look) (hmap : Option.Rel (IsMapping tiling) x map) :
    TextureLasts a map (look.map (·.mapped tiling)) := by
  intro b hb
  rw [← h b hb]
  cases hmap with
  | none => rfl
  | some hmap => exact congrArg some (hmap.look_eq b)

end TextureLasts

section Registries

variable [Scalar K] {texture : String → Option (TextureLook K)} {s t : TextureRegistry K × Arena}

theorem ShowsTextures.mono {r : TextureRegistry K} {a b : Arena} (h : ShowsTextures texture (r, a))
    (hab : a.Stays b) : ShowsTextures texture (r, b) where
  kept ht := by
    obtain ⟨look, hlook, hlasts⟩ := h.kept ht
    exact ⟨look, hlook, hlasts.mono hab⟩
  unmade := h.unmade

/-- The names look as before, and all pixel sources are still there. -/
structure Showing (texture : String → Option (TextureLook K))
    (s t : TextureRegistry K × Arena) : Prop where
  shows : ShowsTextures texture t
  stays : s.2.Stays t.2

namespace Showing

theorem refl (h : ShowsTextures texture s) : Showing texture s s := ⟨h, .refl _⟩

theorem trans {u : TextureRegistry K × Arena} (h : Showing texture s t)
    (h' : Showing texture t u) : Showing texture s u :=
  ⟨h'.shows, h.stays.trans h'.stays⟩

/-- Taking numbers changes no look. -/
theorem arena {r : TextureRegistry K} {a b : Arena} (h : ShowsTextures texture (r, a))
    (hab : b.sources = a.sources) : Showing texture (r, a) (r, b) :=
  ⟨h.mono (.of_sources hab), .of_sources hab⟩

end Showing

namespace TextureRegistry

theorem showing_resolve (h : ShowsTextures texture s) (id : String) :
    Showing texture s (resolve id s).2 ∧
      TextureLasts (resolve id s).2.2 (resolve id s).1 (texture id) := by
  cases hfind : s.1.handles.find? id with
  | some t =>
    rw [resolve_handle hfind]
    obtain ⟨look, hlook, hlasts⟩ := h.kept hfind
    exact ⟨.refl h, hlook ▸ hlasts.map some⟩
  | none =>
    have hunmade := h.unmade hfind
    cases hrec : s.1.records.find? id with
    | none =>
      rw [resolve_unknown hfind hrec]
      rw [hrec] at hunmade
      exact ⟨.refl h, fun _ _ => hunmade.symm⟩
    | some spec =>
      rw [hrec, Option.map_some] at hunmade
      obtain ⟨t, requests, a, hcreate, hstays, hlasts⟩ :=
        create_look (r := s.1) (a := s.2) id spec
      obtain ⟨t', r', a', hcreate', heq⟩ := resolve_record hfind hrec
      obtain ⟨rfl, rfl, rfl⟩ : t = t' ∧ { s.1 with requests := requests } = r' ∧ a = a' := by
        rw [hcreate] at hcreate'
        cases hcreate'
        exact ⟨rfl, rfl, rfl⟩
      have hnext : a.Stays { a with next := a.next + 1 } := .of_sources rfl
      rw [heq]
      refine ⟨⟨⟨fun {id' x} hx => ?_, fun {id'} hnone => ?_⟩, hstays.trans hnext⟩, ?_⟩
      · have hx : (s.1.handles.insert id ⟨a.next, t⟩).find? id' = some x := hx
        rw [Table.find?_insert] at hx
        split at hx
        next heq =>
          cases hx
          exact ⟨_, heq ▸ hunmade, hlasts.mono hnext⟩
        next =>
          obtain ⟨look, hlook, hkept⟩ := h.kept hx
          exact ⟨look, hlook, hkept.mono (hstays.trans hnext)⟩
      · have hnone : (s.1.handles.insert id ⟨a.next, t⟩).find? id' = none := hnone
        rw [Table.find?_insert] at hnone
        split at hnone
        · cases hnone
        · exact h.unmade hnone
      · rw [hunmade]
        exact (hlasts.mono hnext).map some

end TextureRegistry

end Registries

/-! ## 4. Materials -/

/-- A shader without its maps. -/
def Shader.withoutMaps : Shader K → Shader K
  | .phong p => .phong { p with map := none, specularMap := none, bumpMap := none }
  | .unlit u => .unlit { u with map := none, specularMap := none }

structure MaterialLook (K : Type) where
  /-- The material without its maps and its serial number. -/
  plain : Material K
  map : Option (TextureLook K)
  specularMap : Option (TextureLook K)
  bumpMap : Option (TextureLook K)

def Material.look (m : Material K) (a : Arena) : MaterialLook K where
  plain := { m with serial := 0, shader := m.shader.withoutMaps }
  map := m.map.map (·.value.look a)
  specularMap := m.specularMap.map (·.value.look a)
  bumpMap := m.bumpMap.map (·.value.look a)

namespace Material

theorem look_setMap (m : Material K) (map : Option (Shared (Texture K))) (a : Arena) :
    (m.setMap map).look a = { m.look a with map := map.map (·.value.look a) } := by
  obtain ⟨serial, name, shader, side, wireframe, transparent, depthWrite, depthTest, tiling⟩ := m
  cases shader <;> rfl

end Material

namespace MaterialSpec

variable [Scalar K] {texture : String → Option (TextureLook K)} {s : TextureRegistry K × Arena}

/-- The look of the material that will be made of a description. -/
def look (m : MaterialSpec K) (texture : String → Option (TextureLook K)) : MaterialLook K where
  plain := m.made 0 none none none
  map := lookOf texture m.texture m.tiling
  specularMap := lookOf texture m.specularMap none
  bumpMap := if m.shading = .unlit then none else lookOf texture m.bumpMap none

/-- The names in a description that have no texture. -/
def missingNames (m : MaterialSpec K) (texture : String → Option (TextureLook K)) :
    List (Diagnostic K) :=
  missingName texture m.texture ++ missingName texture m.specularMap ++
    if m.shading = .unlit then [] else missingName texture m.bumpMap

theorem look_made (m : MaterialSpec K) (serial : Nat)
    (map specularMap bumpMap : Option (Shared (Texture K))) (a : Arena) :
    (m.made serial map specularMap bumpMap).look a = {
      plain := m.made 0 none none none
      map := map.map (·.value.look a)
      specularMap := specularMap.map (·.value.look a)
      bumpMap := if m.shading = .unlit then none else bumpMap.map (·.value.look a) } := by
  unfold made shaderOf
  cases m.shading <;> rfl

/-- A look-up resolves the name, may copy the texture, and reports if there is none. -/
theorem lookup_eq {id : String} {found : Option (Shared (Texture K))}
    {u : TextureRegistry K × Arena} (h : TextureRegistry.resolve id s = (found, u))
    (tiling : Option (Vec2 K)) :
    ∃ map b, lookup (some id) tiling s =
        ((map, if found.isNone then [.missingTexture id] else []), (u.1, b)) ∧
      b.sources = u.2.sources ∧ Option.Rel (IsMapping tiling) found map := by
  cases tiling with
  | none =>
    simp only [lookup, bind, StateT.bind, h]
    cases found with
    | none => exact ⟨none, _, rfl, rfl, .none⟩
    | some t => exact ⟨some t, _, rfl, rfl, .some rfl⟩
  | some tiling =>
    simp only [lookup, TextureRegistry.resolveTiled, bind, StateT.bind, h]
    cases found with
    | none => exact ⟨none, _, rfl, rfl, .none⟩
    | some t => exact ⟨_, _, rfl, rfl, .some ⟨u.2.next, rfl⟩⟩

theorem showing_lookup (h : ShowsTextures texture s) (id : Option String)
    (tiling : Option (Vec2 K)) :
    ∃ map t, lookup id tiling s = ((map, missingName texture id), t) ∧ Showing texture s t ∧
      TextureLasts t.2 map (lookOf texture id tiling) := by
  cases id with
  | none => exact ⟨none, s, rfl, .refl h, fun _ _ => rfl⟩
  | some id =>
    obtain ⟨found, u, hresolve⟩ : ∃ found u, TextureRegistry.resolve id s = (found, u) :=
      ⟨_, _, rfl⟩
    obtain ⟨hshowing, hlasts⟩ := TextureRegistry.showing_resolve h id
    rw [hresolve] at hshowing hlasts
    obtain ⟨map, b, heq, hsources, hmapping⟩ := lookup_eq hresolve tiling
    have hfaults : (if found.isNone then [.missingTexture id] else [] : List (Diagnostic K)) =
        missingName texture (some id) := by
      rw [hlasts.isNone_eq]
      rfl
    rw [hfaults] at heq
    exact ⟨map, (u.1, b), heq, hshowing.trans (.arena hshowing.shows hsources),
      (hlasts.mapping hmapping).mono (.of_sources hsources)⟩

theorem showing_shader (h : ShowsTextures texture s) (m : MaterialSpec K) :
    ∃ map specularMap bumpMap t, m.shader s =
        ((m.shaderOf map specularMap bumpMap, m.missingNames texture), t) ∧
      Showing texture s t ∧ TextureLasts t.2 map (lookOf texture m.texture m.tiling) ∧
      TextureLasts t.2 specularMap (lookOf texture m.specularMap none) ∧
      (m.shading ≠ .unlit → TextureLasts t.2 bumpMap (lookOf texture m.bumpMap none)) := by
  obtain ⟨map, s₁, h₁, hshow₁, hmap⟩ := showing_lookup h m.texture m.tiling
  obtain ⟨specular, s₂, h₂, hshow₂, hspecular⟩ := showing_lookup hshow₁.shows m.specularMap none
  cases hshading : m.shading with
  | unlit =>
    refine ⟨map, specular, none, s₂, ?_, hshow₁.trans hshow₂, hmap.mono hshow₂.stays, hspecular,
      fun hlit => absurd rfl hlit⟩
    simp only [shader, shaderOf, missingNames, hshading, bind, StateT.bind, h₁, h₂, if_true,
      List.append_nil]
    rfl
  | _ =>
    obtain ⟨bump, s₃, h₃, hshow₃, hbump⟩ := showing_lookup hshow₂.shows m.bumpMap none
    refine ⟨map, specular, bump, s₃, ?_, (hshow₁.trans hshow₂).trans hshow₃,
      hmap.mono (hshow₂.stays.trans hshow₃.stays), hspecular.mono hshow₃.stays, fun _ => hbump⟩
    simp only [shader, shaderOf, missingNames, hshading, bind, StateT.bind, h₁, h₂, h₃,
      reduceCtorEq, if_false]
    rfl

/-- **A material looks as its description says**, and all that is reported are the names in it that
    have no texture. -/
theorem showing_build (h : ShowsTextures texture s) (m : MaterialSpec K) :
    ∃ material t, m.build s = ((material, m.missingNames texture), t) ∧ Showing texture s t ∧
      Lasts t.2 material.look (m.look texture) := by
  obtain ⟨map, specular, bump, t, hshader, hshow, hmap, hspecular, hbump⟩ := showing_shader h m
  obtain ⟨shader, faults, t', hshader', hbuild⟩ := build_eq (s := s) m
  rw [hshader] at hshader'
  cases hshader'
  refine ⟨_, _, hbuild, hshow.trans (.arena hshow.shows rfl), fun b hb => ?_⟩
  have hb : t.2.Stays b := fun i source hi => hb i source hi
  refine (look_made m t.2.next map specular bump b).trans ?_
  rw [hmap.look_eq hb, hspecular.look_eq hb, look]
  congr 1
  split
  next => rfl
  next hlit => exact (hbump hlit).look_eq hb

end MaterialSpec

end SceneAssembly
