/-
  SceneAssembly/Proofs/Walk/Surfaces.lean
  =======================================
  **The surfaces of an assembled scene.**

  Each surface wears what its chain of elements says, read off the document and
  the textures that the assembly leaves behind; the surfaces without a record
  share one fallback (`dressed_scene`).  To dress them no object was changed
  that something else could hold (`keepsObjects_scene`).
-/
import SceneAssembly.Proofs.Walk.Identity
import SceneAssembly.Proofs.Walk.Inheritance
import SceneAssembly.Proofs.Walk.Unfolding

namespace SceneAssembly

variable {K : Type}

/-- No object of a scene was changed while something held it: materials of one number are one
    material, and a map with the number of a texture of the registry is that texture. -/
structure Scene.KeepsObjects (scene : Scene K) (c : Setting K) (r : TextureRegistry K) : Prop where
  materials : ∀ {place place' m m'}, scene.HasPlace c place → scene.HasPlace c place' →
    m ∈ place.node.materials → m' ∈ place'.node.materials → m.id = m'.id → m = m'
  textures : ∀ {place m map id t}, scene.HasPlace c place → m ∈ place.node.materials →
    map ∈ m.value.maps → r.handles.find? id = some t → map.id = t.id → map = t

variable [Scalar K]

theorem Settings.IsFallback.maps_eq_nil {settings : Settings K} {m : Material K}
    (h : settings.IsFallback m) : m.maps = [] := by
  obtain ⟨a, rfl⟩ := h
  rfl

section Scenes

variable {settings : Settings K} {d : Document K} {w w' : Workshop K} {scene : Scene K}

theorem sound_start (c : Setting K) (final : Progress K) (w : Workshop K) :
    Sound c final w.start where
  materials hm := by cases hm
  fallback hm := by cases hm

omit [Scalar K] in
theorem ListsTextures.start {L : Ledger K} (h : ListsTextures L (w.registry, w.arena))
    (hnumbers : w.library.KeepsNumbers) : Lists L w.start where
  textures := ⟨h.free.mono (Nat.le_succ _), h.handles⟩
  materials id m hm := by cases hm
  fallback m hm := by cases hm
  numbers := hnumbers

/-- One fallback is enough for the whole scene. -/
theorem exists_fallback {final : Progress K} (h : Sound ⟨d, settings⟩ final final) :
    ∃ fallback : Shared (Material K), settings.IsFallback fallback.value ∧
      ∀ m, IsKept ⟨d, settings⟩ final m → m = fallback := by
  cases hkept : final.fallback with
  | some m =>
    refine ⟨m, h.fallback hkept, ?_⟩
    rintro m' ⟨hm', -⟩
    exact Option.some.inj (hm'.symm.trans hkept)
  | none =>
    refine ⟨⟨0, (Material.fallback settings.fallbackColor .empty).1⟩, ⟨.empty, rfl⟩, ?_⟩
    rintro m' ⟨hm', -⟩
    rw [hkept] at hm'
    cases hm'

theorem dressed_scene (h : assemble settings d w = (.ok scene, w')) :
    ∃ fallback : Shared (Material K), settings.IsFallback fallback.value ∧
      ∀ place, scene.HasPlace ⟨d, settings⟩ place →
        Dressed ⟨d, settings⟩ (w'.registry, w'.arena) (· = fallback) place := by
  obtain ⟨n, q, root, hvisit, -⟩ := visit_of_assemble h
  have hfits : Fits d q.textures [] (.nothing : Inherited K) := ⟨.none, rfl⟩
  have hdressed := Walk.dressed_visit ⟨d, settings⟩ q ⟨w.arena.next, Affine.identity⟩ .nothing []
    d.rootId w.start
  rw [hvisit] at hdressed
  obtain ⟨hend, hholds⟩ := hdressed (.refl q) (sound_start ⟨d, settings⟩ q w)
  obtain ⟨fallback, hfallback, hone⟩ := exists_fallback hend
  refine ⟨fallback, hfallback, fun place hplace => ?_⟩
  obtain ⟨q', hroot, -, hregistry, harena⟩ := visit_root h hplace.1
  rw [hvisit] at hroot
  cases hroot
  have htextures : (w'.registry, w'.arena) = q.textures := by
    rw [hregistry, harena]
    rfl
  rw [htextures]
  exact ((hholds hfits scene.root rfl).2 place hplace.2).mono hone

theorem extends_registry (h : assemble settings d w = (.ok scene, w')) :
    w.registry.Extends w'.registry := by
  obtain ⟨n, q, root, hvisit, -, hregistry, -⟩ := visit_of_assemble h
  rw [hregistry]
  exact (Walk.extends_of_visit hvisit).registry

/-- A workshop stays in order, and so does what is made in it. -/
theorem keepsObjects_scene (h : assemble settings d w = (.ok scene, w'))
    (horder : w.registry.InOrder w.arena) (hnumbers : w.library.KeepsNumbers) :
    w'.registry.InOrder w'.arena ∧ scene.KeepsObjects ⟨d, settings⟩ w'.registry := by
  obtain ⟨n, q, root, hvisit, -, hregistry, hnext, -⟩ := visit_of_assemble h
  obtain ⟨L, hL⟩ := horder.exists_ledger
  obtain ⟨L', -, hend, hholds⟩ := Walk.records_visit ⟨d, settings⟩ ⟨w.arena.next, Affine.identity⟩
    .nothing [] d.rootId w.start L (hL.start hnumbers) Ledger.hasInherited_nothing
  rw [hvisit] at hend hholds
  have hend' : ListsTextures L' (w'.registry, w'.arena) := by
    rw [hregistry]
    exact ⟨hend.textures.free.mono hnext, hend.textures.handles⟩
  have hplaces : ∀ place, scene.HasPlace ⟨d, settings⟩ place → L'.HasNode place.node := by
    intro place hplace
    obtain ⟨q', hroot, -⟩ := visit_root h hplace.1
    rw [hvisit] at hroot
    cases hroot
    exact (hholds scene.root rfl).2 place hplace.2
  refine ⟨hend'.inOrder, ?_, ?_⟩
  · intro place place' m m' hplace hplace' hm hm' hid
    exact (hplaces place hplace m hm).eq_of_id (hplaces place' hplace' m' hm') hid
  · intro place m map id t hplace hm hmap ht hid
    exact ((hplaces place hplace m hm).maps map hmap).eq_of_id (hend'.handles id t ht) hid

end Scenes

/-- **What the surfaces of a scene are made of.**  Every surface has the material that the nearest
    element on its chain refers to, with the texture that the nearest element refers to, or else one
    untextured fallback; and no texture or material is changed once something else may hold it. -/
theorem surfaces_wear (settings : Settings K) (d : Document K) (w : Workshop K)
    (hroot : d.elements.contains d.rootId) :
    ∃ scene w', assemble settings d w = (.ok scene, w') ∧
      (∃ fallback : Shared (Material K), settings.IsFallback fallback.value ∧
        fallback.value.maps = [] ∧
        ∀ place, scene.HasPlace ⟨d, settings⟩ place →
          Dressed ⟨d, settings⟩ (w'.registry, w'.arena) (· = fallback) place) ∧
      w.registry.Extends w'.registry ∧
      (w.registry.InOrder w.arena → w.library.KeepsNumbers →
        w'.registry.InOrder w'.arena ∧ scene.KeepsObjects ⟨d, settings⟩ w'.registry) := by
  obtain ⟨scene, w', hscene⟩ := exists_scene settings w hroot
  obtain ⟨fallback, hfallback, hdressed⟩ := dressed_scene hscene
  exact ⟨scene, w', hscene, ⟨fallback, hfallback, hfallback.maps_eq_nil, hdressed⟩,
    extends_registry hscene, keepsObjects_scene hscene⟩

/-- A sphere as a level of detail, with a texture of its own, a material that does not exist, and a
    root that has one. -/
def Document.dyed : Document Float32 :=
  ((((Document.ofRoot "root").addElement
    { Element.ofKind "root" (.lod [⟨"ball", 0⟩]) with material := some "paint" }).addElement
    { Element.ofKind "ball" (.primitive (.sphere .standard)) with
      material := some "ghost", texture := some "cloth" }).addMaterial "paint" .standard).addTexture
    { TextureSpec.standard with id := "cloth", path := "cloth.png" }

theorem surfaces_wear_dyed :
    Document.dyed.elements.contains Document.dyed.rootId ∧
    (TextureRegistry.ofRecords Document.dyed.textures "." .placeholder :
      TextureRegistry Float32).InOrder .empty ∧
    (ModelLibrary.empty : ModelLibrary Float32).KeepsNumbers ∧
    ∃ scene w' ball mesh cloth, assemble .standard Document.dyed
        ⟨.empty, .ofRecords Document.dyed.textures "." .placeholder, .empty⟩ = (.ok scene, w') ∧
      scene.HasPlace ⟨Document.dyed, .standard⟩ ⟨["ball", "root"], ball⟩ ∧
      ball.mesh = some mesh ∧ resolved? (w'.registry, w'.arena) "cloth" = some cloth ∧
      mesh.material.value.map = some cloth ∧
      scene.KeepsObjects ⟨Document.dyed, .standard⟩ w'.registry := by
  have hroot : Document.dyed.elements.contains Document.dyed.rootId := rfl
  have horder := TextureRegistry.InOrder.ofRecords (K := Float32) Document.dyed.textures "."
    .placeholder .empty
  have hnumbers : (ModelLibrary.empty : ModelLibrary Float32).KeepsNumbers := by
    intro load hload
    cases hload
  obtain ⟨scene, w', hscene, ⟨fallback, -, -, hdressed⟩, hregistry, hkeeps⟩ :=
    surfaces_wear .standard Document.dyed
      ⟨.empty, .ofRecords Document.dyed.textures "." .placeholder, .empty⟩ hroot
  -- The tree is known from the unfolding: a root with one level.
  have hball : unfold ⟨Document.dyed, .standard⟩ ["root"] "ball" = .leaf "ball" :=
    unfold_kind (e := { Element.ofKind "ball" (.primitive (.sphere .standard)) with
      material := some "ghost", texture := some "cloth" }) rfl rfl
  have hunfold : unfold ⟨Document.dyed, .standard⟩ [] Document.dyed.rootId =
      .lod "root" [⟨0, .leaf "ball"⟩] := by
    rw [← hball]
    exact unfold_kind (e := { Element.ofKind "root" (.lod [⟨"ball", 0⟩]) with
      material := some "paint" }) rfl rfl
  have hrealizes := realizes_root hscene rfl
  rw [hunfold] at hrealizes
  obtain ⟨ball, hname, hmem⟩ : ∃ ball : SceneNode Float32, ball.name = "ball" ∧
      ball ∈ scene.root.branches := by
    cases hrealizes with
    | lod hname hlod hbelow hlevels hchildren =>
      cases hbelow with
      | cons hfirst hrest =>
        cases hrest
        cases hfirst with
        | leaf hname _ _ =>
          refine ⟨_, hname, ?_⟩
          have hlevel := hlevels.mem_iff.mpr (List.mem_singleton_self _)
          simp only [SceneNode.branches, SceneNode.levels, hlod]
          exact List.mem_append_right _ (List.mem_map_of_mem hlevel)
  have hrootName : scene.root.name = "root" := by
    cases hrealizes with
    | lod hname => exact hname
  have hbelow : Below Document.dyed ⟨["root"], scene.root⟩ ⟨["ball", "root"], ball⟩ := by
    rw [← hname]
    refine .intro ?_ hmem
    rw [hrootName]
    exact not_isModel (e := { Element.ofKind "root" (.lod [⟨"ball", 0⟩]) with
      material := some "paint" }) rfl (by simp [Element.ofKind])
  have hplace : scene.HasPlace ⟨Document.dyed, .standard⟩ ⟨["ball", "root"], ball⟩ :=
    ⟨rfl, .single hbelow⟩
  obtain ⟨cloth, hcloth⟩ : ∃ cloth, resolved? (w'.registry, w'.arena) "cloth" = some cloth := by
    rw [← Option.isSome_iff_exists]
    have hknown := TextureRegistry.isSome_resolve (s := (w'.registry, w'.arena)) "cloth"
    rw [hregistry.knows_eq] at hknown
    exact hknown
  obtain ⟨mesh, hmesh, -, hwears⟩ := hdressed _ hplace
    { Element.ofKind "ball" (.primitive (.sphere .standard)) with
      material := some "ghost", texture := some "cloth" } (.sphere .standard) _
    (by rw [hname]; rfl) rfl (by simp) rfl
  have htexture : Document.dyed.effectiveTexture? (w'.registry, w'.arena) ["ball", "root"] =
      some cloth := by
    rw [Document.effectiveTexture?_cons rfl, Option.bind_some, hcloth]
    rfl
  have hrecord : Document.dyed.effectiveRecord? ["ball", "root"] =
      some { MaterialSpec.standard with id := "paint" } := rfl
  simp only [Wears, hrecord, htexture, Option.some_or] at hwears
  exact ⟨hroot, horder, hnumbers, scene, w', ball, mesh, cloth, hscene, hplace, hmesh, hcloth,
    eq_of_rel_isMapping_none hwears.map_isMapping, (hkeeps horder hnumbers).2⟩

end SceneAssembly
