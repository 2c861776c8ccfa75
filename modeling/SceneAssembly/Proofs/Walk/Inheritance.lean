/-
  SceneAssembly/Proofs/Walk/Inheritance.lean
  ==========================================
  **Which material a surface has.**

  A surface has the material and the texture of the nearest elements on its
  chain that have one that exists (`effectiveRecord?`, `effectiveTexture?`),
  whatever else has been assembled before.

  What a walk hands down and keeps for later is compared with what the
  descriptions make at its end (`Fits`, `Sound`); since nothing that is there is
  ever changed, what holds with respect to the end holds all along.
-/
import Mathlib.Data.List.Forall2
import SceneAssembly.Proofs.Materials.Making
import SceneAssembly.Proofs.Walk.Growth
import SceneAssembly.Proofs.Walk.Places

namespace SceneAssembly

variable {K : Type} [Scalar K]

/-! ## 1. The nearest record and the nearest texture -/

namespace Document

/-- The description of a material that an element refers to, if it exists. -/
def recordOf? (d : Document K) (id : String) : Option (MaterialSpec K) :=
  (d.elements.find? id).bind fun e => e.material.bind d.materials.find?

def textureOf? (d : Document K) (u : TextureRegistry K × Arena) (id : String) :
    Option (Shared (Texture K)) :=
  (d.elements.find? id).bind fun e => e.texture.bind (resolved? u)

/-- The description that the nearest element of a chain refers to. -/
def effectiveRecord? (d : Document K) (chain : List String) : Option (MaterialSpec K) :=
  chain.findSome? d.recordOf?

/-- The texture that the nearest element of a chain refers to. -/
def effectiveTexture? (d : Document K) (u : TextureRegistry K × Arena) (chain : List String) :
    Option (Shared (Texture K)) :=
  chain.findSome? (d.textureOf? u)

section Chains

variable {d : Document K} {u : TextureRegistry K × Arena} {id : String} {e : Element K}

omit [Scalar K] in
theorem effectiveRecord?_cons (hid : d.elements.find? id = some e) (chain : List String) :
    d.effectiveRecord? (id :: chain) =
      (e.material.bind d.materials.find?).or (d.effectiveRecord? chain) := by
  have hown : d.recordOf? id = e.material.bind d.materials.find? := by
    simp only [recordOf?, hid, Option.bind_some]
  rw [effectiveRecord?, List.findSome?_cons, hown]
  cases e.material.bind d.materials.find? <;> rfl

theorem effectiveTexture?_cons (hid : d.elements.find? id = some e) (chain : List String) :
    d.effectiveTexture? u (id :: chain) =
      (e.texture.bind (resolved? u)).or (d.effectiveTexture? u chain) := by
  have hown : d.textureOf? u id = e.texture.bind (resolved? u) := by
    simp only [textureOf?, hid, Option.bind_some]
  rw [effectiveTexture?, List.findSome?_cons, hown]
  cases e.texture.bind (resolved? u) <;> rfl

end Chains

end Document

/-- The stand-in for a missing material. -/
def Settings.IsFallback (settings : Settings K) (m : Material K) : Prop :=
  ∃ a, m = (Material.fallback settings.fallbackColor a).1

/-- The material of a surface below a chain: made as the nearest record says, with the nearest
    texture if there is one, or with that of the record; without a record, a fallback. -/
def Wears (d : Document K) (u : TextureRegistry K × Arena) (IsFallback : Shared (Material K) → Prop)
    (chain : List String) (m : Shared (Material K)) : Prop :=
  match d.effectiveRecord? chain with
  | none => IsFallback m
  | some spec => spec.Makes u ((d.effectiveTexture? u chain).or (spec.ownTexture? u)) m.value

theorem Wears.mono {d : Document K} {u : TextureRegistry K × Arena}
    {IsFallback IsFallback' : Shared (Material K) → Prop} {chain : List String}
    {m : Shared (Material K)} (h : Wears d u IsFallback chain m)
    (hsame : ∀ m, IsFallback m → IsFallback' m) : Wears d u IsFallback' chain m := by
  unfold Wears at h ⊢
  cases hrecord : d.effectiveRecord? chain with
  | none =>
    rw [hrecord] at h
    exact hsame m h
  | some spec =>
    rw [hrecord] at h
    exact h

/-! ## 2. What is kept and what is handed down -/

def Progress.textures (p : Progress K) : TextureRegistry K × Arena := (p.registry, p.arena)

/-- The materials kept for later are those that their descriptions make in the end. -/
structure Sound (c : Setting K) (final p : Progress K) : Prop where
  materials : ∀ {id m}, p.materials.find? id = some m → ∃ spec,
    c.document.materials.find? id = some spec ∧
      spec.Makes final.textures (spec.ownTexture? final.textures) m.value
  fallback : ∀ {m}, p.fallback = some m → c.settings.IsFallback m.value

/-- A material handed down is made as the nearest record says, if there is one. -/
def FitsRecord (d : Document K) (u : TextureRegistry K × Arena) (path : List String)
    (m : Option (Shared (Material K))) : Prop :=
  Option.Rel (fun spec m => spec.Makes u (spec.ownTexture? u) m.value) (d.effectiveRecord? path) m

/-- What is handed down below a path is what the nearest elements refer to. -/
structure Fits (d : Document K) (u : TextureRegistry K × Arena) (path : List String)
    (inherited : Inherited K) : Prop where
  material : FitsRecord d u path inherited.material
  texture : inherited.texture = d.effectiveTexture? u path

/-- The one fallback that is kept in the end. -/
def IsKept (c : Setting K) (final : Progress K) (m : Shared (Material K)) : Prop :=
  final.fallback = some m ∧ c.settings.IsFallback m.value

section Sound

variable {c : Setting K} {final p q : Progress K}

theorem Sound.noting (h : Sound c final p) (ds : List (Diagnostic K)) :
    Sound c final (p.noting ds) :=
  ⟨h.materials, h.fallback⟩

theorem Sound.counting (h : Sound c final p) : Sound c final p.counting :=
  ⟨h.materials, h.fallback⟩

theorem Sound.plain (hp : Sound c final p) (h : p.Plain q) : Sound c final q where
  materials hm := hp.materials (h.materials_eq ▸ hm)
  fallback hm := hp.fallback (h.fallback_eq ▸ hm)

end Sound

namespace Walk

variable {c : Setting K} {final p q : Progress K} {e : Element K} {id : String}
  {path : List String} {inherited scope : Inherited K}

/-! ## 3. Entering an element -/

theorem materialOf_fits {m : Option (Shared (Material K))}
    (h : materialOf c e inherited p = (m, q)) (hq : q.Extends final) (hp : Sound c final p)
    (hid : c.document.elements.find? id = some e) (path : List String) :
    Sound c final q ∧ (FitsRecord c.document final.textures path inherited.material →
      FitsRecord c.document final.textures (id :: path) m) := by
  rw [FitsRecord, FitsRecord, Document.effectiveRecord?_cons hid]
  cases hmaterial : e.material with
  | none =>
    rw [materialOf_inherited hmaterial] at h
    cases h
    exact ⟨hp, fun hfits => hfits⟩
  | some key =>
    rw [Option.bind_some]
    cases hkept : p.materials.find? key with
    | some m' =>
      rw [materialOf_kept hmaterial hkept] at h
      cases h
      obtain ⟨spec, hspec, hmakes⟩ := hp.materials hkept
      rw [hspec]
      exact ⟨hp, fun _ => .some hmakes⟩
    | none =>
      cases hspec : c.document.materials.find? key with
      | none =>
        rw [materialOf_missing hmaterial hkept hspec] at h
        cases h
        exact ⟨hp.noting _, fun hfits => hfits⟩
      | some spec =>
        obtain ⟨m', faults, r, a, hbuild, heq⟩ :=
          materialOf_build inherited hmaterial hkept hspec
        rw [heq] at h
        cases h
        have hlater : (spec.build (p.registry, p.arena)).2.1.Extends final.textures.1 := by
          rw [hbuild]
          exact hq.registry
        have hmakes := MaterialSpec.Makes.build hlater
        rw [hbuild] at hmakes
        refine ⟨⟨fun {id' m} hm => ?_, hp.fallback⟩, fun _ => .some hmakes⟩
        have hm : (p.materials.insert key ⟨a.next, m'⟩).find? id' = some m := hm
        rw [Table.find?_insert] at hm
        split at hm
        next heq =>
          cases hm
          exact ⟨spec, heq ▸ hspec, hmakes⟩
        next => exact hp.materials hm

theorem lookupTexture_eq {key : String} {t : Option (Shared (Texture K))}
    (h : lookupTexture key p = (t, q)) :
    t = resolved? p.textures key ∧
      q.registry = (TextureRegistry.resolve key p.textures).2.1 := by
  obtain ⟨found, s, heq⟩ : ∃ found s, TextureRegistry.resolve key p.textures = (found, s) :=
    ⟨_, _, rfl⟩
  have hrun : onTextures (TextureRegistry.resolve key) p =
      (found, { p with registry := s.1, arena := s.2 }) := by
    show ((TextureRegistry.resolve key p.textures).1, _) = _
    rw [heq]
    show (found, { p with
      registry := (TextureRegistry.resolve key p.textures).2.1
      arena := (TextureRegistry.resolve key p.textures).2.2 }) = _
    rw [heq]
  simp only [lookupTexture, bind, StateT.bind, hrun] at h
  rw [resolved?, heq]
  cases found with
  | some t => cases h; exact ⟨rfl, rfl⟩
  | none => cases h; exact ⟨rfl, rfl⟩

theorem textureOf_eq {t : Option (Shared (Texture K))} (h : textureOf e inherited p = (t, q))
    (hq : q.Extends final) :
    t = (e.texture.bind (resolved? final.textures)).or inherited.texture := by
  cases htexture : e.texture with
  | none =>
    simp only [textureOf, htexture] at h
    cases h
    rfl
  | some key =>
    obtain ⟨found, q', hlookup⟩ : ∃ found q', lookupTexture key p = (found, q') := ⟨_, _, rfl⟩
    obtain ⟨rfl, hregistry⟩ := lookupTexture_eq hlookup
    have hsame : q = q' ∧ t = (resolved? p.textures key).or inherited.texture := by
      simp only [textureOf, htexture, bind, StateT.bind, hlookup] at h
      cases hfound : resolved? p.textures key with
      | some t' =>
        rw [hfound] at h
        cases h
        exact ⟨rfl, rfl⟩
      | none =>
        rw [hfound] at h
        cases h
        exact ⟨rfl, rfl⟩
    obtain ⟨rfl, rfl⟩ := hsame
    have hlater : (TextureRegistry.resolve key p.textures).2.1.Extends final.textures.1 := by
      rw [← hregistry]
      exact hq.registry
    have hstable : resolved? final.textures key = resolved? p.textures key :=
      TextureRegistry.resolve_stable hlater
    rw [Option.bind_some, hstable]

theorem Entered.fits {parent : Shared (Affine K)} {own : SceneNode K}
    (h : Entered c parent inherited path id p e scope own q) (hq : q.Extends final)
    (hp : Sound c final p) :
    Sound c final q ∧ (Fits c.document final.textures path inherited →
      Fits c.document final.textures (id :: path) scope) := by
  obtain ⟨p₂, a, hscope, hnext, rfl⟩ := h.scope_made
  obtain ⟨p₁, hmaterial, htexture, -, -⟩ := scopeOf_parts hscope
  have hplain₁ := plain_textureOf e inherited p₁
  rw [htexture] at hplain₁
  have hplain₂ : p₂.Plain { p₂.noting (TransformStep.faults e.transforms) with arena := a } :=
    (Progress.Plain.noting fun d => TransformStep.isReference_of_mem_faults).trans
      (Progress.Plain.arena hnext)
  have hfinal₂ : p₂.Extends final := hplain₂.toExtends.trans hq
  have hfinal₁ : p₁.Extends final := hplain₁.toExtends.trans hfinal₂
  obtain ⟨hsound, hrecord⟩ := materialOf_fits hmaterial hfinal₁ hp h.found path
  refine ⟨(hsound.plain hplain₁).plain hplain₂, fun hfits => ⟨hrecord hfits.material, ?_⟩⟩
  rw [Document.effectiveTexture?_cons h.found, textureOf_eq htexture hfinal₂, hfits.texture]

theorem levelScope_fits {own : Inherited K} (h : levelScope scope p = (own, q))
    (hfits : Fits c.document final.textures path scope) :
    Fits c.document final.textures path own := by
  obtain ⟨material, texture, cast, receive⟩ := scope
  cases material with
  | none => cases h; exact hfits
  | some m =>
    cases h
    refine ⟨?_, hfits.texture⟩
    have hrecord := hfits.material
    unfold FitsRecord at hrecord ⊢
    generalize c.document.effectiveRecord? path = record at hrecord ⊢
    cases hrecord with
    | some hmakes => exact .some (hmakes.withSerial _)

/-! ## 4. Surfaces -/

theorem fallbackMaterial_eq {m : Shared (Material K)} (h : fallbackMaterial c p = (m, q))
    (hp : Sound c final p) :
    Sound c final q ∧ q.fallback = some m ∧ c.settings.IsFallback m.value := by
  obtain ⟨arena, registry, library, materials, fallback, report⟩ := p
  cases fallback with
  | some m' => cases h; exact ⟨hp, rfl, hp.fallback rfl⟩
  | none =>
    cases h
    have hmade : c.settings.IsFallback (Material.fallback c.settings.fallbackColor arena).1 :=
      ⟨arena, rfl⟩
    exact ⟨⟨hp.materials, fun hm => by cases hm; exact hmade⟩, rfl, hmade⟩

/-- A surface with a texture of its own gets a duplicate of its material. -/
theorem surfaceMaterial_textured {m : Shared (Material K)} {t map : Shared (Texture K)} {b : Arena}
    {cast receive : Bool} (hmapped : ({ m.value with serial := p.arena.next }).mapped t
      { p.arena with next := p.arena.next + 1 } = (map, b)) :
    surfaceMaterial c ⟨some m, some t, cast, receive⟩ p =
      (⟨b.next, { m.value with serial := p.arena.next }.setMap (some map)⟩,
        { p with arena := { b with next := b.next + 1 } }) := by
  simp only [surfaceMaterial, onArena, bind, StateT.bind, Material.duplicate_eq,
    Material.attachMap_eq hmapped]
  rfl

theorem surfaceMaterial_sound {m : Shared (Material K)} (h : surfaceMaterial c scope p = (m, q))
    (hp : Sound c final p) : Sound c final q := by
  obtain ⟨material, texture, cast, receive⟩ := scope
  cases material with
  | none => exact (fallbackMaterial_eq h hp).1
  | some m' =>
    cases texture with
    | none => cases h; exact hp
    | some t =>
      rw [surfaceMaterial_textured rfl] at h
      cases h
      exact ⟨hp.materials, hp.fallback⟩

theorem surfaceMaterial_wears {m : Shared (Material K)} (h : surfaceMaterial c scope p = (m, q))
    (hq : q.Extends final) (hp : Sound c final p)
    (hfits : Fits c.document final.textures path scope) :
    Wears c.document final.textures
      (IsKept c final) path m := by
  obtain ⟨material, texture, cast, receive⟩ := scope
  obtain ⟨hrecord, htexture⟩ := hfits
  unfold FitsRecord at hrecord
  unfold Wears
  generalize c.document.effectiveRecord? path = record at hrecord ⊢
  cases hrecord with
  | none =>
    obtain ⟨-, hkept, hmade⟩ := fallbackMaterial_eq h hp
    exact ⟨hq.fallback hkept, hmade⟩
  | @some spec m' hmakes =>
    rw [← htexture]
    cases texture with
    | none => cases h; exact hmakes
    | some t =>
      obtain ⟨map, b, hmapped⟩ : ∃ map b, ({ m'.value with serial := p.arena.next }).mapped t
          { p.arena with next := p.arena.next + 1 } = (map, b) := ⟨_, _, rfl⟩
      have hmapping := Material.mapped_isMapping { m'.value with serial := p.arena.next } t
        { p.arena with next := p.arena.next + 1 }
      rw [hmapped, hmakes.mapRepeat_eq] at hmapping
      rw [surfaceMaterial_textured hmapped] at h
      cases h
      exact (hmakes.withSerial _).setMap hmapping

end Walk

/-! ## 5. Visits -/

/-- The node of a shape with a geometry has a mesh of this geometry, in the right material. -/
def Dressed (c : Setting K) (u : TextureRegistry K × Arena)
    (IsFallback : Shared (Material K) → Prop) (place : Place K) : Prop :=
  ∀ e shape g, c.document.elements.find? place.node.name = some e → e.kind = .primitive shape →
    (∀ file, shape ≠ .model file) → shape.build c.settings = .ok g →
    ∃ mesh, place.node.mesh = some mesh ∧ mesh.geometry.value = g ∧
      Wears c.document u IsFallback place.chain mesh.material

theorem Dressed.mono {c : Setting K} {u : TextureRegistry K × Arena}
    {IsFallback IsFallback' : Shared (Material K) → Prop} {place : Place K}
    (h : Dressed c u IsFallback place) (hsame : ∀ m, IsFallback m → IsFallback' m) :
    Dressed c u IsFallback' place := by
  intro e shape g hid hkind hmodel hbuild
  obtain ⟨mesh, hmesh, hg, hwears⟩ := h e shape g hid hkind hmodel hbuild
  exact ⟨mesh, hmesh, hg, hwears.mono hsame⟩

/-- Only the elements of shapes have anything to wear. -/
theorem dressed_of_kind {c : Setting K} {u : TextureRegistry K × Arena}
    {IsFallback : Shared (Material K) → Prop} {place : Place K} {id : String} {e : Element K}
    (hname : place.node.name = id) (hid : c.document.elements.find? id = some e)
    (hkind : ∀ shape, e.kind = .primitive shape → ∃ file, shape = .model file) :
    Dressed c u IsFallback place := by
  intro e' shape g hid' hshape hmodel _
  rw [hname, hid] at hid'
  obtain rfl := Option.some.inj hid'
  obtain ⟨file, rfl⟩ := hkind shape hshape
  exact absurd rfl (hmodel file)

namespace Walk

variable {c : Setting K} {final p q : Progress K}

/-- The materials that a walk makes for groups, levels and models are not kept. -/
theorem attachMesh_dressed {scope : Inherited K} {shape : ShapeSpec K} {n m : SceneNode K}
    (h : attachMesh c scope shape n p = (m, q)) (hq : q.Extends final) (hp : Sound c final p)
    (path : List String) :
    Sound c final q ∧ (Fits c.document final.textures path scope →
      ∀ g, shape.build c.settings = .ok g → ∃ mesh, m.mesh = some mesh ∧ mesh.geometry.value = g ∧
        Wears c.document final.textures (IsKept c final) path mesh.material) := by
  cases hbuild : shape.build c.settings with
  | error d =>
    rw [attachMesh, hbuild] at h
    cases h
    exact ⟨⟨hp.materials, hp.fallback⟩, fun _ g hg => by cases hg⟩
  | ok g =>
    obtain ⟨geometry, material, p', groups, rfl, hsurface, hgroups, rfl⟩ :=
      attachMesh_ok hbuild h
    have hplain := plain_groupMaterials shape p'
    rw [hgroups] at hplain
    have hfinal : p'.Extends final := hplain.toExtends.trans hq
    have hp' : Sound c final { p with arena := { p.arena with next := p.arena.next + 1 } } :=
      ⟨hp.materials, hp.fallback⟩
    have hsound := (surfaceMaterial_sound hsurface hp').plain hplain
    refine ⟨hsound, fun hfits g' hg => ?_⟩
    obtain rfl := Except.ok.inj hg
    exact ⟨_, rfl, rfl, surfaceMaterial_wears hsurface hfinal hp' hfits⟩

/-- Wherever what is handed down fits, the surfaces of a visit are dressed. -/
def DressedBelow (c : Setting K) (final : Progress K) (inherited : Inherited K)
    (path : List String) (id : String) (n : Option (SceneNode K)) : Prop :=
  Fits c.document final.textures path inherited →
    Holds c.document (Dressed c final.textures (IsKept c final)) path id n

/-- **The surfaces of a visit wear what their chains say**, provided that what is handed down and
    kept is right with respect to the end of the walk. -/
theorem dressed_visit (c : Setting K) (final : Progress K) (parent : Shared (Affine K))
    (inherited : Inherited K) (path : List String) (id : String) (p : Progress K)
    (hfinal : (visit c parent inherited path id p).2.Extends final) (hp : Sound c final p) :
    Sound c final (visit c parent inherited path id p).2 ∧
      DressedBelow c final inherited path id (visit c parent inherited path id p).1 := by
  refine visit_induction (P := fun _ inherited path id p n q =>
      q.Extends final → Sound c final p →
        Sound c final q ∧ DressedBelow c final inherited path id n)
    ?leftOut ?group ?primitive ?light ?lod parent inherited path id p hfinal hp
  case leftOut =>
    intro _ inherited path id p q d _ hq hfinal hp
    have hsound : Sound c final q := by
      rcases hq with rfl | ⟨e, scope, own, hentered⟩
      · exact hp
      · exact (hentered.fits (((Progress.Extends.refl q).noting [d]).trans hfinal) hp).1
    exact ⟨hsound.noting [d], fun _ => .none⟩
  case group =>
    intro _ inherited path id p e scope own q children built r hentered hkind hsteps hfinal hp
    have hr : r.Extends final := hfinal.of_counting
    have hq : q.Extends final :=
      (hsteps.lift (G := Progress.Extends) .refl .trans fun _ _ _ _ h =>
        extends_of_visit h.1).trans hr
    obtain ⟨hsound, hfits⟩ := hentered.fits hq hp
    obtain ⟨hend, hbelow⟩ := hsteps.bounded (B := fun p => p.Extends final) (I := Sound c final)
      (J := fun id' n => DressedBelow c final scope (id :: path) id' n)
      (fun _ _ _ _ h hq' => (extends_of_visit h.1).trans hq')
      (fun _ _ _ _ h hq' hp' => h.2 hq' hp') hr hsound
    refine ⟨hend.counting, fun hinherited => ?_⟩
    have hbelow := hentered.branches_group (hbelow.imp fun _ _ h => h (hfits hinherited))
    refine .branches hentered.own_name ?_ hbelow
    exact dressed_of_kind hentered.own_name hentered.found (by simp [hkind])
  case primitive =>
    intro _ inherited path id p e scope own q shape n r hentered hkind hattach hfinal hp
    have hr : r.Extends final := hfinal.of_counting
    have hworks := works_attachShape c scope shape own q
    rw [hattach] at hworks
    obtain ⟨hsound, hfits⟩ := hentered.fits (hworks.toExtends.trans hr) hp
    obtain ⟨hname, hleaf⟩ := hentered.attached hkind hattach
    by_cases hmodel : ∃ file, shape = .model file
    · obtain ⟨file, rfl⟩ := hmodel
      have hplain := plain_attachModel c scope file own q
      have hattach : attachModel c scope file own q = (n, r) := hattach
      rw [hattach] at hplain
      have hend := hsound.plain hplain
      refine ⟨hend.counting, fun _ => ?_⟩
      refine .single hname ?_ hleaf
      refine dressed_of_kind hname hentered.found ?_
      intro shape hshape
      rw [hkind] at hshape
      cases hshape
      exact ⟨file, rfl⟩
    · rw [attachShape_of_ne_model fun file h => hmodel ⟨file, h⟩] at hattach
      obtain ⟨hend, hwears⟩ := attachMesh_dressed hattach hr hsound (id :: path)
      refine ⟨hend.counting, fun hinherited => ?_⟩
      refine .single hname ?_ hleaf
      intro e' shape' g hid' hshape _ hbuild
      have hid : c.document.elements.find? n.name = some e' := hid'
      rw [hname, hentered.found] at hid
      obtain rfl := Option.some.inj hid
      rw [hkind] at hshape
      cases hshape
      exact hwears (hfits hinherited) g hbuild
  case light =>
    intro _ inherited path id p e scope own q spec n r hentered hkind hattach hfinal hp
    have hr : r.Extends final := hfinal.of_counting
    have hplain := plain_attachLight spec own q
    rw [hattach] at hplain
    obtain ⟨hsound, -⟩ := hentered.fits (hplain.toExtends.trans hr) hp
    have hend := hsound.plain hplain
    refine ⟨hend.counting, fun _ => ?_⟩
    obtain ⟨light, rfl⟩ := attachLight_eq hattach
    refine .single hentered.own_name ?_ (.inl hentered.own_branches)
    exact dressed_of_kind hentered.own_name hentered.found (by simp [hkind])
  case lod =>
    intro _ inherited path id p e scope own q levels built r hentered hkind hsteps hfinal hp
    have hr : r.Extends final := hfinal.of_counting
    have hextends : ∀ level p l q, LevelVisit (fun scope' id' p' n q' =>
        visit c own.world scope' (id :: path) id' p' = (n, q') ∧
          (q'.Extends final → Sound c final p' → Sound c final q' ∧
            DressedBelow c final scope' (id :: path) id' n)) scope level p l q → p.Extends q :=
      fun _ _ _ _ h => h.extends fun _ _ _ _ _ hvisit => extends_of_visit hvisit.1
    have hq : q.Extends final := (hsteps.lift .refl .trans hextends).trans hr
    obtain ⟨hsound, hfits⟩ := hentered.fits hq hp
    obtain ⟨hend, hbelow⟩ := hsteps.bounded (B := fun p => p.Extends final) (I := Sound c final)
      (J := fun level l =>
        DressedBelow c final scope (id :: path) level.target (l.map Level.node))
      (fun level p l q h hq' => (hextends level p l q h).trans hq')
      (fun level p l q h hq' hp' => by
        obtain ⟨own', p', hscope, hplain, -, hholds⟩ := h.parts
        obtain ⟨hend, hholds⟩ := hholds hq' (hp'.plain hplain)
        exact ⟨hend, fun hscopeFits => hholds (levelScope_fits hscope hscopeFits)⟩) hr hsound
    refine ⟨hend.counting, fun hinherited => ?_⟩
    have hbelow := hentered.branches_lod (hbelow.imp fun _ _ h => h (hfits hinherited))
    refine .branches hentered.own_name ?_ hbelow
    exact dressed_of_kind hentered.own_name hentered.found (by simp [hkind])

end Walk

end SceneAssembly
