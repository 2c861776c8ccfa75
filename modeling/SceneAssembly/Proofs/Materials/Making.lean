/-
  SceneAssembly/Proofs/Materials/Making.lean
  ==========================================
  **Materials that are made as a description says.**

  A material is compared with the one that its description builds at some fixed
  time, say the end of an assembly (`Makes`): they agree in everything but the
  serial number and the colour map, and the colour map is the given texture as
  the description maps it.  A built material is made so with the texture of its
  description; a duplicate still is; and attaching another texture gives one
  that is made with that texture.
-/
import SceneAssembly.Proofs.Materials.Building

namespace SceneAssembly

variable {K : Type}

/-! ## 1. Changing the colour map -/

namespace Material

theorem setMap_setMap (m : Material K) (map map' : Option (Shared (Texture K))) :
    (m.setMap map).setMap map' = m.setMap map' := by
  unfold setMap
  cases m.shader <;> rfl

@[simp] theorem map_setMap (m : Material K) (map : Option (Shared (Texture K))) :
    (m.setMap map).map = map := by
  unfold setMap Material.map
  cases m.shader <;> rfl

theorem mapped_isMapping (m : Material K) (t : Shared (Texture K)) (a : Arena) :
    IsMapping m.mapRepeat t (m.mapped t a).1 := by
  unfold mapped
  cases m.mapRepeat with
  | none => rfl
  | some tiling => exact ⟨a.next, rfl⟩

theorem mapped_next (m : Material K) (t : Shared (Texture K)) (a : Arena) :
    a.next ≤ (m.mapped t a).2.next := by
  unfold mapped
  cases m.mapRepeat with
  | none => exact Nat.le_refl _
  | some tiling => exact Nat.le_add_right _ 2

theorem duplicate_eq (m : Material K) (a : Arena) :
    m.duplicate a = ({ m with serial := a.next }, { a with next := a.next + 1 }) :=
  rfl

theorem attachMap_eq {m : Material K} {t map : Shared (Texture K)} {a b : Arena}
    (h : m.mapped t a = (map, b)) : m.attachMap t a = (m.setMap (some map), b) := by
  simp only [attachMap, bind, StateT.bind, h]
  rfl

end Material

/-! ## 2. Making -/

variable [Scalar K]

def resolved? (u : TextureRegistry K × Arena) (id : String) : Option (Shared (Texture K)) :=
  (TextureRegistry.resolve id u).1

namespace MaterialSpec

/-- The texture that a description names for its colour map. -/
def ownTexture? (spec : MaterialSpec K) (u : TextureRegistry K × Arena) :
    Option (Shared (Texture K)) :=
  spec.texture.bind (resolved? u)

/-- A material is the one that its description builds, but for its serial number and with a given
    texture mapped as its colour map. -/
def Makes (spec : MaterialSpec K) (u : TextureRegistry K × Arena)
    (base : Option (Shared (Texture K))) (m : Material K) : Prop :=
  ∃ map, Option.Rel (IsMapping spec.tiling) base map ∧
    m = { (spec.build u).1.1.setMap map with serial := m.serial }

namespace Makes

variable {spec : MaterialSpec K} {u s : TextureRegistry K × Arena}
  {base : Option (Shared (Texture K))} {m : Material K}

theorem map_isMapping (h : Makes spec u base m) :
    Option.Rel (IsMapping spec.tiling) base m.map := by
  obtain ⟨map, hmap, hm⟩ := h
  have hmap' : m.map = map := by
    rw [hm]
    exact Material.map_setMap (spec.build u).1.1 map
  rwa [hmap']

theorem mapRepeat_eq (h : Makes spec u base m) : m.mapRepeat = spec.tiling := by
  obtain ⟨map, -, hm⟩ := h
  rw [hm]
  exact build_mapRepeat (s := u) spec

/-- What is kept of the texture that a description names is what the name resolves to. -/
theorem named?_of_build {r : TextureRegistry K} (h : (spec.build s).2.1.Extends r) :
    r.named? spec.texture = spec.ownTexture? s := by
  have hlookup : (lookup spec.texture spec.tiling s).2.1.Extends r :=
    (growth_build_of_lookup spec).registry.trans h
  unfold ownTexture? TextureRegistry.named?
  cases htexture : spec.texture with
  | none => rfl
  | some id =>
    rw [htexture, (lookup_some id spec.tiling).1] at hlookup
    exact (TextureRegistry.resolve_eq_of_extends hlookup).1.symm

theorem build (h : (spec.build s).2.1.Extends u.1) :
    Makes spec u (spec.ownTexture? u) (spec.build s).1.1 := by
  have hlater : u.1.Extends (spec.build u).2.1 := (growth_build spec).registry
  obtain ⟨serial, map, hmap, hmade⟩ := build_eq_made (s := s) spec (h.trans hlater)
  obtain ⟨serial', map', -, hmade'⟩ := build_eq_made (s := u) spec (.refl (spec.build u).2.1)
  rw [named?_of_build (s := u) (.refl _)] at hmap
  refine ⟨map, hmap, ?_⟩
  rw [hmade', setMap_made, hmade]
  rfl

theorem withSerial (h : Makes spec u base m) (serial : Nat) :
    Makes spec u base { m with serial := serial } := by
  obtain ⟨map, hmap, hm⟩ := h
  refine ⟨map, hmap, ?_⟩
  rw [hm]

theorem setMap (h : Makes spec u base m) {t map : Shared (Texture K)}
    (hmap : IsMapping spec.tiling t map) : Makes spec u (some t) (m.setMap (some map)) := by
  obtain ⟨map', -, hm⟩ := h
  refine ⟨some map, .some hmap, ?_⟩
  have hset : ∀ serial,
      ({ (spec.build u).1.1.setMap map' with serial := serial }).setMap (some map) =
        { (spec.build u).1.1.setMap (some map) with serial := serial } := by
    intro serial
    rw [← Material.setMap_setMap (spec.build u).1.1 map' (some map)]
    rfl
  rw [hm, hset]

end Makes

end MaterialSpec

end SceneAssembly
