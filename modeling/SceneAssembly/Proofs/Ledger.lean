/-
  SceneAssembly/Proofs/Ledger.lean
  ================================
  **No shared object is ever changed.**

  Objects are told apart by their numbers, so an object that was changed would
  show up as two values with one number.  A ledger writes down, number by number,
  the materials and textures that have been made.  It can always be continued,
  since an arena only hands out numbers that are still free (`Ledger.Extends`,
  `Ledger.FreeFrom`), and one number never gets two entries.

  `Records` is the law of an action that makes objects: whatever ledger is right
  before it can be continued to one that is right after it and has what the
  action returns.
-/
import SceneAssembly.Proofs.Materials.Building

namespace SceneAssembly

variable {K : Type}

def Shader.maps : Shader K → List (Shared (Texture K))
  | .phong p => p.map.toList ++ p.specularMap.toList ++ p.bumpMap.toList
  | .unlit u => u.map.toList ++ u.specularMap.toList

def Material.maps (m : Material K) : List (Shared (Texture K)) := m.shader.maps

/-! ## 1. Ledgers -/

/-- What has been made under a number: a material, a texture of the registry, or a copy of one. -/
inductive LedgerEntry (K : Type) where
  | material (m : Material K)
  | registered (t : Texture K)
  | copy (t : Texture K)

abbrev Ledger (K : Type) := Nat → Option (LedgerEntry K)

namespace Ledger

variable {L L' L'' : Ledger K} {k n : Nat} {x : LedgerEntry K}

def Extends (L L' : Ledger K) : Prop := ∀ k x, L k = some x → L' k = some x

def FreeFrom (L : Ledger K) (n : Nat) : Prop := ∀ k, n ≤ k → L k = none

def enter (L : Ledger K) (k : Nat) (x : LedgerEntry K) : Ledger K :=
  fun k' => if k' = k then some x else L k'

theorem Extends.refl (L : Ledger K) : Extends L L := fun _ _ h => h

theorem Extends.trans (h : Extends L L') (h' : Extends L' L'') : Extends L L'' :=
  fun k x hk => h' k x (h k x hk)

@[simp] theorem enter_self : L.enter k x k = some x := if_pos rfl

theorem FreeFrom.extends_enter (h : L.FreeFrom n) (hk : n ≤ k) : L.Extends (L.enter k x) := by
  intro k' x' hx
  have hne : k' ≠ k := by
    rintro rfl
    rw [h k' hk] at hx
    cases hx
  rwa [enter, if_neg hne]

theorem FreeFrom.enter (h : L.FreeFrom n) (hk : k < n + 1) : (L.enter k x).FreeFrom (n + 1) := by
  intro k' hk'
  have hne : k' ≠ k := by omega
  rw [Ledger.enter, if_neg hne]
  exact h k' (by omega)

theorem FreeFrom.mono {n' : Nat} (h : L.FreeFrom n) (hn : n ≤ n') : L.FreeFrom n' :=
  fun k hk => h k (Nat.le_trans hn hk)

/-- A texture is in a ledger. -/
def HasTexture (L : Ledger K) (t : Shared (Texture K)) : Prop :=
  L t.id = some (.registered t.value) ∨ L t.id = some (.copy t.value)

def HasMaps (L : Ledger K) (m : Material K) : Prop := ∀ t ∈ m.maps, L.HasTexture t

/-- A material is in a ledger, and so are its textures. -/
structure HasMaterial (L : Ledger K) (m : Shared (Material K)) : Prop where
  entry : L m.id = some (.material m.value)
  maps : L.HasMaps m.value

theorem HasTexture.mono {t : Shared (Texture K)} (h : L.HasTexture t) (hL : L.Extends L') :
    L'.HasTexture t :=
  h.imp (hL _ _) (hL _ _)

theorem HasMaps.mono {m : Material K} (h : L.HasMaps m) (hL : L.Extends L') : L'.HasMaps m :=
  fun t ht => (h t ht).mono hL

theorem HasMaterial.mono {m : Shared (Material K)} (h : L.HasMaterial m) (hL : L.Extends L') :
    L'.HasMaterial m :=
  ⟨hL _ _ h.entry, h.maps.mono hL⟩

theorem HasMaterial.eq_of_id {m m' : Shared (Material K)} (h : L.HasMaterial m)
    (h' : L.HasMaterial m') (hid : m.id = m'.id) : m = m' := by
  obtain ⟨id, value⟩ := m
  obtain ⟨id', value'⟩ := m'
  obtain rfl : id = id' := hid
  have hvalue := h.entry.symm.trans h'.entry
  cases hvalue
  rfl

/-- A texture with the number of one of the registry is that one. -/
theorem HasTexture.eq_of_id {t t' : Shared (Texture K)} (h : L.HasTexture t)
    (h' : L t'.id = some (.registered t'.value)) (hid : t.id = t'.id) : t = t' := by
  obtain ⟨id, value⟩ := t
  obtain ⟨id', value'⟩ := t'
  obtain rfl : id = id' := hid
  rcases h with h | h
  · have hvalue := h.symm.trans h'
    cases hvalue
    rfl
  · have hvalue := h.symm.trans h'
    cases hvalue

end Ledger

/-! ## 2. Actions that make objects -/

/-- A ledger can be continued through an action, to one that has what the action returns. -/
def Records {σ α : Type} (I : Ledger K → σ → Prop) (L : Ledger K) (x : StateM σ α)
    (R : Ledger K → α → Prop) : Prop :=
  ∀ s, I L s → ∃ L', L.Extends L' ∧ I L' (x s).2 ∧ R L' (x s).1

namespace Records

variable {σ α β : Type} {I : Ledger K → σ → Prop} {L : Ledger K} {R : Ledger K → α → Prop}

theorem pure {a : α} (h : R L a) : Records I L (Pure.pure a : StateM σ α) R :=
  fun _ hs => ⟨L, .refl L, hs, h⟩

theorem bind {S : Ledger K → β → Prop} {x : StateM σ α} {f : α → StateM σ β}
    (hx : Records I L x R) (hf : ∀ a L', L.Extends L' → R L' a → Records I L' (f a) S) :
    Records I L (x >>= f) S := by
  intro s hs
  obtain ⟨L₁, hL₁, hs₁, ha⟩ := hx s hs
  obtain ⟨L₂, hL₂, hs₂, hb⟩ := hf (x s).1 L₁ hL₁ ha (x s).2 hs₁
  exact ⟨L₂, hL₁.trans hL₂, hs₂, hb⟩

end Records

/-! ## 3. Objects -/

/-- A ledger is right for an arena if the numbers to come are free. -/
abbrev FreeIn (L : Ledger K) (a : Arena) : Prop := L.FreeFrom a.next

section Objects

variable {L : Ledger K} {m : Material K} {t : Shared (Texture K)}

theorem records_numbers {α : Type} {step : StateM Arena α}
    (h : ∀ a, a.next ≤ (step a).2.next) : Records FreeIn L step fun _ _ => True :=
  fun a ha => ⟨L, .refl L, ha.mono (h a), trivial⟩

theorem records_share (h : L.HasMaps m) : Records FreeIn L (Arena.share m) Ledger.HasMaterial := by
  intro a ha
  have hL : L.Extends (L.enter a.next (.material m)) := ha.extends_enter (Nat.le_refl _)
  exact ⟨_, hL, ha.enter (Nat.lt_succ_self _), Ledger.enter_self, h.mono hL⟩

theorem records_duplicate (h : L.HasMaps m) : Records FreeIn L m.duplicate Ledger.HasMaps :=
  fun _ ha => ⟨L, .refl L, ha.mono (Nat.le_succ _), h⟩

theorem records_tiled {tiling : Vec2 K} (t : Texture K) :
    Records FreeIn L (t.tiled tiling) Ledger.HasTexture := by
  intro a ha
  rw [TextureRegistry.tiled_eq]
  refine ⟨_, ha.extends_enter (Nat.le_succ _), ?_, .inr Ledger.enter_self⟩
  exact (ha.mono (Nat.le_succ _)).enter (Nat.lt_succ_self _)

theorem records_mapped (ht : L.HasTexture t) :
    Records FreeIn L (m.mapped t) Ledger.HasTexture := by
  unfold Material.mapped
  cases m.mapRepeat with
  | none => exact .pure ht
  | some tiling => exact records_tiled t.value

theorem hasMaps_setMap (h : L.HasMaps m) (ht : L.HasTexture t) : L.HasMaps (m.setMap (some t)) := by
  intro t' ht'
  obtain ⟨serial, name, shader, side, w, tr, dw, dt, mapRepeat⟩ := m
  cases shader with
  | phong p =>
    have hmem : t' ∈ [t] ++ p.specularMap.toList ++ p.bumpMap.toList := ht'
    simp only [List.append_assoc, List.mem_append, List.mem_singleton] at hmem
    rcases hmem with rfl | hmem
    · exact ht
    · refine h t' ?_
      show t' ∈ p.map.toList ++ p.specularMap.toList ++ p.bumpMap.toList
      simp only [List.append_assoc, List.mem_append]
      exact .inr hmem
  | unlit u =>
    have hmem : t' ∈ [t] ++ u.specularMap.toList := ht'
    rcases List.mem_append.mp hmem with hmem | hmem
    · rw [List.mem_singleton.mp hmem]
      exact ht
    · exact h t' (List.mem_append_right _ hmem)

theorem records_attachMap (h : L.HasMaps m) (ht : L.HasTexture t) :
    Records FreeIn L (m.attachMap t) Ledger.HasMaps :=
  .bind (records_mapped ht) fun _ _ hL hmap => .pure (hasMaps_setMap (h.mono hL) hmap)

theorem records_ofShader {shader : Shader K} (h : ∀ t ∈ shader.maps, L.HasTexture t) :
    Records FreeIn L (Material.ofShader shader) Ledger.HasMaps :=
  fun _ ha => ⟨L, .refl L, ha.mono (Nat.le_succ _), h⟩

theorem records_fallback [Scalar K] (color : Vec3 K) :
    Records FreeIn L (Material.fallback color) Ledger.HasMaps := by
  refine .bind (records_ofShader ?_) fun m L' _ hm => .pure hm
  rintro t ⟨⟩

abbrev Ledger.HasOptional (L : Ledger K) (t : Option (Shared (Texture K))) : Prop :=
  ∀ t' ∈ t, L.HasTexture t'

theorem Ledger.HasOptional.mono {L' : Ledger K} {t : Option (Shared (Texture K))}
    (h : L.HasOptional t) (hL : L.Extends L') : L'.HasOptional t :=
  fun t' ht => (h t' ht).mono hL

theorem records_skyboxFace [Scalar K] {map : Option (Shared (Texture K))} (h : L.HasOptional map)
    (emissive : Vec3 K) (intensity : K) :
    Records FreeIn L (Material.skyboxFace map emissive intensity) Ledger.HasMaps := by
  refine .bind (records_ofShader fun t ht => ?_) fun m L' _ hm => .pure hm
  have hmem : t ∈ map.toList ++ [] ++ [] := ht
  simp only [List.append_nil, Option.mem_toList] at hmem
  exact h t hmem

end Objects

/-! ## 4. Textures of a registry -/

def Ledger.HasHandles (L : Ledger K) (r : TextureRegistry K) : Prop :=
  ∀ id t, r.handles.find? id = some t → L t.id = some (.registered t.value)

theorem Ledger.HasHandles.mono {L L' : Ledger K} {r : TextureRegistry K} (h : L.HasHandles r)
    (hL : L.Extends L') : L'.HasHandles r :=
  fun id t ht => hL _ _ (h id t ht)

/-- A ledger is right for a registry with its arena if, moreover, it has the textures. -/
structure ListsTextures (L : Ledger K) (s : TextureRegistry K × Arena) : Prop where
  free : FreeIn L s.2
  handles : L.HasHandles s.1

theorem records_textures {α : Type} {L : Ledger K} {R : Ledger K → α → Prop}
    {step : StateM Arena α} (h : Records FreeIn L step R) :
    Records ListsTextures L (Texturing.onArena step) R := by
  intro s hs
  obtain ⟨L', hL, hfree, hR⟩ := h s.2 hs.free
  exact ⟨L', hL, ⟨hfree, hs.handles.mono hL⟩, hR⟩

namespace TextureRegistry

theorem handles_pushMipmaps (paths : List String) (t : Texture K)
    (s : TextureRegistry K × Arena) : (pushMipmaps t paths s).2.1.handles = s.1.handles := by
  induction paths generalizing t s with
  | nil => rfl
  | cons path rest ih => exact ih (t.pushMipmap (request path s).1) (request path s).2

variable [Scalar K]

/-- Making a texture does not keep it. -/
theorem handles_create (id : String) (spec : TextureSpec) (s : TextureRegistry K × Arena) :
    (create (K := K) id spec s).2.1.handles = s.1.handles :=
  handles_pushMipmaps _ _ _

end TextureRegistry

section Textures

variable [Scalar K] {L : Ledger K}

theorem records_resolve (id : String) :
    Records ListsTextures L (TextureRegistry.resolve id) Ledger.HasOptional := by
  intro s hs
  cases hfind : s.1.handles.find? id with
  | some t =>
    rw [TextureRegistry.resolve_handle hfind]
    refine ⟨L, .refl L, hs, ?_⟩
    rintro _ ⟨⟩
    exact .inl (hs.handles id t hfind)
  | none =>
    cases hrec : s.1.records.find? id with
    | none =>
      rw [TextureRegistry.resolve_unknown hfind hrec]
      exact ⟨L, .refl L, hs, by rintro _ ⟨⟩⟩
    | some spec =>
      obtain ⟨t, r, a, hcreate, heq⟩ := TextureRegistry.resolve_record hfind hrec
      have hhandles : r.handles = s.1.handles := by
        have h := TextureRegistry.handles_create id spec s
        rwa [hcreate] at h
      have hnext : s.2.next ≤ a.next := by
        have h := (TextureRegistry.growth_create (s := s) id spec).next
        rwa [hcreate] at h
      have hL : L.Extends (L.enter a.next (.registered t)) := hs.free.extends_enter hnext
      rw [heq]
      refine ⟨_, hL, ⟨(hs.free.mono hnext).enter (Nat.lt_succ_self _), ?_⟩, ?_⟩
      · intro id' t' ht
        simp only [Table.find?_insert, hhandles] at ht
        split at ht
        · cases ht
          exact Ledger.enter_self
        · exact hL _ _ (hs.handles id' t' ht)
      · rintro _ ⟨⟩
        exact .inl Ledger.enter_self

theorem records_resolveTiled (id : String) (tiling : Vec2 K) :
    Records ListsTextures L (TextureRegistry.resolveTiled id tiling) Ledger.HasOptional := by
  refine .bind (records_resolve id) fun t L' _ _ => ?_
  cases t with
  | none => exact .pure (by rintro _ ⟨⟩)
  | some t =>
    refine .bind (records_textures (records_tiled t.value)) fun t' L'' _ ht => .pure ?_
    rintro _ ⟨⟩
    exact ht

theorem records_lookup (id : Option String) (tiling : Option (Vec2 K)) :
    Records ListsTextures L (MaterialSpec.lookup id tiling) fun L x => L.HasOptional x.1 := by
  cases id with
  | none => exact .pure (by rintro _ ⟨⟩)
  | some id =>
    cases tiling with
    | none => exact .bind (records_resolve id) fun t L' _ ht => .pure ht
    | some tiling => exact .bind (records_resolveTiled id tiling) fun t L' _ ht => .pure ht

theorem MaterialSpec.maps_shaderOf {m : MaterialSpec K}
    {map specularMap bumpMap : Option (Shared (Texture K))} {t : Shared (Texture K)}
    (h : t ∈ (m.shaderOf map specularMap bumpMap).maps) :
    t ∈ map ∨ t ∈ specularMap ∨ t ∈ bumpMap := by
  have hmem : t ∈ map.toList ++ specularMap.toList ++ bumpMap.toList := by
    unfold shaderOf at h
    cases hshading : m.shading <;> rw [hshading] at h
    case unlit => exact List.mem_append_left _ h
    all_goals exact h
  simpa [or_assoc] using hmem

theorem records_shader (m : MaterialSpec K) :
    Records ListsTextures L m.shader fun L x => ∀ t ∈ x.1.maps, L.HasTexture t := by
  intro s hs
  obtain ⟨map, d₁, s₁, specular, d₂, s₂, bump, d₃, s₃, h₁, h₂, h₃, hends⟩ := m.shader_lookups s
  obtain ⟨L₁, hL₁, hs₁, hmap⟩ := records_lookup m.texture m.tiling s hs
  rw [h₁] at hs₁ hmap
  obtain ⟨L₂, hL₂, hs₂, hspecular⟩ := records_lookup m.specularMap none s₁ hs₁
  rw [h₂] at hs₂ hspecular
  obtain ⟨L₃, hL₃, hs₃, hbump⟩ := records_lookup m.bumpMap none s₂ hs₂
  rw [h₃] at hs₃ hbump
  have hmap₂ : L₂.HasOptional map := hmap.mono hL₂
  rcases hends with hend | hend
  · refine ⟨L₂, hL₁.trans hL₂, ?_, fun t ht => ?_⟩
    · rwa [hend none]
    · rw [hend none] at ht
      rcases MaterialSpec.maps_shaderOf ht with ht | ht | ht
      · exact hmap₂ t ht
      · exact hspecular t ht
      · cases ht
  · refine ⟨L₃, (hL₁.trans hL₂).trans hL₃, ?_, fun t ht => ?_⟩
    · rwa [hend]
    · rw [hend] at ht
      rcases MaterialSpec.maps_shaderOf ht with ht | ht | ht
      · exact hmap₂.mono hL₃ t ht
      · exact Ledger.HasOptional.mono hspecular hL₃ t ht
      · exact hbump t ht

/-- A built material has no textures but those of its shader. -/
theorem records_build (m : MaterialSpec K) :
    Records ListsTextures L m.build fun L x => L.HasMaps x.1 := by
  intro s hs
  obtain ⟨shader, d, t, hshader, heq⟩ := MaterialSpec.build_eq (s := s) m
  obtain ⟨L', hL, ht, hmaps⟩ := records_shader m s hs
  rw [hshader] at ht hmaps
  rw [heq]
  exact ⟨L', hL, ⟨ht.free.mono (Nat.le_succ _), ht.handles⟩, hmaps⟩

end Textures

end SceneAssembly
