/-
  SceneAssembly/Proofs/Textures/Adding.lean
  =========================================
  **Textures that are added to a registry.**

  What a registry keeps has a number that the arena has given out and pixel
  sources that are there (`Founded`), so it looks the same from now on
  (`Founded.shows`).  Resolving identifiers adds textures that are made from
  their descriptions, with new numbers and the transform that all textures start
  with, and leaves the others alone (`adds_resolve`).
-/
import SceneAssembly.Proofs.Textures.Slots

namespace SceneAssembly

variable {K : Type}

/-! ## 1. Registries and their arenas -/

theorem Arena.Stays.lt {a b : Arena} (h : a.Stays b) {i : SourceId} (hi : i < a.sources.size) :
    i < b.sources.size :=
  (Array.getElem?_eq_some_iff.mp (h i _ (Array.getElem?_eq_getElem hi))).1

/-- The textures of a registry have numbers that the arena has given out, and pixel sources that it
keeps. -/
structure TextureRegistry.Founded (s : TextureRegistry K × Arena) : Prop where
  given : ∀ {id x}, s.1.handles.find? id = some x → x.id < s.2.next
  stored : ∀ {id x}, s.1.handles.find? id = some x → ∀ j ∈ x.value.sources, j < s.2.sources.size

theorem TextureRegistry.founded_ofRecords (records : Table TextureSpec) (assetDir : String)
    (loader : ImageLoader) (a : Arena) :
    Founded (ofRecords (K := K) records assetDir loader, a) where
  given hx := by cases hx
  stored hx := by cases hx

/-- A texture of a registry that was made between two states. -/
structure Texturing.Made [Scalar K] (s t : TextureRegistry K × Arena) (x : Shared (Texture K)) :
    Prop where
  fresh : s.2.next ≤ x.id
  given : x.id < t.2.next
  stored : ∀ j ∈ x.value.sources, j < t.2.sources.size
  transform_eq : x.value.transform = .standard

/-- Work that only adds textures made from their descriptions. -/
structure Texturing.Adds [Scalar K] (s t : TextureRegistry K × Arena) : Prop where
  next : s.2.next ≤ t.2.next
  stays : s.2.Stays t.2
  origin : ∀ {id x}, t.1.handles.find? id = some x →
    s.1.handles.find? id = some x ∨ Texturing.Made s t x

namespace Texturing.Adds

variable [Scalar K] {s t u : TextureRegistry K × Arena}

theorem refl (s : TextureRegistry K × Arena) : Adds s s := ⟨Nat.le_refl _, .refl _, .inl⟩

theorem trans (h : Adds s t) (h' : Adds t u) : Adds s u where
  next := Nat.le_trans h.next h'.next
  stays := h.stays.trans h'.stays
  origin hx := by
    rcases h'.origin hx with hkept | hmade
    · rcases h.origin hkept with hold | hmade
      · exact .inl hold
      · exact .inr ⟨hmade.fresh, Nat.lt_of_lt_of_le hmade.given h'.next,
          fun j hj => h'.stays.lt (hmade.stored j hj), hmade.transform_eq⟩
    · exact .inr ⟨Nat.le_trans h.next hmade.fresh, hmade.given, hmade.stored, hmade.transform_eq⟩

theorem ofArena {r : TextureRegistry K} {a b : Arena} (hnext : a.next ≤ b.next)
    (hsources : b.sources = a.sources) : Adds (r, a) (r, b) :=
  ⟨hnext, .of_sources hsources, .inl⟩

theorem founded (h : Adds s t) (hs : TextureRegistry.Founded s) : TextureRegistry.Founded t where
  given hx := by
    rcases h.origin hx with hkept | hmade
    · exact Nat.lt_of_lt_of_le (hs.given hkept) h.next
    · exact hmade.given
  stored hx j hj := by
    rcases h.origin hx with hkept | hmade
    · exact h.stays.lt (hs.stored hkept j hj)
    · exact hmade.stored j hj

end Texturing.Adds

/-! ## 2. Resolving an identifier -/

namespace TextureRegistry

variable [Scalar K] {s : TextureRegistry K × Arena}

open Texturing (Adds)

theorem stored_of_look {t : Texture K} {a : Arena} {spec : TextureSpec} {id assetDir : String}
    {loader : ImageLoader} (h : t.look a = spec.look id assetDir loader) :
    ∀ j ∈ t.sources, j < a.sources.size := by
  have hsource := congrArg TextureLook.source h
  have hmipmaps := congrArg TextureLook.mipmaps h
  intro j hj
  rcases List.mem_cons.mp hj with rfl | hj
  · exact (Array.getElem?_eq_some_iff.mp hsource).1
  · have hlevel : a.sources[j]? ∈ t.mipmaps.map fun i => a.sources[i]? := List.mem_map_of_mem hj
    rw [show (t.mipmaps.map fun i => a.sources[i]?) = _ from hmipmaps] at hlevel
    obtain ⟨path, -, hpath⟩ := List.mem_map.mp hlevel
    exact (Array.getElem?_eq_some_iff.mp hpath.symm).1

theorem adds_resolve (id : String) : Adds s (resolve (K := K) id s).2 := by
  cases h : s.1.handles.find? id with
  | some t => rw [resolve_handle h]; exact .refl s
  | none =>
    cases hrec : s.1.records.find? id with
    | none => rw [resolve_unknown h hrec]; exact .refl s
    | some spec =>
      obtain ⟨t, requests, a, hcreate, hstays, hlasts⟩ :=
        create_look (r := s.1) (a := s.2) id spec
      obtain ⟨t', r', a', hcreate', heq⟩ := resolve_record h hrec
      have hnext := (growth_create (s := s) id spec).next
      rw [hcreate] at hcreate'
      cases hcreate'
      rw [hcreate] at hnext
      rw [heq]
      refine ⟨Nat.le_succ_of_le hnext, hstays.trans (.of_sources rfl), fun {id' x} hx => ?_⟩
      have hx : (s.1.handles.insert id ⟨a.next, t⟩).find? id' = some x := hx
      rw [Table.find?_insert] at hx
      split at hx
      · cases hx
        exact .inr ⟨hnext, Nat.lt_succ_self _, stored_of_look hlasts.eq,
          congrArg TextureLook.transform hlasts.eq⟩
      · exact .inl hx

/-! ## 3. What the names look like -/

/-- The look of the texture that a name has, or will have once it is made. -/
def shown (s : TextureRegistry K × Arena) (id : String) : Option (TextureLook K) :=
  match s.1.handles.find? id with
  | some x => some (x.value.look s.2)
  | none => (s.1.records.find? id).map (·.look id s.1.assetDir s.1.loader)

theorem isSome_shown (id : String) : (shown s id).isSome = s.1.knows id := by
  unfold shown knows
  cases s.1.handles.find? id with
  | some x => rfl
  | none => simp

theorem Founded.shows (h : Founded s) : ShowsTextures (shown s) s where
  kept {id x} hx := by
    refine ⟨x.value.look s.2, by simp only [shown, hx], fun b hb => ?_⟩
    rw [Texture.look_eq_iff]
    intro j hj
    have hsource := Array.getElem?_eq_getElem (h.stored hx j hj)
    rw [hb j _ hsource, hsource]
  unmade hnone := by simp only [shown, hnone]

end TextureRegistry

end SceneAssembly
