/-
  SceneAssembly/Proofs/Textures/Growth.lean
  =========================================
  **What working with textures changes.**

  A registry only grows: a texture that is kept under an identifier stays the
  same object, and a new one is only kept under an identifier that has a
  description (`TextureRegistry.Extends`).  So an identifier resolves to the same
  object whenever it is asked for, and that object can be read off any later
  registry (`resolve_eq_of_extends`).
-/
import SceneAssembly.Texture.Registry

namespace SceneAssembly

variable {K : Type}

/-! ## 1. Growing registries -/

namespace TextureRegistry

/-- Is there a texture for an identifier, made already or not? -/
def knows (r : TextureRegistry K) (id : String) : Bool :=
  (r.handles.find? id).isSome || (r.records.find? id).isSome

/-- An identifier has been asked for: its texture has been made, or there is none to make. -/
def Settled (r : TextureRegistry K) (id : String) : Prop :=
  r.handles.find? id = none → r.records.find? id = none

/-- The textures that are there stay, and new ones have a description. -/
structure Extends (r r' : TextureRegistry K) : Prop where
  records : r'.records = r.records
  handles : ∀ {id t}, r.handles.find? id = some t → r'.handles.find? id = some t
  described : ∀ {id}, r.records.find? id = none → r.handles.find? id = none →
    r'.handles.find? id = none

namespace Extends

variable {r r' r'' : TextureRegistry K} {id : String}

theorem refl (r : TextureRegistry K) : Extends r r := ⟨rfl, fun h => h, fun _ h => h⟩

theorem trans (h : Extends r r') (h' : Extends r' r'') : Extends r r'' where
  records := h'.records.trans h.records
  handles hid := h'.handles (h.handles hid)
  described hrec hnone := h'.described (h.records ▸ hrec) (h.described hrec hnone)

theorem find?_eq (h : Extends r r') (hid : r.Settled id) :
    r'.handles.find? id = r.handles.find? id := by
  cases hr : r.handles.find? id with
  | none => exact h.described (hid hr) hr
  | some t => exact h.handles hr

/-- Whether an identifier has a texture does not depend on which ones have been made. -/
theorem knows_eq (h : Extends r r') (id : String) : r'.knows id = r.knows id := by
  unfold knows
  rw [h.records]
  cases hrec : r.records.find? id with
  | some spec => simp
  | none =>
    have hsettled : r.Settled id := fun _ => hrec
    rw [h.find?_eq hsettled]

theorem settled (h : Extends r r') (hid : r.Settled id) : r'.Settled id := by
  intro hnone
  rw [h.records]
  exact hid (h.find?_eq hid ▸ hnone)

end Extends

theorem Settled.isSome_eq_knows {r : TextureRegistry K} {id : String} (h : r.Settled id) :
    (r.handles.find? id).isSome = r.knows id := by
  unfold knows
  cases hr : r.handles.find? id with
  | none => simp [h hr]
  | some t => rfl

end TextureRegistry

/-- The registry grows, and no number is taken back. -/
structure Texturing.Growth (s t : TextureRegistry K × Arena) : Prop where
  registry : s.1.Extends t.1
  next : s.2.next ≤ t.2.next

namespace Texturing.Growth

variable {s t u : TextureRegistry K × Arena}

theorem refl (s : TextureRegistry K × Arena) : Growth s s := ⟨.refl _, Nat.le_refl _⟩

theorem trans (hst : Growth s t) (htu : Growth t u) : Growth s u :=
  ⟨hst.registry.trans htu.registry, Nat.le_trans hst.next htu.next⟩

theorem ofArena {r : TextureRegistry K} {a b : Arena} (h : a.next ≤ b.next) :
    Growth (r, a) (r, b) :=
  ⟨.refl r, h⟩

end Texturing.Growth

namespace TextureRegistry

open Texturing (Growth)

variable {s : TextureRegistry K × Arena}

/-! ## 2. Making a texture -/

theorem growth_request (path : String) : Growth s (request path s).2 :=
  ⟨⟨rfl, fun h => h, fun _ h => h⟩, Nat.le_refl _⟩

theorem growth_pushMipmaps (paths : List String) (t : Texture K) :
    Growth s (pushMipmaps t paths s).2 := by
  induction paths generalizing t s with
  | nil => exact Growth.refl s
  | cons path rest ih =>
    exact (growth_request path).trans (ih (t.pushMipmap (request path s).1))

variable [Scalar K]

theorem growth_create (id : String) (spec : TextureSpec) :
    Growth s (create (K := K) id spec s).2 := by
  have hplain : Growth s
      (Texturing.onArena (Texture.ofSource (K := K) id (request spec.path s).1)
        (request spec.path s).2).2 :=
    (growth_request spec.path).trans (Growth.ofArena (Nat.le_succ _))
  exact hplain.trans (growth_pushMipmaps _ _)

/-! ## 3. Resolving an identifier -/

theorem resolve_handle {id : String} {t : Shared (Texture K)}
    (h : s.1.handles.find? id = some t) : resolve id s = (some t, s) := by
  simp only [resolve, bind, StateT.bind, get, getThe, MonadStateOf.get, StateT.get, pure, h]
  rfl

theorem resolve_unknown {id : String} (h : s.1.handles.find? id = none)
    (hrec : s.1.records.find? id = none) : resolve (K := K) id s = (none, s) := by
  simp only [resolve, bind, StateT.bind, get, getThe, MonadStateOf.get, StateT.get, pure, h, hrec]
  rfl

theorem resolve_record {id : String} {spec : TextureSpec} (h : s.1.handles.find? id = none)
    (hrec : s.1.records.find? id = some spec) :
    ∃ t r a, create (K := K) id spec s = (t, r, a) ∧
      resolve id s = (some ⟨a.next, t⟩,
        { r with handles := r.handles.insert id ⟨a.next, t⟩ }, { a with next := a.next + 1 }) := by
  refine ⟨_, _, _, rfl, ?_⟩
  simp only [resolve, bind, StateT.bind, get, getThe, MonadStateOf.get, StateT.get, pure, h, hrec]
  rfl

theorem growth_resolve (id : String) : Growth s (resolve (K := K) id s).2 := by
  cases h : s.1.handles.find? id with
  | some t => rw [resolve_handle h]; exact Growth.refl s
  | none =>
    cases hrec : s.1.records.find? id with
    | none => rw [resolve_unknown h hrec]; exact Growth.refl s
    | some spec =>
      obtain ⟨t, r, a, hcreate, heq⟩ := resolve_record h hrec
      have hgrow : Growth s (r, a) := by
        have := growth_create (s := s) id spec
        rwa [hcreate] at this
      rw [heq]
      refine ⟨⟨hgrow.registry.records, ?_, ?_⟩, Nat.le_succ_of_le hgrow.next⟩
      · intro id' x hx
        have hne : id' ≠ id := fun heq => by rw [heq, h] at hx; cases hx
        simpa only [Table.find?_insert, if_neg hne] using hgrow.registry.handles hx
      · intro id' hrec' hnone
        have hne : id' ≠ id := fun heq => by rw [heq, hrec] at hrec'; cases hrec'
        simpa only [Table.find?_insert, if_neg hne] using hgrow.registry.described hrec' hnone

/-- Resolving hands out what is then kept under the identifier, if anything is. -/
theorem resolve_eq_find? (id : String) :
    (resolve (K := K) id s).1 = (resolve (K := K) id s).2.1.handles.find? id ∧
      (resolve (K := K) id s).2.1.Settled id := by
  cases h : s.1.handles.find? id with
  | some t =>
    rw [resolve_handle h]
    exact ⟨h.symm, fun hnone => by rw [h] at hnone; cases hnone⟩
  | none =>
    cases hrec : s.1.records.find? id with
    | none => rw [resolve_unknown h hrec]; exact ⟨h.symm, fun _ => hrec⟩
    | some spec =>
      obtain ⟨t, r, a, -, heq⟩ := resolve_record h hrec
      rw [heq]
      simp [Settled, Table.find?_insert]

theorem isSome_resolve (id : String) : (resolve (K := K) id s).1.isSome = s.1.knows id := by
  obtain ⟨heq, hsettled⟩ := resolve_eq_find? (s := s) id
  rw [heq, hsettled.isSome_eq_knows]
  exact (growth_resolve id).registry.knows_eq id

theorem resolve_eq_of_extends {id : String} {r : TextureRegistry K}
    (h : (resolve id s).2.1.Extends r) :
    (resolve id s).1 = r.handles.find? id ∧ r.Settled id := by
  obtain ⟨heq, hsettled⟩ := resolve_eq_find? (s := s) id
  exact ⟨heq.trans (h.find?_eq hsettled).symm, h.settled hsettled⟩

theorem resolve_of_settled {id : String} (h : s.1.Settled id) :
    (resolve (K := K) id s).1 = s.1.handles.find? id := by
  cases hfind : s.1.handles.find? id with
  | some t => rw [resolve_handle hfind]
  | none => rw [resolve_unknown hfind (h hfind)]

/-- Asking again, at any later time, gets the same answer. -/
theorem resolve_stable {id : String} {t : TextureRegistry K × Arena}
    (h : (resolve id s).2.1.Extends t.1) : (resolve id t).1 = (resolve id s).1 := by
  obtain ⟨heq, hsettled⟩ := resolve_eq_of_extends h
  rw [resolve_of_settled hsettled, heq]

/-! ## 4. Copies with a tiling -/

/-- A tiled copy takes two numbers, one as its serial number and one as an object. -/
theorem tiled_eq {K : Type} (t : Texture K) (tiling : Vec2 K) (a : Arena) :
    t.tiled tiling a =
      (⟨a.next + 1, { t with serial := a.next, version := 0 }.withTiling tiling⟩,
        { a with next := a.next + 2 }) :=
  rfl

theorem growth_resolveTiled (id : String) (tiling : Vec2 K) :
    Growth s (resolveTiled id tiling s).2 := by
  obtain ⟨t, u, heq⟩ : ∃ t u, resolve id s = (t, u) := ⟨_, _, rfl⟩
  have hgrow : Growth s u := by
    have := growth_resolve (s := s) id
    rwa [heq] at this
  simp only [resolveTiled, bind, StateT.bind, heq]
  cases t with
  | none => exact hgrow
  | some t => exact hgrow.trans (Growth.ofArena (Nat.le_add_right _ 2))

end TextureRegistry

end SceneAssembly
