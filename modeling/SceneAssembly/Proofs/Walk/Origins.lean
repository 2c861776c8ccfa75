/-
  SceneAssembly/Proofs/Walk/Origins.lean
  ======================================
  **Which surfaces hold the same material.**

  A surface without a texture of its own holds the fallback, or the material
  that was made once for its record, or, if a level of detail was entered since,
  the duplicate that was handed to the innermost such level; a surface with one
  holds a duplicate of its own.  This is its origin (`Document.originAt`).  The
  nodes of a tree are told apart by addresses, since one element can stand in it
  many times under the same chain of elements.

  A material that is held below some node was made there, with an origin at that
  address or below and a number of its own, or was handed down, or is kept for
  everyone (`Comes`).  What comes from one place in these ways is told apart by
  its origin if what is made is (`Comes.agree`).
-/
import SceneAssembly.Proofs.Walk.Levels

namespace SceneAssembly

open Relation (ReflTransGen)

variable {K : Type}

/-! ## 1. Origins -/

/-- Where a material of a scene was first held.  An address gives the positions of the branches on
    the way to a node, its own first. -/
inductive Origin where
  | fallback
  | record (key : String)
  /-- Made for the level at an address. -/
  | level (address : List Nat)
  /-- Made for the surface at an address. -/
  | surface (address : List Nat)
  /-- Made for a group of the geometry at an address. -/
  | face (address : List Nat) (group : Nat)
deriving DecidableEq

namespace Origin

/-- What the level at an address is handed, if it is handed anything, is a duplicate. -/
def entering (address : List Nat) : Origin → Origin
  | fallback => fallback
  | _ => level address

/-- What the document says of an origin, without telling duplicates apart. -/
def source : Origin → Source
  | fallback => .fallback
  | record key => .record key
  | _ => .fresh

/-- The origin is one of a node at an address or below it. -/
def IsAt (address : List Nat) : Origin → Prop
  | level a | surface a | face a _ => address <:+ a
  | _ => False

theorem IsAt.up {address : List Nat} {i : Nat} {o : Origin} (h : o.IsAt (i :: address)) :
    o.IsAt address ∧ o ≠ level address := by
  have hup : ∀ a, i :: address <:+ a → address <:+ a ∧ a ≠ address := by
    rintro a ha
    refine ⟨(List.suffix_cons i address).trans ha, ?_⟩
    rintro rfl
    exact absurd ha.length_le (by simp)
  cases o with
  | fallback => exact h.elim
  | record key => exact h.elim
  | level a => exact ⟨(hup a h).1, fun heq => (hup a h).2 (level.inj heq)⟩
  | surface a => exact ⟨(hup a h).1, Origin.noConfusion⟩
  | face a k => exact ⟨(hup a h).1, Origin.noConfusion⟩

/-- Nothing is below two siblings. -/
theorem IsAt.apart {address : List Nat} {i j : Nat} {o o' : Origin} (h : o.IsAt (i :: address))
    (h' : o'.IsAt (j :: address)) (hij : i ≠ j) : o ≠ o' := by
  rintro rfl
  have hnone : ∀ a, i :: address <:+ a → j :: address <:+ a → False := fun a ha ha' => by
    have heq := (List.suffix_of_suffix_length_le ha ha' (by simp)).eq_of_length (by simp)
    exact hij (List.cons.inj heq).1
  cases o with
  | fallback => exact h
  | record key => exact h
  | level a => exact hnone a h h'
  | surface a => exact hnone a h h'
  | face a k => exact hnone a h h'

end Origin

namespace Document

/-- What the innermost element of a path hands down to its branch at an address. -/
def handsOnAt (d : Document K) (path : List String) (address : List Nat) (o : Origin) : Origin :=
  match path with
  | [] => o
  | id :: _ => if d.isLod id then o.entering address else o

/-- The origin of what the innermost element of a chain holds: the record that it refers to, or what
    is handed down to its address. -/
def heldAt (d : Document K) : List String → List Nat → Origin
  | [], _ => .fallback
  | id :: path, address =>
    ((d.recordKey? id).map .record).getD (d.handsOnAt path address (d.heldAt path address.tail))

def handedAt (d : Document K) (path : List String) (address : List Nat) : Origin :=
  d.handsOnAt path address (d.heldAt path address.tail)

/-- The origin of the material of a surface; one with a texture has a duplicate of its own. -/
def originAt [Scalar K] (d : Document K) (u : TextureRegistry K × Arena) (chain : List String)
    (address : List Nat) : Origin :=
  match d.heldAt chain address with
  | .fallback => .fallback
  | o => if (d.effectiveTexture? u chain).isSome then .surface address else o

section Laws

variable {d : Document K} {id : String} {e : Element K} {path : List String} {address : List Nat}

theorem heldAt_cons_none (h : d.recordKey? id = none) :
    d.heldAt (id :: path) address = d.handedAt path address := by
  rw [heldAt, h]
  rfl

theorem heldAt_cons_some {key : String} (h : d.recordKey? id = some key) :
    d.heldAt (id :: path) address = .record key := by
  rw [heldAt, h]
  rfl

theorem handedAt_lod {levels : List (LevelSpec K)} (hid : d.elements.find? id = some e)
    (hkind : e.kind = .lod levels) (i : Nat) :
    d.handedAt (id :: path) (i :: address) =
      (d.heldAt (id :: path) address).entering (i :: address) := by
  have hlod : d.isLod id = true := by simp [isLod, hid, hkind]
  rw [handedAt, handsOnAt, if_pos hlod, List.tail_cons]

theorem handedAt_group {children : List String} (hid : d.elements.find? id = some e)
    (hkind : e.kind = .group children) (i : Nat) :
    d.handedAt (id :: path) (i :: address) = d.heldAt (id :: path) address := by
  have hlod : d.isLod id = false := by simp [isLod, hid, hkind]
  rw [handedAt, handsOnAt, hlod, List.tail_cons]
  rfl

theorem source_handsOnAt (o : Origin) :
    (d.handsOnAt path address o).source = d.handsOn path o.source := by
  cases path with
  | nil => rfl
  | cons id rest =>
    simp only [handsOnAt, handsOn]
    split
    · cases o <;> rfl
    · rfl

/-- Origins are as fine as sources. -/
theorem source_heldAt (chain : List String) (address : List Nat) :
    (d.heldAt chain address).source = d.held chain := by
  induction chain generalizing address with
  | nil => rfl
  | cons id path ih =>
    cases hkey : d.recordKey? id with
    | some key => rw [heldAt_cons_some hkey, held_cons_some hkey]; rfl
    | none =>
      rw [heldAt_cons_none hkey, held_cons_none hkey, handedAt, source_handsOnAt, ih]
      rfl

/-- What is held is of a record or the fallback, or was made for a level that was entered. -/
theorem heldAt_cases (chain : List String) (address : List Nat) :
    d.heldAt chain address = .fallback ∨ (∃ key, d.heldAt chain address = .record key) ∨
      ∃ a, d.heldAt chain address = .level a ∧ a <:+ address := by
  induction chain generalizing address with
  | nil => exact .inl rfl
  | cons id path ih =>
    cases hkey : d.recordKey? id with
    | some key => exact .inr (.inl ⟨key, heldAt_cons_some hkey⟩)
    | none =>
      rw [heldAt_cons_none hkey, handedAt]
      have hup := ih address.tail
      cases path with
      | nil => exact .inl rfl
      | cons id' rest =>
        simp only [handsOnAt]
        split
        · cases hheld : d.heldAt (id' :: rest) address.tail with
          | fallback => exact .inl rfl
          | _ => exact .inr (.inr ⟨address, rfl, List.suffix_refl _⟩)
        · rcases hup with h | ⟨key, h⟩ | ⟨a, h, ha⟩
          · exact .inl h
          · exact .inr (.inl ⟨key, h⟩)
          · exact .inr (.inr ⟨a, h, ha.trans (List.tail_suffix _)⟩)

theorem recordKey?_eq_none_iff (id : String) : d.recordKey? id = none ↔ d.recordOf? id = none := by
  unfold recordKey? recordOf?
  cases d.elements.find? id with
  | none => simp
  | some e =>
    cases hmaterial : e.material with
    | none => simp [hmaterial]
    | some key => cases hspec : d.materials.find? key <;> simp [hmaterial, Table.contains, hspec]

/-- The fallback is held exactly where no record is in effect. -/
theorem heldAt_eq_fallback_iff (chain : List String) (address : List Nat) :
    d.heldAt chain address = .fallback ↔ d.effectiveRecord? chain = none := by
  induction chain generalizing address with
  | nil => exact ⟨fun _ => rfl, fun _ => rfl⟩
  | cons id path ih =>
    rw [effectiveRecord?, List.findSome?_cons]
    cases hkey : d.recordKey? id with
    | some key =>
      obtain ⟨spec, hspec⟩ : ∃ spec, d.recordOf? id = some spec := by
        refine Option.ne_none_iff_exists'.mp fun hnone => ?_
        rw [(recordKey?_eq_none_iff id).mpr hnone] at hkey
        cases hkey
      rw [heldAt_cons_some hkey, hspec]
      simp
    | none =>
      rw [heldAt_cons_none hkey, (recordKey?_eq_none_iff id).mp hkey, handedAt]
      refine Iff.trans ?_ (ih address.tail)
      cases path with
      | nil => exact Iff.rfl
      | cons id' rest =>
        simp only [handsOnAt]
        split
        · cases d.heldAt (id' :: rest) address.tail <;> simp [Origin.entering]
        · exact Iff.rfl

end Laws

end Document

/-! ## 2. Spots -/

/-- A node at its address, and the elements on the way to it, its own first. -/
structure Spot (K : Type) where
  address : List Nat
  chain : List String
  node : SceneNode K

/-- One spot is directly below another one. -/
inductive Under (d : Document K) : Spot K → Spot K → Prop
  | intro {address : List Nat} {chain : List String} {n m : SceneNode K} {i : Nat}
    (hmodel : ¬ IsModel d n.name) (hm : n.branches[i]? = some m) :
    Under d ⟨address, chain, n⟩ ⟨i :: address, m.name :: chain, m⟩

/-- A spot of a scene: one that is the root, which must not be left out, or anywhere below it. -/
def Scene.HasSpot (scene : Scene K) (c : Setting K) (spot : Spot K) : Prop :=
  leftOut? c [] c.document.rootId = none ∧
    ReflTransGen (Under c.document) ⟨[], [c.document.rootId], scene.root⟩ spot

theorem Under.below {d : Document K} {s t : Spot K} (h : Under d s t) :
    Below d ⟨s.chain, s.node⟩ ⟨t.chain, t.node⟩ := by
  cases h with
  | intro hmodel hm => exact .intro hmodel (List.mem_of_getElem? hm)

/-- A spot is that of a place. -/
theorem Scene.HasSpot.place {scene : Scene K} {c : Setting K} {spot : Spot K}
    (h : scene.HasSpot c spot) : scene.HasPlace c ⟨spot.chain, spot.node⟩ := by
  refine ⟨h.1, ?_⟩
  have hlift := h.2.lift (p := Below c.document) (fun s => (⟨s.chain, s.node⟩ : Place K))
    fun _ _ => Under.below
  exact hlift

/-- The surface at a spot, or a group of it, holds a material of the given origin. -/
inductive Bears [Scalar K] (d : Document K) (u : TextureRegistry K × Arena) (spot : Spot K) :
    Origin → Shared (Material K) → Prop
  | surface {mesh : Mesh K} (hmesh : spot.node.mesh = some mesh) :
    Bears d u spot (d.originAt u spot.chain spot.address) mesh.material
  | face {mesh : Mesh K} {k : Nat} {m : Shared (Material K)} (hmesh : spot.node.mesh = some mesh)
    (hm : mesh.groupMaterials[k]? = some m) : Bears d u spot (.face spot.address k) m

/-! ## 3. Where materials come from -/

/-- Materials are one object exactly if their origins are equal. -/
def Agree (o : Origin) (m : Shared (Material K)) (o' : Origin) (m' : Shared (Material K)) : Prop :=
  (m.id = m'.id ↔ o = o') ∧ (o = o' → m = m')

theorem Agree.symm {o o' : Origin} {m m' : Shared (Material K)} (h : Agree o m o' m') :
    Agree o' m' o m :=
  ⟨⟨fun heq => (h.1.mp heq.symm).symm, fun heq => (h.1.mpr heq.symm).symm⟩,
    fun heq => (h.2 heq.symm).symm⟩

theorem Agree.refl (o : Origin) (m : Shared (Material K)) : Agree o m o m :=
  ⟨⟨fun _ => rfl, fun _ => rfl⟩, fun _ => rfl⟩

theorem Agree.of_ne {o o' : Origin} {m m' : Shared (Material K)} (hid : m.id ≠ m'.id) (h : o ≠ o') :
    Agree o m o' m' :=
  ⟨⟨fun heq => absurd heq hid, fun heq => absurd heq h⟩, fun heq => absurd heq h⟩

/-- A material that is held somewhere below was made there, with an origin that `S` allows, was
    handed down, with the given origin, or is kept. -/
inductive Comes (final : Progress K) (lo hi : Nat) (S : Origin → Prop) (given : Origin)
    (material : Option (Shared (Material K))) : Origin → Shared (Material K) → Prop
  | made {o : Origin} {m : Shared (Material K)} (hfresh : final.IsFresh lo hi m) (ho : S o) :
    Comes final lo hi S given material o m
  | handed {a : List Nat} {m : Shared (Material K)} (hlevel : given = .level a)
    (hm : material = some m) : Comes final lo hi S given material given m
  | record {key : String} {m : Shared (Material K)} (hm : final.materials.find? key = some m) :
    Comes final lo hi S given material (.record key) m
  | fallback {m : Shared (Material K)} (hm : final.fallback = some m) :
    Comes final lo hi S given material .fallback m

/-- What has been handed down is older than what is made, and has an origin elsewhere. -/
structure HandedFirst (final : Progress K) (lo : Nat) (S : Origin → Prop) (given : Origin)
    (material : Option (Shared (Material K))) : Prop where
  elsewhere : ∀ o, S o → o.source = .fresh ∧ o ≠ given
  older : ∀ a m, given = .level a → material = some m → ¬ final.Keeps m.id ∧ m.id < lo

theorem Progress.Gives.unique {final : Progress K} {lo hi lo' hi' : Nat} {s : Source}
    {m m' : Shared (Material K)} (h : final.Gives lo hi s m) (h' : final.Gives lo' hi' s m')
    (hs : s ≠ .fresh) : m = m' := by
  cases s with
  | fresh => exact absurd rfl hs
  | fallback => exact Option.some.inj (h.symm.trans h')
  | record key => exact Option.some.inj (h.symm.trans h')

/-- Kept materials have no other origin than their source. -/
theorem Origin.eq_of_source {o o' : Origin} (h : o.source = o'.source) (hs : o.source ≠ .fresh) :
    o = o' := by
  cases o <;> cases o' <;> simp_all [source]

namespace Comes

variable {final : Progress K} {lo hi lo' hi' : Nat} {S S' : Origin → Prop} {given : Origin}
  {material : Option (Shared (Material K))} {o o' : Origin} {m m' : Shared (Material K)}

theorem mono (h : Comes final lo hi S given material o m) (hlo : lo' ≤ lo) (hhi : hi ≤ hi')
    (hS : ∀ o, S o → S' o) : Comes final lo' hi' S' given material o m := by
  cases h with
  | made hfresh ho => exact .made (hfresh.mono hlo hhi) (hS o ho)
  | handed hlevel hm => exact .handed hlevel hm
  | record hm => exact .record hm
  | fallback hm => exact .fallback hm

/-- What is not kept was made or handed down. -/
theorem kept_or_fresh (h : Comes final lo hi S given material o m)
    (hfirst : HandedFirst final lo S given material) :
    (o.source ≠ .fresh ∧ final.Gives 0 0 o.source m) ∨
      (o.source = .fresh ∧ ¬ final.Keeps m.id ∧
        (S o ∧ final.IsFresh lo hi m ∨ o = given ∧ material = some m ∧ ∃ a, given = .level a)) := by
  cases h with
  | made hfresh ho =>
    exact .inr ⟨(hfirst.elsewhere o ho).1, hfresh.notKept, .inl ⟨ho, hfresh⟩⟩
  | handed hlevel hm =>
    have hkept := (hfirst.older _ _ hlevel hm).1
    exact .inr ⟨by rw [hlevel]; rfl, hkept, .inr ⟨rfl, hm, _, hlevel⟩⟩
  | record hm => exact .inl ⟨Source.noConfusion, hm⟩
  | fallback hm => exact .inl ⟨Source.noConfusion, hm⟩

/-- **What comes from one place is one object exactly if its origin is**, provided that this is so
    of what is made. -/
theorem agree (hordered : final.Orderly) (h : Comes final lo hi S given material o m)
    (h' : Comes final lo' hi' S' given material o' m')
    (hfirst : HandedFirst final lo S given material)
    (hfirst' : HandedFirst final lo' S' given material)
    (hmade : S o → S' o' → final.IsFresh lo hi m → final.IsFresh lo' hi' m' → Agree o m o' m') :
    Agree o m o' m' := by
  rcases h.kept_or_fresh hfirst with ⟨hs, hgives⟩ | ⟨hs, hkept, hmade₁⟩
  · rcases h'.kept_or_fresh hfirst' with ⟨hs', hgives'⟩ | ⟨hs', hkept', -⟩
    · have hsource := hgives.id_eq_iff hordered hgives' hs hs'
      refine ⟨⟨fun heq => Origin.eq_of_source (hsource.mp heq) hs, fun heq => ?_⟩, fun heq => ?_⟩
      · exact hsource.mpr (congrArg Origin.source heq)
      · rw [heq] at hgives
        exact hgives.unique hgives' hs'
    · refine Agree.of_ne (fun heq => hkept' (heq ▸ hgives.keeps_iff.mpr hs)) fun heq => ?_
      exact hs (heq ▸ hs')
  · rcases h'.kept_or_fresh hfirst' with ⟨hs', hgives'⟩ | ⟨hs', hkept', hmade₂⟩
    · refine Agree.of_ne (fun heq => hkept (heq ▸ hgives'.keeps_iff.mpr hs')) fun heq => ?_
      exact hs' (heq ▸ hs)
    · rcases hmade₁ with ⟨ho, hfresh⟩ | ⟨rfl, hm, a, hlevel⟩
      · rcases hmade₂ with ⟨ho', hfresh'⟩ | ⟨rfl, hm', a, hlevel⟩
        · exact hmade ho ho' hfresh hfresh'
        · have hold := (hfirst.older _ _ hlevel hm').2
          have hnew := hfresh.low
          exact Agree.of_ne (by omega) (hfirst.elsewhere o ho).2
      · rcases hmade₂ with ⟨ho', hfresh'⟩ | ⟨rfl, hm', -⟩
        · have hold := (hfirst'.older _ _ hlevel hm).2
          have hnew := hfresh'.low
          exact Agree.of_ne (by omega) (hfirst'.elsewhere o' ho').2.symm
        · rw [hm] at hm'
          cases hm'
          exact .refl o' m

/-- What an element holds came from above, unless it has a record of its own. -/
theorem of_held {d : Document K} {id : String} {path : List String} {address : List Nat}
    {inherited : Option (Shared (Material K))}
    (h : Comes final lo hi S (d.heldAt (id :: path) address) material o m)
    (hmaterial : d.recordKey? id = none → material = inherited) :
    Comes final lo hi S (d.handedAt path address) inherited o m := by
  cases h with
  | made hfresh ho => exact .made hfresh ho
  | record hm => exact .record hm
  | fallback hm => exact .fallback hm
  | handed hlevel hm =>
    cases hkey : d.recordKey? id with
    | some key =>
      rw [Document.heldAt_cons_some hkey] at hlevel
      cases hlevel
    | none =>
      rw [hmaterial hkey] at hm
      rw [Document.heldAt_cons_none hkey] at hlevel ⊢
      exact .handed hlevel hm

/-- What the level at an address is handed was made for it, just before it was visited. -/
theorem of_entering {address : List Nat} {mid : Nat}
    {inherited : Option (Shared (Material K))}
    (h : Comes final mid hi (fun o => o.IsAt address ∧ o ≠ .level address)
      (given.entering address) material o m)
    (hmaterial : final.Hands lo mid given.source.duplicated material) (hlo : lo ≤ mid)
    (hhi : mid ≤ hi) : Comes final lo hi (Origin.IsAt address) given inherited o m := by
  cases h with
  | made hfresh ho => exact .made (hfresh.mono hlo (Nat.le_refl _)) ho.1
  | record hm => exact .record hm
  | fallback hm => exact .fallback hm
  | handed hlevel hm =>
    have hduplicate : given ≠ .fallback → given.source.duplicated = .fresh ∧
        given.entering address = .level address := by
      cases given with
      | fallback => exact fun h => absurd rfl h
      | _ => exact fun _ => ⟨rfl, rfl⟩
    have hgiven : given ≠ .fallback := by
      rintro rfl
      cases hlevel
    obtain ⟨hsource, hentering⟩ := hduplicate hgiven
    rw [hsource] at hmaterial
    obtain ⟨m', hm', hfresh⟩ := hmaterial
    rw [hm] at hm'
    cases hm'
    rw [hentering]
    exact .made (hfresh.mono (Nat.le_refl _) hhi) (List.suffix_refl address)

end Comes

end SceneAssembly
