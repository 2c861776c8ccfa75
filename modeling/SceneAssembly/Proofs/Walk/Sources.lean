/-
  SceneAssembly/Proofs/Walk/Sources.lean
  ======================================
  **Where the materials of surfaces come from.**

  The material of a description is made once and kept for all references to it,
  and a surface without any has the one fallback; whatever else a surface has was
  made for it, or for the level that it is in.  The document says which of these
  it is (`Document.source`), and the numbers of materials tell it: those of kept
  materials belong to one source each, all others are given out once
  (`Progress.Gives`).
-/
import SceneAssembly.Proofs.Walk.Inheritance
import SceneAssembly.Proofs.Walk.Keeping

namespace SceneAssembly

variable {K : Type}

/-! ## 1. Sources of materials -/

/-- Where a surface has its material from: from those that are kept, under a key or as the fallback,
    or it has been made for the surface or for the level that it is in. -/
inductive Source where
  | fresh
  | fallback
  | record (key : String)
deriving DecidableEq

/-- What is handed down to a level is a duplicate, if it is anything. -/
def Source.duplicated : Source → Source
  | .record _ => .fresh
  | s => s

namespace Document

/-- The key of the material that an element refers to, if it exists. -/
def recordKey? (d : Document K) (id : String) : Option String :=
  (d.elements.find? id).bind fun e => e.material.filter d.materials.contains

def isLod (d : Document K) (id : String) : Bool :=
  match (d.elements.find? id).map Element.kind with
  | some (.lod _) => true
  | _ => false

/-- What the innermost element of a path hands down. -/
def handsOn (d : Document K) (path : List String) (s : Source) : Source :=
  match path with
  | [] => s
  | id :: _ => if d.isLod id then s.duplicated else s

/-- What the innermost element of a path holds: the material that it refers to, or else what is
    handed down to it. -/
def held (d : Document K) : List String → Source
  | [] => .fallback
  | id :: path => ((d.recordKey? id).map .record).getD (d.handsOn path (d.held path))

def handedDown (d : Document K) (path : List String) : Source := d.handsOn path (d.held path)

/-- Where a surface below a chain has its material from; one with a texture of its own has a
    duplicate. -/
def source [Scalar K] (d : Document K) (u : TextureRegistry K × Arena) (chain : List String) :
    Source :=
  match d.held chain with
  | .fallback => .fallback
  | s => if (d.effectiveTexture? u chain).isSome then .fresh else s

section Laws

variable {d : Document K} {id : String} {e : Element K} {path : List String}

theorem recordKey?_eq (hid : d.elements.find? id = some e) :
    d.recordKey? id = e.material.filter d.materials.contains := by
  rw [recordKey?, hid, Option.bind_some]

theorem held_cons_none (h : d.recordKey? id = none) :
    d.held (id :: path) = d.handedDown path := by
  rw [held, h]
  rfl

theorem held_cons_some {key : String} (h : d.recordKey? id = some key) :
    d.held (id :: path) = .record key := by
  rw [held, h]
  rfl

theorem handedDown_cons_lod {levels : List (LevelSpec K)} (hid : d.elements.find? id = some e)
    (hkind : e.kind = .lod levels) :
    d.handedDown (id :: path) = (d.held (id :: path)).duplicated := by
  have hlod : d.isLod id = true := by simp [isLod, hid, hkind]
  rw [handedDown, handsOn, if_pos hlod]

theorem handedDown_cons_group {children : List String} (hid : d.elements.find? id = some e)
    (hkind : e.kind = .group children) : d.handedDown (id :: path) = d.held (id :: path) := by
  have hlod : d.isLod id = false := by simp [isLod, hid, hkind]
  rw [handedDown, handsOn, hlod]
  rfl

end Laws

end Document

/-! ## 2. What comes from a source -/

namespace Progress

/-- A material that is not kept, with a number from an interval. -/
structure IsFresh (final : Progress K) (lo hi : Nat) (m : Shared (Material K)) : Prop where
  notKept : ¬ final.Keeps m.id
  low : lo ≤ m.id
  high : m.id < hi

/-- A material comes from a source. -/
def Gives (final : Progress K) (lo hi : Nat) : Source → Shared (Material K) → Prop
  | .fresh, m => final.IsFresh lo hi m
  | .fallback, m => final.fallback = some m
  | .record key, m => final.materials.find? key = some m

/-- What is handed down from a source; for the fallback this is nothing. -/
def Hands (final : Progress K) (lo hi : Nat) : Source → Option (Shared (Material K)) → Prop
  | .fresh, m => ∃ m', m = some m' ∧ final.IsFresh lo hi m'
  | .fallback, m => m = none
  | .record key, m => ∃ m', m = some m' ∧ final.materials.find? key = some m'

section Laws

variable {final p q : Progress K} {lo hi lo' hi' : Nat} {m m' : Shared (Material K)} {s s' : Source}

theorem IsFresh.mono (h : final.IsFresh lo hi m) (hlo : lo' ≤ lo) (hhi : hi ≤ hi') :
    final.IsFresh lo' hi' m :=
  ⟨h.notKept, Nat.le_trans hlo h.low, Nat.lt_of_lt_of_le h.high hhi⟩

theorem Gives.mono (h : final.Gives lo hi s m) (hlo : lo' ≤ lo) (hhi : hi ≤ hi') :
    final.Gives lo' hi' s m := by
  cases s with
  | fresh => exact IsFresh.mono h hlo hhi
  | fallback => exact h
  | record key => exact h

theorem Hands.mono {m : Option (Shared (Material K))} (h : final.Hands lo hi s m) (hhi : hi ≤ hi') :
    final.Hands lo hi' s m := by
  cases s with
  | fresh =>
    obtain ⟨m', rfl, hfresh⟩ := h
    exact ⟨m', rfl, hfresh.mono (Nat.le_refl _) hhi⟩
  | fallback => exact h
  | record key => exact h

/-- What is made without being kept is fresh. -/
theorem IsFresh.of_plain (h : p.Plain q) (hq : q.Orders final) (hp : p.library.KeepsNumbers)
    (hordered : p.Orderly) (hlow : p.arena.next ≤ m.id) (hhigh : m.id < q.arena.next) :
    final.IsFresh p.arena.next q.arena.next m :=
  ⟨not_keeps_of_plain h hq hp hordered hlow hhigh, hlow, hhigh⟩

theorem Gives.keeps_iff (h : final.Gives lo hi s m) : final.Keeps m.id ↔ s ≠ .fresh := by
  cases s with
  | fresh =>
    have hfresh : final.IsFresh lo hi m := h
    simp [hfresh.notKept]
  | fallback => exact ⟨fun _ => Source.noConfusion, fun _ => .inr ⟨m, h, rfl⟩⟩
  | record key => exact ⟨fun _ => Source.noConfusion, fun _ => .inl ⟨key, m, h, rfl⟩⟩

/-- The numbers of kept materials tell their sources apart. -/
theorem Gives.id_eq_iff (hordered : final.Orderly) (h : final.Gives lo hi s m)
    (h' : final.Gives lo' hi' s' m') (hs : s ≠ .fresh) (hs' : s' ≠ .fresh) :
    m.id = m'.id ↔ s = s' := by
  cases s with
  | fresh => exact absurd rfl hs
  | fallback =>
    cases s' with
    | fresh => exact absurd rfl hs'
    | fallback =>
      obtain rfl : m = m' := Option.some.inj (h.symm.trans h')
      exact ⟨fun _ => rfl, fun _ => rfl⟩
    | record key' =>
      have hne : m'.id ≠ m.id := hordered.fallback h' h
      exact ⟨fun heq => absurd heq.symm hne, fun heq => by cases heq⟩
  | record key =>
    cases s' with
    | fresh => exact absurd rfl hs'
    | fallback =>
      have hne : m.id ≠ m'.id := hordered.fallback h h'
      exact ⟨fun heq => absurd heq hne, fun heq => by cases heq⟩
    | record key' =>
      constructor
      · intro heq
        rw [hordered.materials h h' heq]
      · rintro ⟨⟩
        rw [Option.some.inj (h.symm.trans h')]

end Laws

end Progress

variable [Scalar K]

namespace Walk

/-! ## 3. Actions -/

/-- What a scope holds comes from where it should. -/
structure Supplies (d : Document K) (final : Progress K) (lo hi : Nat) (s : Source)
    (chain : List String) (scope : Inherited K) : Prop where
  material : final.Hands lo hi s scope.material
  texture : scope.texture = d.effectiveTexture? final.textures chain

theorem Supplies.mono {d : Document K} {final : Progress K} {lo hi hi' : Nat} {s : Source}
    {chain : List String} {scope : Inherited K} (h : Supplies d final lo hi s chain scope)
    (hhi : hi ≤ hi') : Supplies d final lo hi' s chain scope :=
  ⟨h.material.mono hhi, h.texture⟩

/-- A walk goes on from here in good order. -/
structure InOrder (c : Setting K) (final p : Progress K) : Prop where
  numbers : p.library.KeepsNumbers
  orderly : p.Orderly
  sound : Sound c final p

theorem InOrder.orders {c : Setting K} {final p q : Progress K} (hp : InOrder c final p)
    (h : p.Orders q) (hsound : Sound c final q) : InOrder c final q :=
  ⟨h.keepsNumbers hp.numbers, h.orderly hp.numbers hp.orderly, hsound⟩

section Actions

variable {c : Setting K} {final p q : Progress K} {lo : Nat} {scope inherited : Inherited K}
  {path chain : List String} {id : String} {e : Element K} {m : Shared (Material K)}

/-- An element without a record hands on what it is handed. -/
theorem materialOf_inherits {m : Option (Shared (Material K))}
    (h : materialOf c e inherited p = (m, q)) (hp : Sound c final p)
    (hid : c.document.elements.find? id = some e) (hkey : c.document.recordKey? id = none) :
    m = inherited.material := by
  rw [Document.recordKey?_eq hid] at hkey
  cases hmaterial : e.material with
  | none =>
    rw [materialOf_inherited hmaterial] at h
    cases h
    rfl
  | some key =>
    rw [hmaterial, Option.filter_some] at hkey
    cases hspec : c.document.materials.find? key with
    | none =>
      have hnone : p.materials.find? key = none := by
        by_contra hkept
        obtain ⟨m', hkept⟩ := Option.ne_none_iff_exists'.mp hkept
        obtain ⟨spec, hspec', -⟩ := hp.materials hkept
        rw [hspec] at hspec'
        cases hspec'
      rw [materialOf_missing hmaterial hnone hspec] at h
      cases h
      rfl
    | some spec => simp [Table.contains, hspec] at hkey

/-- An element with a record has the material that is kept for it. -/
theorem materialOf_keeps {m : Option (Shared (Material K))} {key : String}
    (h : materialOf c e inherited p = (m, q)) (hq : q.Extends final)
    (hid : c.document.elements.find? id = some e) (hkey : c.document.recordKey? id = some key) :
    ∃ m', m = some m' ∧ final.materials.find? key = some m' := by
  rw [Document.recordKey?_eq hid, Option.filter_eq_some_iff] at hkey
  obtain ⟨hmaterial, hcontains⟩ := hkey
  obtain ⟨spec, hspec⟩ := Option.isSome_iff_exists.mp hcontains
  cases hkept : p.materials.find? key with
  | some m' =>
    rw [materialOf_kept hmaterial hkept] at h
    cases h
    exact ⟨m', rfl, hq.materials hkept⟩
  | none =>
    obtain ⟨m', faults, r, a, -, heq⟩ := materialOf_build inherited hmaterial hkept hspec
    rw [heq] at h
    cases h
    refine ⟨_, rfl, hq.materials ?_⟩
    show (p.materials.insert key ⟨a.next, m'⟩).find? key = some ⟨a.next, m'⟩
    rw [Table.find?_insert, if_pos rfl]

theorem materialOf_hands {m : Option (Shared (Material K))}
    (h : materialOf c e inherited p = (m, q)) (hq : q.Extends final) (hp : Sound c final p)
    (hid : c.document.elements.find? id = some e) {hi : Nat}
    (hs : final.Hands lo hi (c.document.handedDown path) inherited.material) :
    final.Hands lo hi (c.document.held (id :: path)) m := by
  cases hkey : c.document.recordKey? id with
  | none =>
    rw [Document.held_cons_none hkey, materialOf_inherits h hp hid hkey]
    exact hs
  | some key =>
    rw [Document.held_cons_some hkey]
    exact materialOf_keeps h hq hid hkey

theorem Entered.supplies {parent : Shared (Affine K)} {own : SceneNode K}
    (h : Entered c parent inherited path id p e scope own q) (hq : q.Orders final)
    (hp : InOrder c final p)
    (hs : Supplies c.document final lo p.arena.next (c.document.handedDown path) path inherited) :
    Supplies c.document final lo q.arena.next (c.document.held (id :: path)) (id :: path)
      scope := by
  have hnumbers := h.works.numbers hp.numbers
  obtain ⟨p₂, a, hscope, hnext, rfl⟩ := h.scope_made
  obtain ⟨p₁, hmaterial, htexture, -, -⟩ := scopeOf_parts hscope
  have hplain₁ := plain_textureOf e inherited p₁
  rw [htexture] at hplain₁
  have hplain₂ : p₂.Plain { p₂.noting (TransformStep.faults e.transforms) with arena := a } :=
    (Progress.Plain.noting fun d => TransformStep.isReference_of_mem_faults).trans
      (Progress.Plain.arena hnext)
  have hfinal₂ : p₂.Extends final := hplain₂.toExtends.trans hq.toExtends
  have hfinal₁ : p₁.Extends final := hplain₁.toExtends.trans hfinal₂
  refine ⟨(materialOf_hands hmaterial hfinal₁ hp.sound h.found hs.material).mono hnumbers, ?_⟩
  rw [Document.effectiveTexture?_cons h.found, textureOf_eq htexture hfinal₂, hs.texture]

/-- The scope of a level has a fresh duplicate. -/
theorem levelScope_supplies {own : Inherited K} {hi : Nat} {s : Source}
    (h : levelScope scope p = (own, q)) (hq : q.Orders final) (hp : InOrder c final p)
    (hs : Supplies c.document final lo hi s chain scope) :
    Supplies c.document final p.arena.next q.arena.next s.duplicated chain own := by
  have hplain := plain_levelScope scope p
  rw [h] at hplain
  obtain ⟨material, texture, cast, receive⟩ := scope
  obtain ⟨hmaterial, htexture⟩ := hs
  have hfresh : ∀ m : Shared (Material K), material = some m →
      Supplies c.document final p.arena.next q.arena.next .fresh chain own := by
    rintro m rfl
    cases h
    exact ⟨⟨_, rfl, .of_plain hplain hq hp.numbers hp.orderly (Nat.le_succ _)
      (Nat.lt_succ_self _)⟩, htexture⟩
  cases s with
  | fresh =>
    obtain ⟨m, hm, -⟩ := hmaterial
    exact hfresh m hm
  | fallback =>
    obtain rfl : material = none := hmaterial
    cases h
    exact ⟨rfl, htexture⟩
  | record key =>
    obtain ⟨m, hm, -⟩ := hmaterial
    exact hfresh m hm

/-- A duplicate for a surface takes new numbers and is not kept. -/
theorem surfaceMaterial_fresh {m' : Shared (Material K)} {t : Shared (Texture K)}
    (h : surfaceMaterial c scope p = (m, q)) (hmaterial : scope.material = some m')
    (htexture : scope.texture = some t) (hq : q.Orders final) (hp : InOrder c final p) :
    final.IsFresh p.arena.next q.arena.next m := by
  obtain ⟨material, texture, cast, receive⟩ := scope
  obtain rfl : material = some m' := hmaterial
  obtain rfl : texture = some t := htexture
  have hplain := plain_surfaceMaterial c m' (some t) cast receive p
  rw [h] at hplain
  obtain ⟨map, b, hmapped⟩ : ∃ map b, ({ m'.value with serial := p.arena.next }).mapped t
      { p.arena with next := p.arena.next + 1 } = (map, b) := ⟨_, _, rfl⟩
  have hnext := Material.mapped_next { m'.value with serial := p.arena.next } t
    { p.arena with next := p.arena.next + 1 }
  rw [hmapped] at hnext
  rw [surfaceMaterial_textured hmapped] at h
  cases h
  have hlow : p.arena.next ≤ b.next := Nat.le_trans (Nat.le_succ _) hnext
  exact .of_plain hplain hq hp.numbers hp.orderly hlow (Nat.lt_succ_self _)

theorem surfaceMaterial_gives (h : surfaceMaterial c scope p = (m, q)) (hq : q.Orders final)
    (hp : InOrder c final p) (hlo : lo ≤ p.arena.next)
    (hs : Supplies c.document final lo p.arena.next (c.document.held chain) chain scope) :
    final.Gives lo q.arena.next (c.document.source final.textures chain) m := by
  obtain ⟨material, texture, cast, receive⟩ := scope
  obtain ⟨hmaterial, htexture⟩ := hs
  unfold Document.source
  rw [← htexture]
  have hduplicate : ∀ m' t, material = some m' → texture = some t →
      final.IsFresh lo q.arena.next m := fun m' t hm' ht =>
    (surfaceMaterial_fresh h hm' ht hq hp).mono hlo (Nat.le_refl _)
  cases hheld : c.document.held chain with
  | fallback =>
    rw [hheld] at hmaterial
    obtain rfl : material = none := hmaterial
    obtain ⟨-, hkept, -⟩ := fallbackMaterial_eq h hp.sound
    exact hq.fallback hkept
  | fresh =>
    rw [hheld] at hmaterial
    obtain ⟨m', rfl, hfresh⟩ := hmaterial
    cases texture with
    | some t => exact hduplicate m' t rfl rfl
    | none => cases h; exact hfresh
  | record key =>
    rw [hheld] at hmaterial
    obtain ⟨m', rfl, hkept⟩ := hmaterial
    cases texture with
    | some t => exact hduplicate m' t rfl rfl
    | none => cases h; exact hkept

/-- The material of a face is new, and so are those of the faces after it. -/
theorem faceMaterials_cons {spec : SkyboxSpec K} {face : Option String}
    {rest : List (Option String)} {ms : List (Shared (Material K))}
    (h : faceMaterials spec (face :: rest) p = (ms, q)) :
    ∃ p' m a ms', p.Plain p' ∧ p'.arena.next ≤ m.id ∧ m.id < a.next ∧
      faceMaterials spec rest { p' with arena := a } = (ms', q) ∧ ms = m :: ms' := by
  have hmade : ∀ {map : Option (Shared (Texture K))} {p' : Progress K}, p.Plain p' → (do
        let m ← onArena (do
          Arena.share (← Material.skyboxFace map spec.emissive spec.intensity))
        return m :: (← faceMaterials spec rest) : Walk K (List (Shared (Material K)))) p' = (ms, q) →
      ∃ p' m a ms', p.Plain p' ∧ p'.arena.next ≤ m.id ∧ m.id < a.next ∧
        faceMaterials spec rest { p' with arena := a } = (ms', q) ∧ ms = m :: ms' := by
    intro map p' hplain hrun
    cases hrun
    exact ⟨p', _, _, _, hplain, Nat.le_succ _, Nat.lt_succ_self _, rfl, rfl⟩
  unfold faceMaterials at h
  cases face with
  | none => exact hmade (.refl p) h
  | some id =>
    have hplain := plain_lookupTexture id p
    exact hmade hplain h

theorem faceMaterials_numbers {spec : SkyboxSpec K} {faces : List (Option String)}
    {ms : List (Shared (Material K))} (hp : p.library.KeepsNumbers)
    (h : faceMaterials spec faces p = (ms, q)) :
    ∀ m ∈ ms, p.arena.next ≤ m.id ∧ m.id < q.arena.next := by
  induction faces generalizing p ms with
  | nil => cases h; simp
  | cons face rest ih =>
    obtain ⟨p', m, a, ms', hplain, hlow, hhigh, hrest, rfl⟩ := faceMaterials_cons h
    have hle := hplain.numbers hp
    have hp' : ({ p' with arena := a } : Progress K).library.KeepsNumbers := hplain.keepsNumbers hp
    have hlater := (plain_faceMaterials spec rest { p' with arena := a }).numbers hp'
    rw [hrest] at hlater
    have hlater : a.next ≤ q.arena.next := hlater
    intro m' hm'
    rcases List.mem_cons.mp hm' with rfl | hm'
    · omega
    · obtain ⟨hlow', hhigh'⟩ := ih hp' hrest m' hm'
      have hlow' : a.next ≤ m'.id := hlow'
      omega

/-- The materials of faces are made one after the other. -/
theorem faceMaterials_pairwise {spec : SkyboxSpec K} {faces : List (Option String)}
    {ms : List (Shared (Material K))} (hp : p.library.KeepsNumbers)
    (h : faceMaterials spec faces p = (ms, q)) : ms.Pairwise fun m m' => m.id < m'.id := by
  induction faces generalizing p ms with
  | nil => cases h; exact .nil
  | cons face rest ih =>
    obtain ⟨p', m, a, ms', hplain, -, hhigh, hrest, rfl⟩ := faceMaterials_cons h
    have hp' : ({ p' with arena := a } : Progress K).library.KeepsNumbers := hplain.keepsNumbers hp
    refine List.pairwise_cons.mpr ⟨fun m' hm' => ?_, ih hp' hrest⟩
    exact Nat.lt_of_lt_of_le hhigh (faceMaterials_numbers hp' hrest m' hm').1

theorem groupMaterials_pairwise {shape : ShapeSpec K} {ms : List (Shared (Material K))}
    (h : groupMaterials shape p = (ms, q)) (hp : p.library.KeepsNumbers) :
    ms.Pairwise fun m m' => m.id < m'.id := by
  cases shape with
  | skybox spec => exact faceMaterials_pairwise hp h
  | _ => cases h; exact .nil

theorem groupMaterials_fresh {shape : ShapeSpec K} {ms : List (Shared (Material K))}
    (h : groupMaterials shape p = (ms, q)) (hq : q.Orders final) (hp : InOrder c final p) :
    ∀ m ∈ ms, final.IsFresh p.arena.next q.arena.next m := by
  have hplain := plain_groupMaterials shape p
  rw [h] at hplain
  intro m hm
  cases shape with
  | skybox spec =>
    obtain ⟨hlow, hhigh⟩ := faceMaterials_numbers hp.numbers h m hm
    exact .of_plain hplain hq hp.numbers hp.orderly hlow hhigh
  | _ => cases h; cases hm

end Actions

section Order

variable {c : Setting K} {final p q : Progress K} {parent : Shared (Affine K)}
  {inherited : Inherited K} {path : List String} {id : String}

theorem Entered.inOrder {e : Element K} {scope : Inherited K} {own : SceneNode K}
    (h : Entered c parent inherited path id p e scope own q) (hq : q.Orders final)
    (hp : InOrder c final p) : InOrder c final q :=
  hp.orders h.orders (h.fits hq.toExtends hp.sound).1

theorem InOrder.visited {n : Option (SceneNode K)}
    (h : visit c parent inherited path id p = (n, q)) (hq : q.Orders final)
    (hp : InOrder c final p) : InOrder c final q := by
  have hdressed := dressed_visit c final parent inherited path id p
  rw [h] at hdressed
  exact hp.orders (orders_of_visit h) (hdressed hq.toExtends hp.sound).1

end Order

end Walk

end SceneAssembly
