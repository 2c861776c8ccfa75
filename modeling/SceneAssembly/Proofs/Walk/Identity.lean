/-
  SceneAssembly/Proofs/Walk/Identity.lean
  =======================================
  **A walk changes no object that it shares.**

  The ledger of all materials and textures is carried along a walk: each action
  continues it and leaves it right for the progress it ends with (`Lists`).  So
  what a number stood for when it was handed out, by the walk or before it, is
  what it stands for in the nodes of the end (`records_visit`).
-/
import SceneAssembly.Proofs.Ledger
import SceneAssembly.Proofs.Walk.Growth
import SceneAssembly.Proofs.Walk.Places

namespace SceneAssembly

variable {K : Type}

/-- The materials that a node is drawn with. -/
def SceneNode.materials (n : SceneNode K) : List (Shared (Material K)) :=
  n.mesh.toList.flatMap fun mesh => mesh.material :: mesh.groupMaterials

/-! ## 1. Ledgers for a walk -/

namespace Ledger

variable {L L' : Ledger K}

structure HasInherited (L : Ledger K) (scope : Inherited K) : Prop where
  material : ∀ m ∈ scope.material, L.HasMaterial m
  texture : L.HasOptional scope.texture

def HasNode (L : Ledger K) (n : SceneNode K) : Prop := ∀ m ∈ n.materials, L.HasMaterial m

theorem HasInherited.mono {scope : Inherited K} (h : L.HasInherited scope) (hL : L.Extends L') :
    L'.HasInherited scope where
  material m hm := (h.material m hm).mono hL
  texture := h.texture.mono hL

theorem HasNode.mono {n : SceneNode K} (h : L.HasNode n) (hL : L.Extends L') : L'.HasNode n :=
  fun m hm => (h m hm).mono hL

theorem hasNode_of_mesh {n : SceneNode K} (h : n.mesh = none) : L.HasNode n := by
  intro m hm
  simp [SceneNode.materials, h] at hm

theorem hasInherited_nothing : L.HasInherited .nothing where
  material := by rintro m ⟨⟩
  texture := by rintro t ⟨⟩

end Ledger

/-- A ledger is right for the progress of a walk: it is right for the registry, and it has the
    materials that are kept. -/
structure Lists (L : Ledger K) (p : Progress K) : Prop where
  textures : ListsTextures L (p.registry, p.arena)
  materials : ∀ id m, p.materials.find? id = some m → L.HasMaterial m
  fallback : ∀ m ∈ p.fallback, L.HasMaterial m
  numbers : p.library.KeepsNumbers

section Lists

variable {L : Ledger K} {p : Progress K}

theorem Lists.noting (h : Lists L p) (ds : List (Diagnostic K)) : Lists L (p.noting ds) :=
  ⟨h.textures, h.materials, h.fallback, h.numbers⟩

theorem Lists.counting (h : Lists L p) : Lists L p.counting :=
  ⟨h.textures, h.materials, h.fallback, h.numbers⟩

end Lists

namespace Walk

/-! ## 2. Actions -/

section Actions

variable {α : Type} {L : Ledger K} {R : Ledger K → α → Prop}

theorem records_report (d : Diagnostic K) : Records Lists L (report d) fun _ _ => True :=
  fun _ hp => ⟨L, .refl L, hp.noting [d], trivial⟩

theorem records_reportAll (ds : List (Diagnostic K)) :
    Records Lists L (reportAll ds) fun _ _ => True :=
  fun _ hp => ⟨L, .refl L, hp.noting ds, trivial⟩

theorem records_onTextures {step : Texturing K α} (h : Records ListsTextures L step R) :
    Records Lists L (onTextures step) R := by
  intro p hp
  obtain ⟨L', hL, htextures, hR⟩ := h (p.registry, p.arena) hp.textures
  refine ⟨L', hL, ⟨htextures, ?_, ?_, hp.numbers⟩, hR⟩
  · intro id m hm
    exact (hp.materials id m hm).mono hL
  · intro m hm
    exact (hp.fallback m hm).mono hL

theorem records_onArena {step : StateM Arena α} (h : Records FreeIn L step R) :
    Records Lists L (onArena step) R :=
  records_onTextures (records_textures h)

theorem records_levelScope {scope : Inherited K} (h : L.HasInherited scope) :
    Records Lists L (levelScope scope) Ledger.HasInherited := by
  obtain ⟨material, texture, cast, receive⟩ := scope
  cases material with
  | none => exact .pure h
  | some m =>
    have hm : L.HasMaterial m := h.material m rfl
    have hown : Records Lists L (onArena (do Arena.share (← m.value.duplicate)))
        Ledger.HasMaterial :=
      records_onArena (.bind (records_duplicate hm.maps) fun _ _ _ hmaps => records_share hmaps)
    refine .bind hown fun own L' hL hown => .pure ⟨?_, h.texture.mono hL⟩
    rintro _ ⟨⟩
    exact hown

end Actions

section Materials

variable [Scalar K] {L : Ledger K} {c : Setting K} {scope inherited : Inherited K}

theorem records_lookupTexture (id : String) :
    Records Lists L (lookupTexture (K := K) id) Ledger.HasOptional := by
  refine .bind (records_onTextures (records_resolve id)) fun t L' _ ht => ?_
  cases t with
  | some t => exact .pure ht
  | none => exact .bind (records_report _) fun _ _ _ _ => .pure (by rintro _ ⟨⟩)

theorem records_textureOf (e : Element K) (h : L.HasInherited inherited) :
    Records Lists L (textureOf e inherited) Ledger.HasOptional := by
  unfold textureOf
  cases e.texture with
  | none => exact .pure h.texture
  | some id =>
    refine .bind (records_lookupTexture id) fun t L' hL ht => ?_
    cases t with
    | some t => exact .pure ht
    | none => exact .pure (h.texture.mono hL)

theorem records_materialOf (c : Setting K) (e : Element K) (h : L.HasInherited inherited) :
    Records Lists L (materialOf c e inherited) fun L m => ∀ m' ∈ m, L.HasMaterial m' := by
  intro p hp
  cases hid : e.material with
  | none =>
    rw [materialOf_inherited hid]
    exact ⟨L, .refl L, hp, h.material⟩
  | some id =>
    cases hkept : p.materials.find? id with
    | some m =>
      rw [materialOf_kept hid hkept]
      refine ⟨L, .refl L, hp, ?_⟩
      rintro _ ⟨⟩
      exact hp.materials id m hkept
    | none =>
      cases hspec : c.document.materials.find? id with
      | none =>
        rw [materialOf_missing hid hkept hspec]
        exact ⟨L, .refl L, hp.noting _, h.material⟩
      | some spec =>
        obtain ⟨m, faults, r, a, hbuild, heq⟩ := materialOf_build inherited hid hkept hspec
        obtain ⟨L₁, hL₁, hp₁, hmaps⟩ := records_onTextures (records_build spec) p hp
        obtain ⟨L₂, hL₂, hp₂, hm⟩ := records_onArena (records_share hmaps) _ hp₁
        simp only [onTextures, onArena_share, hbuild] at hp₂ hm
        rw [heq]
        refine ⟨L₂, hL₁.trans hL₂, ⟨hp₂.textures, ?_, hp₂.fallback, hp₂.numbers⟩, ?_⟩
        · intro id' m' hm'
          have hm' : (p.materials.insert id ⟨a.next, m⟩).find? id' = some m' := hm'
          rw [Table.find?_insert] at hm'
          split at hm'
          · cases hm'
            exact hm
          · exact hp₂.materials id' m' hm'
        · rintro _ ⟨⟩
          exact hm

theorem records_scopeOf (c : Setting K) (e : Element K) (h : L.HasInherited inherited) :
    Records Lists L (scopeOf c e inherited) Ledger.HasInherited := by
  refine .bind (records_materialOf c e h) fun m L₁ hL₁ hm => ?_
  refine .bind (records_textureOf e (h.mono hL₁)) fun t L₂ hL₂ ht => .pure ⟨?_, ht⟩
  intro m' hm'
  exact (hm m' hm').mono hL₂

theorem records_fallbackMaterial (c : Setting K) :
    Records Lists L (fallbackMaterial c) Ledger.HasMaterial := by
  intro p hp
  obtain ⟨arena, registry, library, materials, fallback, report⟩ := p
  cases fallback with
  | some m => exact ⟨L, .refl L, hp, hp.fallback m rfl⟩
  | none =>
    have hmade : Records Lists L
        (onArena (do Arena.share (← Material.fallback c.settings.fallbackColor)))
        Ledger.HasMaterial :=
      records_onArena (.bind (records_fallback _) fun _ _ _ hmaps => records_share hmaps)
    obtain ⟨L', hL, hp', hm⟩ := hmade _ hp
    refine ⟨L', hL, ⟨hp'.textures, hp'.materials, ?_, hp'.numbers⟩, hm⟩
    rintro _ ⟨⟩
    exact hm

theorem records_surfaceMaterial (c : Setting K) (h : L.HasInherited scope) :
    Records Lists L (surfaceMaterial c scope) Ledger.HasMaterial := by
  obtain ⟨material, texture, cast, receive⟩ := scope
  cases material with
  | none => exact records_fallbackMaterial c
  | some m =>
    have hm : L.HasMaterial m := h.material m rfl
    cases texture with
    | none => exact .pure hm
    | some t =>
      have ht : L.HasTexture t := h.texture t rfl
      refine records_onArena (.bind (records_duplicate hm.maps) fun m' L₁ hL₁ hmaps => ?_)
      refine .bind (records_attachMap hmaps (ht.mono hL₁)) fun m' L₂ _ hmaps => ?_
      exact records_share hmaps

end Materials

/-! ## 3. Nodes -/

section Nodes

variable [Scalar K] {L : Ledger K} {c : Setting K} {scope inherited : Inherited K}
  {n : SceneNode K}

theorem records_faceMaterials (spec : SkyboxSpec K) (faces : List (Option String)) :
    Records Lists L (faceMaterials spec faces) fun L ms => ∀ m ∈ ms, L.HasMaterial m := by
  induction faces generalizing L with
  | nil => exact .pure (by simp)
  | cons face rest ih =>
    have hmade : ∀ {L : Ledger K} {map : Option (Shared (Texture K))}, L.HasOptional map →
        Records Lists L (do
          let m ← onArena (do
            Arena.share (← Material.skyboxFace map spec.emissive spec.intensity))
          return m :: (← faceMaterials spec rest)) fun L ms => ∀ m ∈ ms, L.HasMaterial m := by
      intro L map hmap
      have hface := records_skyboxFace hmap spec.emissive spec.intensity
      refine .bind (records_onArena (.bind hface fun _ _ _ hmaps => records_share hmaps)) ?_
      intro m L₁ _ hm
      refine .bind ih fun ms L₂ hL₂ hms => .pure ?_
      simp only [List.mem_cons, forall_eq_or_imp]
      exact ⟨hm.mono hL₂, hms⟩
    unfold faceMaterials
    cases face with
    | none => exact hmade (by rintro _ ⟨⟩)
    | some id => exact .bind (records_lookupTexture id) fun map L' _ hmap => hmade hmap

theorem records_groupMaterials (shape : ShapeSpec K) :
    Records Lists L (groupMaterials shape) fun L ms => ∀ m ∈ ms, L.HasMaterial m := by
  cases shape with
  | skybox spec => exact records_faceMaterials spec _
  | _ => exact .pure (by simp)

theorem records_attachMesh (h : L.HasInherited scope) (hn : n.mesh = none)
    (shape : ShapeSpec K) :
    Records Lists L (attachMesh c scope shape n) Ledger.HasNode := by
  unfold attachMesh
  cases shape.build c.settings with
  | error d =>
    exact .bind (records_report d) fun _ L' _ _ => .pure (Ledger.hasNode_of_mesh hn)
  | ok g =>
    have hgeometry : Records FreeIn L (Arena.share g) fun _ _ => True :=
      records_numbers fun a => Nat.le_succ _
    refine .bind (records_onArena hgeometry) fun geometry L₁ hL₁ _ => ?_
    refine .bind (records_surfaceMaterial c (h.mono hL₁)) fun material L₂ _ hmaterial => ?_
    refine .bind (records_groupMaterials shape) fun groups L₃ hL₃ hgroups => .pure ?_
    intro m hm
    simp only [SceneNode.materials, Option.toList_some, List.flatMap_singleton, List.mem_cons] at hm
    rcases hm with rfl | hm
    · exact hmaterial.mono hL₃
    · exact hgroups m hm

/-- An instance of a model takes numbers, and leaves textures and materials alone. -/
theorem records_instantiate (path assetDir : String) (world : Shared (Affine K)) :
    Records Lists L (onLibrary (·.instantiate path assetDir world)) fun _ _ => True := by
  intro p hp
  obtain ⟨result, library, arena, heq⟩ : ∃ result library arena,
      p.library.instantiate path assetDir world p.arena = ((result, library), arena) :=
    ⟨_, _, _, rfl⟩
  obtain ⟨found, b, hserved, hcases⟩ := ModelLibrary.instantiate_served heq
  have hnext : p.arena.next ≤ arena.next := by
    rcases hcases with ⟨d, -, -, rfl⟩ | ⟨t, m, -, hrebase, -⟩
    · exact hserved.next hp.numbers
    · have hrebased := SceneNode.rebase_next world t.value.root b
      rw [hrebase] at hrebased
      exact Nat.le_trans (hserved.next hp.numbers) hrebased
  have hrun : onLibrary (·.instantiate path assetDir world) p =
      (result, { p with library := library, arena := arena }) := by
    simp only [onLibrary, heq]
  rw [hrun]
  refine ⟨L, .refl L, ⟨⟨hp.textures.free.mono hnext, hp.textures.handles⟩, hp.materials,
    hp.fallback, ?_⟩, trivial⟩
  intro load hload
  rw [hserved.loader] at hload
  exact hp.numbers load hload

theorem records_attachModel (hn : n.mesh = none) (path : String) :
    Records Lists L (attachModel c scope path n) Ledger.HasNode := by
  refine .bind (records_instantiate path c.settings.assetDir n.world) fun result L' _ _ => ?_
  cases result with
  | error d =>
    exact .bind (records_report d) fun _ _ _ _ => .pure (Ledger.hasNode_of_mesh hn)
  | ok model => exact .pure (Ledger.hasNode_of_mesh hn)

theorem records_attachShape (h : L.HasInherited scope) (hn : n.mesh = none)
    (shape : ShapeSpec K) :
    Records Lists L (attachShape c scope shape n) Ledger.HasNode := by
  cases shape with
  | model path => exact records_attachModel hn path
  | _ => exact records_attachMesh h hn _

theorem records_attachLight (hn : n.mesh = none) (spec : LightSpec K) :
    Records Lists L (attachLight spec n) Ledger.HasNode := by
  unfold attachLight
  cases Light.ofSpec spec with
  | error d =>
    exact .bind (records_report d) fun _ _ _ _ => .pure (Ledger.hasNode_of_mesh hn)
  | ok light => exact .pure (Ledger.hasNode_of_mesh hn)

theorem records_enter (parent : Shared (Affine K)) (h : L.HasInherited inherited) (id : String)
    (e : Element K) :
    Records Lists L (enter c parent inherited id e) fun L x => L.HasInherited x.1 := by
  refine .bind (records_scopeOf c e h) fun scope L₁ _ hscope => ?_
  refine .bind (records_reportAll _) fun _ L₂ hL₂ _ => ?_
  have hplaced : Records FreeIn L₂
      (SceneNode.placed id parent (TransformStep.placement? e.transforms)) fun _ _ => True :=
    records_numbers fun a => SceneNode.placeIn_next parent _ a
  exact .bind (records_onArena hplaced) fun _ L₃ hL₃ _ => .pure ((hscope.mono hL₂).mono hL₃)

end Nodes

/-! ## 4. Visits -/

/-- What every step continues the ledger for, all steps together do. -/
theorem Steps.records {α β : Type} {R : α → Progress K → β → Progress K → Prop}
    {J : Ledger K → α → β → Prop} {L : Ledger K} {as : List α} {bs : List β} {p q : Progress K}
    (hmono : ∀ {L L' a b}, J L a b → L.Extends L' → J L' a b)
    (h : ∀ L' a p b q, L.Extends L' → R a p b q → Lists L' p →
      ∃ L'', L'.Extends L'' ∧ Lists L'' q ∧ J L'' a b)
    (hs : Steps R as p bs q) (hp : Lists L p) :
    ∃ L', L.Extends L' ∧ Lists L' q ∧ List.Forall₂ (J L') as bs := by
  induction hs generalizing L with
  | nil p => exact ⟨L, .refl L, hp, .nil⟩
  | cons hstep _ ih =>
    obtain ⟨L₁, hL₁, hq, hj⟩ := h L _ _ _ _ (.refl L) hstep hp
    obtain ⟨L₂, hL₂, hr, hall⟩ := ih (fun L' a p b q hL => h L' a p b q (hL₁.trans hL)) hq
    exact ⟨L₂, hL₁.trans hL₂, hr, .cons (hmono hj hL₂) hall⟩

variable [Scalar K]

theorem Entered.records {c : Setting K} {parent : Shared (Affine K)} {inherited : Inherited K}
    {path : List String} {id : String} {p q : Progress K} {e : Element K} {scope : Inherited K}
    {own : SceneNode K} {L : Ledger K} (h : Entered c parent inherited path id p e scope own q)
    (hp : Lists L p) (hinherited : L.HasInherited inherited) :
    ∃ L', L.Extends L' ∧ Lists L' q ∧ L'.HasInherited scope := by
  have hrecords := records_enter (c := c) parent hinherited id e p hp
  rwa [h.entered] at hrecords

/-- **What a visit makes is in a ledger that continues any right one.** -/
theorem records_visit (c : Setting K) (parent : Shared (Affine K)) (inherited : Inherited K)
    (path : List String) (id : String) (p : Progress K) :
    ∀ L : Ledger K, Lists L p → L.HasInherited inherited →
      ∃ L', L.Extends L' ∧ Lists L' (visit c parent inherited path id p).2 ∧
        Holds c.document (fun place => L'.HasNode place.node) path id
          (visit c parent inherited path id p).1 := by
  refine visit_induction (P := fun _ inherited path id p n q => ∀ L : Ledger K, Lists L p →
      L.HasInherited inherited → ∃ L', L.Extends L' ∧ Lists L' q ∧
        Holds c.document (fun place => L'.HasNode place.node) path id n)
    ?leftOut ?group ?primitive ?light ?lod parent inherited path id p
  case leftOut =>
    intro _ inherited path id p q d _ hq L hp hinherited
    rcases hq with rfl | ⟨e, scope, own, hentered⟩
    · exact ⟨L, .refl L, hp.noting [d], .none⟩
    · obtain ⟨L', hL, hq, -⟩ := hentered.records hp hinherited
      exact ⟨L', hL, hq.noting [d], .none⟩
  case group =>
    intro _ inherited path id p e scope own q children built r hentered hkind hsteps L hp hinherited
    obtain ⟨L₁, hL₁, hq, hscope⟩ := hentered.records hp hinherited
    obtain ⟨L₂, hL₂, hr, hbelow⟩ := hsteps.records
      (J := fun L id' n => Holds c.document (fun place => L.HasNode place.node) (id :: path) id' n)
      (fun h hL => h.mono fun _ hnode => hnode.mono hL)
      (fun L' _ _ _ _ hL hstep hp' => hstep.2 L' hp' (hscope.mono hL)) hq
    refine ⟨L₂, hL₁.trans hL₂, hr.counting, ?_⟩
    exact .branches hentered.own_name (Ledger.hasNode_of_mesh hentered.own_mesh)
      (hentered.branches_group hbelow)
  case primitive =>
    intro _ inherited path id p e scope own q shape n r hentered hkind hattach L hp hinherited
    obtain ⟨L₁, hL₁, hq, hscope⟩ := hentered.records hp hinherited
    obtain ⟨L₂, hL₂, hr, hnode⟩ :=
      records_attachShape (c := c) hscope hentered.own_mesh shape q hq
    rw [hattach] at hr hnode
    obtain ⟨hname, hleaf⟩ := hentered.attached hkind hattach
    exact ⟨L₂, hL₁.trans hL₂, hr.counting, .single hname hnode hleaf⟩
  case light =>
    intro _ inherited path id p e scope own q spec n r hentered _ hattach L hp hinherited
    obtain ⟨L₁, hL₁, hq, -⟩ := hentered.records hp hinherited
    obtain ⟨L₂, hL₂, hr, hnode⟩ := records_attachLight hentered.own_mesh spec q hq
    rw [hattach] at hr hnode
    obtain ⟨light, rfl⟩ := attachLight_eq hattach
    exact ⟨L₂, hL₁.trans hL₂, hr.counting,
      .single hentered.own_name hnode (.inl hentered.own_branches)⟩
  case lod =>
    intro _ inherited path id p e scope own q levels built r hentered _ hsteps L hp hinherited
    obtain ⟨L₁, hL₁, hq, hscope⟩ := hentered.records hp hinherited
    obtain ⟨L₂, hL₂, hr, hbelow⟩ := hsteps.records
      (J := fun L level l => Holds c.document (fun place => L.HasNode place.node) (id :: path)
        level.target (l.map Level.node))
      (fun h hL => h.mono fun _ hnode => hnode.mono hL)
      (fun L' level p' _ _ hL hstep hp' => by
        obtain ⟨own', p'', hlevel, -, -, hholds⟩ := hstep.parts
        obtain ⟨L₂, hL₂, hp'', hown⟩ := records_levelScope (hscope.mono hL) p' hp'
        rw [hlevel] at hp'' hown
        obtain ⟨L₃, hL₃, hq', hnode⟩ := hholds L₂ hp'' hown
        exact ⟨L₃, hL₂.trans hL₃, hq', hnode⟩) hq
    refine ⟨L₂, hL₁.trans hL₂, hr.counting, ?_⟩
    exact .branches hentered.own_name (Ledger.hasNode_of_mesh hentered.own_mesh)
      (hentered.branches_lod hbelow)

end Walk

/-! ## 5. Workshops -/

/-- The textures of a registry are different objects, with numbers that the arena has given out. -/
structure TextureRegistry.InOrder (r : TextureRegistry K) (a : Arena) : Prop where
  given : ∀ {id t}, r.handles.find? id = some t → t.id < a.next
  apart : ∀ {id id' t t'}, r.handles.find? id = some t → r.handles.find? id' = some t' →
    t.id = t'.id → t = t'

theorem TextureRegistry.InOrder.ofRecords (records : Table TextureSpec) (assetDir : String)
    (loader : ImageLoader) (a : Arena) :
    (TextureRegistry.ofRecords (K := K) records assetDir loader).InOrder a where
  given ht := by cases ht
  apart ht := by cases ht

theorem ListsTextures.inOrder {L : Ledger K} {s : TextureRegistry K × Arena}
    (h : ListsTextures L s) : s.1.InOrder s.2 where
  given {id t} ht := by
    by_contra hnext
    have hfree := h.free t.id (Nat.le_of_not_lt hnext)
    rw [h.handles id t ht] at hfree
    cases hfree
  apart {id id' t t'} ht ht' hid :=
    Ledger.HasTexture.eq_of_id (.inl (h.handles id t ht)) (h.handles id' t' ht') hid

theorem TextureRegistry.InOrder.exists_ledger {r : TextureRegistry K} {a : Arena}
    (h : r.InOrder a) : ∃ L : Ledger K, ListsTextures L (r, a) := by
  have hentry : ∀ k, ∃ x : Option (LedgerEntry K), (a.next ≤ k → x = none) ∧
      ∀ id t, r.handles.find? id = some t → t.id = k → x = some (.registered t.value) := by
    intro k
    by_cases hk : ∃ id t, r.handles.find? id = some t ∧ t.id = k
    · obtain ⟨id, t, ht, rfl⟩ := hk
      refine ⟨some (.registered t.value), fun hnext => ?_, fun id' t' ht' hid => ?_⟩
      · exact absurd (h.given ht) (Nat.not_lt.mpr hnext)
      · rw [h.apart ht' ht hid]
    · refine ⟨none, fun _ => rfl, fun id t ht hid => ?_⟩
      exact absurd ⟨id, t, ht, hid⟩ hk
  choose L hfree hhandles using hentry
  exact ⟨L, hfree, fun id t ht => hhandles t.id id t ht rfl⟩

end SceneAssembly
