/-
  SceneAssembly/Proofs/Walk/Growth.lean
  =====================================
  **What a walk leaves as it was.**

  Whatever a walk does, the textures it has resolved, the materials it has made
  and the loader of its models stay (`Progress.Extends`).  All that it does at
  one element, short of leaving a reference out, also says nothing about
  references in the report (`Progress.Works`), and most of it makes no material
  to be used again (`Progress.Plain`).

  Each action of a walk is put together from a few changes; the laws of these
  and of composition (`Does.bind`) give the law of each action.
-/
import Mathlib.Order.Defs.Unbundled
import SceneAssembly.Proofs.Materials.Building
import SceneAssembly.Proofs.Models
import SceneAssembly.Proofs.Nodes
import SceneAssembly.Proofs.Walk.Visits

namespace SceneAssembly

variable {K : Type}

/-! ## 1. References in the report -/

/-- Does a diagnostic say why a reference was left out? -/
def Diagnostic.isReference : Diagnostic K → Bool
  | missingElement _ | cycle _ | tooDeep _ _ | unsupportedKind _ _ => true
  | _ => false

/-- What a report says about references, in order. -/
def Report.references (r : Report K) : List (Diagnostic K) :=
  r.diagnostics.filter Diagnostic.isReference

/-- A loader of models does not speak of references in a document. -/
abbrev ModelLibrary.IsSilent (l : ModelLibrary K) : Prop :=
  l.FailsOnly fun d => d.isReference = false

theorem isReference_of_leftOut? {c : Setting K} {path : List String} {id : String}
    {d : Diagnostic K} (h : leftOut? c path id = some d) : d.isReference = true := by
  unfold leftOut? at h
  split at h
  · cases h; rfl
  · split at h
    · cases h; rfl
    · split at h
      · cases h; rfl
      · split at h
        · cases h; rfl
        · cases h

theorem TransformStep.eq_of_mem_faults {steps : List (TransformStep K)} {d : Diagnostic K}
    (h : d ∈ TransformStep.faults steps) : ∃ tag, d = .unsupportedTransform tag := by
  obtain ⟨step, -, hstep⟩ := List.mem_filterMap.mp h
  cases step with
  | unsupported tag => cases hstep; exact ⟨tag, rfl⟩
  | _ => cases hstep

theorem TransformStep.isReference_of_mem_faults {steps : List (TransformStep K)}
    {d : Diagnostic K} (h : d ∈ TransformStep.faults steps) : d.isReference = false := by
  obtain ⟨tag, rfl⟩ := eq_of_mem_faults h
  rfl

section Faults

variable [Scalar K]

/-- What can be wrong with a shape. -/
theorem ShapeSpec.build_error {settings : Settings K} {shape : ShapeSpec K} {d : Diagnostic K}
    (h : shape.build settings = .error d) :
    (∃ cause, d = .degenerate cause) ∨ (∃ cause, d = .invalidSurface cause) ∨
      ∃ name, d = .unsupportedShape name := by
  unfold ShapeSpec.build at h
  cases hshape : shape.complete settings with
  | rectangle r =>
    rw [hshape, buildAsWritten, RectangleSpec.build] at h
    split at h <;> cases h
    exact .inl ⟨_, rfl⟩
  | box b =>
    rw [hshape, buildAsWritten, BoxSpec.build] at h
    split at h <;> cases h
    exact .inl ⟨_, rfl⟩
  | triangle t =>
    rw [hshape, buildAsWritten, TriangleSpec.build] at h
    split at h <;> cases h
    exact .inl ⟨_, rfl⟩
  | surface s =>
    rw [hshape, buildAsWritten, SurfaceSpec.build] at h
    split at h
    · cases h
      exact .inr (.inl ⟨_, rfl⟩)
    · dsimp only at h
      split at h <;> cases h
      exact .inr (.inl ⟨_, rfl⟩)
  | track t =>
    rw [hshape, buildAsWritten, TrackSpec.build] at h
    split at h <;> cases h
    exact .inl ⟨_, rfl⟩
  | model path =>
    rw [hshape, buildAsWritten] at h
    cases h
    exact .inr (.inr ⟨_, rfl⟩)
  | unsupported name =>
    rw [hshape, buildAsWritten] at h
    cases h
    exact .inr (.inr ⟨_, rfl⟩)
  | _ => rw [hshape, buildAsWritten] at h; cases h

theorem ShapeSpec.isReference_of_build {settings : Settings K} {shape : ShapeSpec K}
    {d : Diagnostic K} (h : shape.build settings = .error d) : d.isReference = false := by
  rcases build_error h with ⟨_, rfl⟩ | ⟨_, rfl⟩ | ⟨_, rfl⟩
  · rfl
  · rfl
  · rfl

theorem Light.ofSpec_error {spec : LightSpec K} {d : Diagnostic K}
    (h : Light.ofSpec spec = .error d) : ∃ name, d = .unsupportedLight name := by
  obtain ⟨common, type⟩ := spec
  cases type with
  | unsupported name => cases h; exact ⟨name, rfl⟩
  | _ => cases h

theorem Light.isReference_of_ofSpec {spec : LightSpec K} {d : Diagnostic K}
    (h : Light.ofSpec spec = .error d) : d.isReference = false := by
  obtain ⟨name, rfl⟩ := ofSpec_error h
  rfl

end Faults

namespace Progress

theorem references_noting (p : Progress K) (ds : List (Diagnostic K)) :
    (p.noting ds).report.references =
      p.report.references ++ ds.filter Diagnostic.isReference := by
  simp only [noting, Report.references, List.filter_append]

/-! ## 2. Relations between progress before and after -/

/-- What is there stays. -/
structure Extends (p q : Progress K) : Prop where
  registry : p.registry.Extends q.registry
  materials : ∀ {id m}, p.materials.find? id = some m → q.materials.find? id = some m
  fallback : ∀ {m}, p.fallback = some m → q.fallback = some m
  loader : q.library.loader = p.library.loader
  models : ∀ {Q}, p.library.All Q → q.library.All Q
  numbers : p.library.KeepsNumbers → p.arena.next ≤ q.arena.next

/-- What is there stays, and the report says nothing new about references. -/
structure Works (p q : Progress K) : Prop extends Extends p q where
  silent : p.library.IsSilent → q.report.references = p.report.references

/-- Moreover, no material is kept for later. -/
structure Plain (p q : Progress K) : Prop extends Works p q where
  materials_eq : q.materials = p.materials
  fallback_eq : q.fallback = p.fallback

namespace Extends

variable {p q r : Progress K}

theorem refl (p : Progress K) : Extends p p :=
  ⟨.refl _, fun h => h, fun h => h, rfl, fun h => h, fun _ => Nat.le_refl _⟩

theorem keepsNumbers (h : Extends p q) (hp : p.library.KeepsNumbers) :
    q.library.KeepsNumbers := by
  intro load hload
  rw [h.loader] at hload
  exact hp load hload

theorem isSilent (h : Extends p q) (hp : p.library.IsSilent) : q.library.IsSilent := by
  intro load hload
  rw [h.loader] at hload
  exact hp load hload

theorem trans (h : Extends p q) (h' : Extends q r) : Extends p r where
  registry := h.registry.trans h'.registry
  materials hm := h'.materials (h.materials hm)
  fallback hm := h'.fallback (h.fallback hm)
  loader := h'.loader.trans h.loader
  models hQ := h'.models (h.models hQ)
  numbers hp := Nat.le_trans (h.numbers hp) (h'.numbers (h.keepsNumbers hp))

theorem noting (h : Extends p q) (ds : List (Diagnostic K)) : Extends p (q.noting ds) :=
  ⟨h.registry, h.materials, h.fallback, h.loader, h.models, h.numbers⟩

theorem counting (h : Extends p q) : Extends p q.counting :=
  ⟨h.registry, h.materials, h.fallback, h.loader, h.models, h.numbers⟩

theorem of_counting (h : Extends p.counting q) : Extends p q := (Extends.refl p).counting.trans h

end Extends

theorem Works.refl (p : Progress K) : Works p p := ⟨.refl p, fun _ => rfl⟩

theorem Works.trans {p q r : Progress K} (h : Works p q) (h' : Works q r) : Works p r where
  toExtends := h.toExtends.trans h'.toExtends
  silent hp := (h'.silent (h.isSilent hp)).trans (h.silent hp)

theorem Plain.refl (p : Progress K) : Plain p p := ⟨.refl p, rfl, rfl⟩

theorem Plain.trans {p q r : Progress K} (h : Plain p q) (h' : Plain q r) : Plain p r where
  toWorks := h.toWorks.trans h'.toWorks
  materials_eq := h'.materials_eq.trans h.materials_eq
  fallback_eq := h'.fallback_eq.trans h.fallback_eq

instance : IsPreorder (Progress K) Works where
  refl := .refl
  trans _ _ _ := .trans

instance : IsPreorder (Progress K) Plain where
  refl := .refl
  trans _ _ _ := .trans

/-! ## 3. Changes -/

section Changes

variable {p : Progress K}

theorem Plain.noting {ds : List (Diagnostic K)} (h : ∀ d ∈ ds, d.isReference = false) :
    Plain p (p.noting ds) := by
  refine ⟨⟨(Extends.refl p).noting ds, fun _ => ?_⟩, rfl, rfl⟩
  have hnone : ds.filter Diagnostic.isReference = [] := by
    simpa [List.filter_eq_nil_iff] using h
  rw [references_noting, hnone, List.append_nil]

theorem Plain.textures {x : TextureRegistry K × Arena}
    (h : Texturing.Growth (p.registry, p.arena) x) :
    Plain p { p with registry := x.1, arena := x.2 } :=
  ⟨⟨⟨h.registry, fun hm => hm, fun hm => hm, rfl, fun hQ => hQ, fun _ => h.next⟩, fun _ => rfl⟩,
    rfl, rfl⟩

theorem Plain.arena {a : Arena} (h : p.arena.next ≤ a.next) : Plain p { p with arena := a } :=
  .textures (Texturing.Growth.ofArena h)

/-- A library that has served a request, and numbers taken after that. -/
theorem Plain.served {path assetDir : String} {l : ModelLibrary K} {a b : Arena}
    {found : Except (Diagnostic K) (Shared (ModelTemplate K))}
    (h : p.library.Served path assetDir p.arena found l a) (hnext : a.next ≤ b.next) :
    Plain p { p with library := l, arena := b } where
  registry := .refl _
  materials hm := hm
  fallback hm := hm
  loader := h.loader
  models hQ := (h.all hQ).1
  numbers hp := Nat.le_trans (h.next hp) hnext
  silent _ := rfl
  materials_eq := rfl
  fallback_eq := rfl

theorem Works.material {id : String} {m : Shared (Material K)}
    (h : p.materials.find? id = none) :
    Works p { p with materials := p.materials.insert id m } := by
  refine ⟨⟨.refl _, ?_, fun hm => hm, rfl, fun hQ => hQ, fun _ => Nat.le_refl _⟩, fun _ => rfl⟩
  intro id' m' hm
  have hne : id' ≠ id := by
    rintro rfl
    rw [h] at hm
    cases hm
  simpa only [Table.find?_insert, if_neg hne] using hm

theorem Works.fallbackMaterial {m : Shared (Material K)} (h : p.fallback = none) :
    Works p { p with fallback := some m } := by
  refine ⟨⟨.refl _, fun hm => hm, ?_, rfl, fun hQ => hQ, fun _ => Nat.le_refl _⟩, fun _ => rfl⟩
  intro m' hm
  rw [h] at hm
  cases hm

end Changes

end Progress

namespace Walk

open Progress (Works Plain)

variable {α β : Type} {R : Progress K → Progress K → Prop}

/-- Every run of an action relates the progress before it to the progress after it. -/
def Does (R : Progress K → Progress K → Prop) (x : Walk K α) : Prop := ∀ p, R p (x p).2

namespace Does

theorem pure [IsPreorder (Progress K) R] (a : α) : Does R (Pure.pure a : Walk K α) :=
  fun p => refl_of R p

theorem bind [IsPreorder (Progress K) R] {x : Walk K α} {f : α → Walk K β} (hx : Does R x)
    (hf : ∀ a, Does R (f a)) : Does R (x >>= f) := by
  intro p
  exact trans_of R (hx p) (hf (x p).1 (x p).2)

theorem works {x : Walk K α} (h : Does Plain x) : Does Works x := fun p => (h p).toWorks

theorem report {d : Diagnostic K} (h : d.isReference = false) : Does Plain (Walk.report d) := by
  intro p
  refine Plain.noting ?_
  intro d' hd
  rw [List.mem_singleton.mp hd]
  exact h

theorem reportAll {ds : List (Diagnostic K)} (h : ∀ d ∈ ds, d.isReference = false) :
    Does Plain (Walk.reportAll ds) :=
  fun _ => Plain.noting h

theorem onArena {step : StateM Arena α} (h : ∀ a, a.next ≤ (step a).2.next) :
    Does Plain (Walk.onArena step : Walk K α) :=
  fun p => Plain.arena (h p.arena)

theorem onTextures {step : Texturing K α} (h : ∀ s, Texturing.Growth s (step s).2) :
    Does Plain (Walk.onTextures step) :=
  fun p => Plain.textures (h (p.registry, p.arena))

end Does

/-! ## 4. Actions -/

theorem plain_levelScope (scope : Inherited K) : Does Plain (levelScope scope) := by
  unfold levelScope
  cases scope.material with
  | none => exact .pure _
  | some m => exact .bind (.onArena fun a => Nat.le_add_right _ 2) fun _ => .pure _

theorem LevelVisit.parts {R : Inherited K → String → Progress K → Option (SceneNode K) →
      Progress K → Prop}
    {scope : Inherited K} {level : LevelSpec K} {p q : Progress K}
    {built : Option (Level K (SceneNode K))} (h : LevelVisit R scope level p built q) :
    ∃ own p', levelScope scope p = (own, p') ∧ p.Plain p' ∧
      R own level.target p' (built.map Level.node) q := by
  obtain ⟨own, p', n, hscope, hvisit, rfl⟩ := h
  have hplain := plain_levelScope scope p
  rw [hscope] at hplain
  refine ⟨own, p', hscope, hplain, ?_⟩
  cases n with
  | none => exact hvisit
  | some n => exact hvisit

theorem LevelVisit.extends {R : Inherited K → String → Progress K → Option (SceneNode K) →
      Progress K → Prop}
    {scope : Inherited K} {level : LevelSpec K} {p q : Progress K}
    {built : Option (Level K (SceneNode K))} (h : LevelVisit R scope level p built q)
    (hR : ∀ own id p n q, R own id p n q → p.Extends q) : p.Extends q := by
  obtain ⟨own, p', -, hplain, hvisit⟩ := h.parts
  exact hplain.toExtends.trans (hR _ _ _ _ _ hvisit)

variable [Scalar K]

theorem plain_lookupTexture (id : String) : Does Plain (lookupTexture (K := K) id) := by
  unfold lookupTexture
  refine .bind (.onTextures fun s => TextureRegistry.growth_resolve id) fun t => ?_
  cases t with
  | some t => exact .pure _
  | none => exact .bind (.report rfl) fun _ => .pure _

theorem plain_textureOf (e : Element K) (inherited : Inherited K) :
    Does Plain (textureOf e inherited) := by
  unfold textureOf
  cases e.texture with
  | none => exact .pure _
  | some id =>
    refine .bind (plain_lookupTexture id) fun t => ?_
    cases t with
    | some t => exact .pure _
    | none => exact .pure _

theorem works_fallbackMaterial (c : Setting K) : Does Works (fallbackMaterial c) := by
  intro p
  obtain ⟨arena, registry, library, materials, fallback, report⟩ := p
  cases fallback with
  | some m => exact .refl _
  | none =>
    refine Works.trans (Plain.arena ?_).toWorks (Works.fallbackMaterial rfl)
    exact Nat.le_add_right _ 2

/-- A surface with a material that is handed down keeps none for later. -/
theorem plain_surfaceMaterial (c : Setting K) (m : Shared (Material K))
    (texture : Option (Shared (Texture K))) (cast receive : Bool) :
    Does Plain (surfaceMaterial c ⟨some m, texture, cast, receive⟩) := by
  cases texture with
  | none => exact .pure _
  | some t =>
    refine Does.onArena fun a => ?_
    -- A duplicate, its map and the object take a number each.
    obtain ⟨id, serial, name, shader, side, w, tr, dw, dt, mapRepeat⟩ := m
    cases mapRepeat with
    | none => exact Nat.le_add_right _ 2
    | some tiling => exact Nat.le_add_right _ 4

theorem works_surfaceMaterial (c : Setting K) (scope : Inherited K) :
    Does Works (surfaceMaterial c scope) := by
  obtain ⟨material, texture, cast, receive⟩ := scope
  cases material with
  | none => exact works_fallbackMaterial c
  | some m => exact (plain_surfaceMaterial c m texture cast receive).works

theorem plain_faceMaterials (spec : SkyboxSpec K) (faces : List (Option String)) :
    Does Plain (faceMaterials spec faces) := by
  induction faces with
  | nil => exact .pure _
  | cons face rest ih =>
    unfold faceMaterials
    have hmaterial : ∀ map, Does Plain (onArena (K := K) (do
        Arena.share (← Material.skyboxFace map spec.emissive spec.intensity))) :=
      fun map => .onArena fun a => Nat.le_add_right _ 2
    have hrest : ∀ map, Does Plain (do
        let m ← onArena (do
          Arena.share (← Material.skyboxFace map spec.emissive spec.intensity))
        return m :: (← faceMaterials spec rest)) :=
      fun map => .bind (hmaterial map) fun m => .bind ih fun _ => .pure _
    cases face with
    | none => exact .bind (.pure none) hrest
    | some id => exact .bind (plain_lookupTexture id) hrest

theorem plain_groupMaterials (shape : ShapeSpec K) : Does Plain (groupMaterials shape) := by
  cases shape with
  | skybox spec => exact plain_faceMaterials spec _
  | _ => exact .pure _

theorem works_attachMesh (c : Setting K) (scope : Inherited K) (shape : ShapeSpec K)
    (n : SceneNode K) : Does Works (attachMesh c scope shape n) := by
  unfold attachMesh
  cases hbuild : shape.build c.settings with
  | error d =>
    exact .bind (Does.report (ShapeSpec.isReference_of_build hbuild)).works fun _ => .pure _
  | ok geometry =>
    refine .bind (Does.onArena fun a => Nat.le_succ _).works fun g => ?_
    refine .bind (works_surfaceMaterial c scope) fun m => ?_
    exact .bind (plain_groupMaterials shape).works fun _ => .pure _

theorem plain_attachModel (c : Setting K) (scope : Inherited K) (path : String)
    (n : SceneNode K) : Does Plain (attachModel c scope path n) := by
  intro p
  obtain ⟨result, library, arena, heq⟩ : ∃ result library arena,
      p.library.instantiate path c.settings.assetDir n.world p.arena = ((result, library), arena) :=
    ⟨_, _, _, rfl⟩
  obtain ⟨found, b, hserved, hcases⟩ := ModelLibrary.instantiate_served heq
  have hrun : (attachModel c scope path n p).2 =
      ({ p with library := library, arena := arena } : Progress K).noting
        (match result with | .error d => [d] | .ok _ => []) := by
    simp only [attachModel, onLibrary, bind, StateT.bind, heq]
    cases result with
    | error d => rfl
    | ok model => simp only [Progress.noting, List.append_nil]; rfl
  rw [hrun]
  rcases hcases with ⟨d, hfound, rfl, rfl⟩ | ⟨t, m, -, hrebase, rfl⟩
  · have hplain := Plain.served hserved (Nat.le_refl _)
    refine ⟨⟨hplain.toExtends.noting _, fun hp => ?_⟩, rfl, rfl⟩
    have hd : d.isReference = false := hserved.error hp (fun _ _ => rfl) hfound
    rw [Progress.references_noting, hplain.silent hp]
    simp [hd]
  · have hnext : b.next ≤ arena.next := by
      have := SceneNode.rebase_next n.world t.value.root b
      rwa [hrebase] at this
    exact (Plain.served hserved hnext).trans (Plain.noting (by simp))

theorem works_attachShape (c : Setting K) (scope : Inherited K) (shape : ShapeSpec K)
    (n : SceneNode K) : Does Works (attachShape c scope shape n) := by
  cases shape with
  | model path => exact (plain_attachModel c scope path n).works
  | _ => exact works_attachMesh c scope _ n

theorem plain_attachLight (spec : LightSpec K) (n : SceneNode K) :
    Does Plain (attachLight spec n) := by
  unfold attachLight
  cases hlight : Light.ofSpec spec with
  | error d => exact .bind (.report (Light.isReference_of_ofSpec hlight)) fun _ => .pure _
  | ok light => exact .pure _

section MaterialOf

variable {c : Setting K} {e : Element K} {inherited : Inherited K} {p : Progress K} {id : String}

theorem materialOf_inherited (hid : e.material = none) :
    materialOf c e inherited p = (inherited.material, p) := by
  simp only [materialOf, hid]
  rfl

theorem materialOf_kept {m : Shared (Material K)} (hid : e.material = some id)
    (hkept : p.materials.find? id = some m) : materialOf c e inherited p = (some m, p) := by
  simp only [materialOf, hid, bind, StateT.bind, get, getThe, MonadStateOf.get, StateT.get, pure,
    hkept]
  rfl

theorem materialOf_missing (hid : e.material = some id) (hnone : p.materials.find? id = none)
    (hmissing : c.document.materials.find? id = none) :
    materialOf c e inherited p = (inherited.material, p.noting [.missingMaterial id]) := by
  simp only [materialOf, hid, bind, StateT.bind, get, getThe, MonadStateOf.get, StateT.get, pure,
    hnone, hmissing]
  rfl

theorem materialOf_build (inherited : Inherited K) {spec : MaterialSpec K}
    (hid : e.material = some id)
    (hnone : p.materials.find? id = none) (hspec : c.document.materials.find? id = some spec) :
    ∃ m faults r a, spec.build (p.registry, p.arena) = ((m, faults), (r, a)) ∧
      materialOf c e inherited p = (some ⟨a.next, m⟩,
        ({ p with
            registry := r, arena := { a with next := a.next + 1 }
            materials := p.materials.insert id ⟨a.next, m⟩ } : Progress K).noting faults) := by
  obtain ⟨m, faults, r, a, heq⟩ : ∃ m faults r a,
      spec.build (p.registry, p.arena) = ((m, faults), (r, a)) := ⟨_, _, _, _, rfl⟩
  refine ⟨m, faults, r, a, heq, ?_⟩
  simp only [materialOf, hid, bind, StateT.bind, get, getThe, MonadStateOf.get, StateT.get, pure,
    hnone, hspec, onTextures, heq]
  rfl

end MaterialOf

theorem works_materialOf (c : Setting K) (e : Element K) (inherited : Inherited K) :
    Does Works (materialOf c e inherited) := by
  intro p
  cases hid : e.material with
  | none =>
    rw [materialOf_inherited hid]
    exact .refl p
  | some id =>
    cases hkept : p.materials.find? id with
    | some m =>
      rw [materialOf_kept hid hkept]
      exact .refl p
    | none =>
      cases hspec : c.document.materials.find? id with
      | none =>
        rw [materialOf_missing hid hkept hspec]
        exact (Does.report rfl).works p
      | some spec =>
        obtain ⟨m, faults, r, a, hbuild, heq⟩ := materialOf_build inherited hid hkept hspec
        have hgrow := MaterialSpec.growth_build (s := (p.registry, p.arena)) spec
        have hfaults : ∀ d ∈ faults, d.isReference = false := by
          intro d hd
          have hmem : d ∈ (spec.build (p.registry, p.arena)).1.2 := by rwa [hbuild]
          obtain ⟨id, rfl⟩ := MaterialSpec.mem_build_faults hmem
          rfl
        rw [hbuild] at hgrow
        have hgrow' : Texturing.Growth (p.registry, p.arena) (r, { a with next := a.next + 1 }) :=
          hgrow.trans (Texturing.Growth.ofArena (Nat.le_succ _))
        rw [heq]
        refine ((Plain.textures hgrow').toWorks.trans ?_).trans (Plain.noting hfaults).toWorks
        exact Works.material hkept

theorem works_scopeOf (c : Setting K) (e : Element K) (inherited : Inherited K) :
    Does Works (scopeOf c e inherited) :=
  .bind (works_materialOf c e inherited) fun _ =>
    .bind (plain_textureOf e inherited).works fun _ => .pure _

theorem works_enter (c : Setting K) (parent : Shared (Affine K)) (inherited : Inherited K)
    (id : String) (e : Element K) : Does Works (enter c parent inherited id e) := by
  refine .bind (works_scopeOf c e inherited) fun scope => ?_
  refine .bind (Does.reportAll fun d => TransformStep.isReference_of_mem_faults).works fun _ => ?_
  exact .bind (Does.onArena fun a => SceneNode.placeIn_next parent _ a).works fun _ => .pure _

theorem Entered.works {c : Setting K} {parent : Shared (Affine K)} {inherited : Inherited K}
    {path : List String} {id : String} {p q : Progress K} {e : Element K} {scope : Inherited K}
    {own : SceneNode K} (h : Entered c parent inherited path id p e scope own q) : p.Works q := by
  have hworks := works_enter c parent inherited id e p
  rwa [h.entered] at hworks

/-! ## 5. Visits -/

/-- **Whatever a visit does, what is there stays.** -/
theorem extends_visit (c : Setting K) (parent : Shared (Affine K)) (inherited : Inherited K)
    (path : List String) (id : String) (p : Progress K) :
    p.Extends (visit c parent inherited path id p).2 := by
  refine visit_induction (P := fun _ _ _ _ p _ q => p.Extends q)
    ?leftOut ?group ?primitive ?light ?lod parent inherited path id p
  case leftOut =>
    rintro _ _ _ _ p q d _ (rfl | ⟨e, scope, own, hentered⟩)
    · exact (Progress.Extends.refl _).noting _
    · exact hentered.works.toExtends.noting _
  case group =>
    intro _ _ _ _ p e scope own q children built r hentered _ hsteps
    have hbelow : q.Extends r := hsteps.lift .refl .trans fun _ _ _ _ h => h.2
    exact (hentered.works.toExtends.trans hbelow).counting
  case primitive =>
    intro _ _ _ _ p e scope own q shape n r hentered _ hattach
    have hworks := works_attachShape c scope shape own q
    rw [hattach] at hworks
    exact (hentered.works.trans hworks).toExtends.counting
  case light =>
    intro _ _ _ _ p e scope own q spec n r hentered _ hattach
    have hplain := plain_attachLight spec own q
    rw [hattach] at hplain
    exact (hentered.works.trans hplain.toWorks).toExtends.counting
  case lod =>
    intro _ _ _ _ p e scope own q levels built r hentered _ hsteps
    have hbelow : q.Extends r :=
      hsteps.lift .refl .trans fun _ _ _ _ h => h.extends fun _ _ _ _ _ hvisit => hvisit.2
    exact (hentered.works.toExtends.trans hbelow).counting

theorem extends_of_visit {c : Setting K} {parent : Shared (Affine K)} {inherited : Inherited K}
    {path : List String} {id : String} {p q : Progress K} {n : Option (SceneNode K)}
    (h : visit c parent inherited path id p = (n, q)) : p.Extends q := by
  have hextends := extends_visit c parent inherited path id p
  rwa [h] at hextends

end Walk

/-! ## 6. Models given as documents -/

section Documents

variable [Scalar K]

/-- The only error of an assembly is a missing root. -/
theorem assemble_error {settings : Settings K} {d : Document K} {w : Workshop K} {e : Diagnostic K}
    (h : (assemble settings d w).1 = .error e) : e = .missingRoot d.rootId := by
  by_cases hroot : d.elements.contains d.rootId
  · obtain ⟨scene, w', hscene⟩ := exists_scene settings w hroot
    rw [hscene] at h
    cases h
  · rw [assemble_missing hroot] at h
    cases h
    rfl

theorem assemble_next (settings : Settings K) (d : Document K) {w : Workshop K}
    (hnumbers : w.library.KeepsNumbers) :
    w.arena.next ≤ (assemble settings d w).2.arena.next := by
  by_cases hroot : d.elements.contains d.rootId
  · obtain ⟨scene, w', hscene⟩ := exists_scene settings w hroot
    obtain ⟨n, q, root, hvisit, -, -, hnext, -⟩ := visit_of_assemble hscene
    have hwalk : w.arena.next + 1 ≤ q.arena.next :=
      (Walk.extends_of_visit hvisit).numbers hnumbers
    rw [hscene]
    show w.arena.next ≤ w'.arena.next
    omega
  · refine Nat.le_of_eq ?_
    rw [assemble_missing hroot]

theorem keepsNumbers_ofDocuments (documents : Table (Option (Document K))) :
    (ModelLibrary.withLoader (.ofDocuments documents)).KeepsNumbers := by
  intro load hload path a
  obtain rfl := Option.some.inj hload
  unfold ModelLoader.ofDocuments
  split
  · exact Nat.le_refl _
  · exact Nat.le_refl _
  · refine assemble_next .standard _ (w := ⟨a, _, .empty⟩) ?_
    intro load hload
    cases hload

/-- A model given as a document cannot be had if there is no such document, if it is none, or if
    it has no root. -/
theorem ModelLoader.ofDocuments_error {documents : Table (Option (Document K))} {path : String}
    {a : Arena} {d : Diagnostic K} (h : (ModelLoader.ofDocuments documents path a).1 = .error d) :
    d = .resource path "no such model" ∨ d = .malformedJson ∨ ∃ id, d = .missingRoot id := by
  unfold ModelLoader.ofDocuments at h
  split at h
  · cases h
    exact .inl rfl
  · cases h
    exact .inr (.inl rfl)
  next d' _ =>
    obtain ⟨result, w', hassemble⟩ : ∃ result w', assembleFresh .standard .placeholder d' .empty a =
      (result, w') := ⟨_, _, rfl⟩
    rw [hassemble] at h
    cases result with
    | ok scene => cases h
    | error e =>
      cases h
      exact .inr (.inr ⟨_, assemble_error (congrArg Prod.fst hassemble)⟩)

theorem failsOnly_ofDocuments {E : Diagnostic K → Prop} (documents : Table (Option (Document K)))
    (hresource : ∀ path reason, E (.resource path reason)) (hjson : E .malformedJson)
    (hroot : ∀ id, E (.missingRoot id)) :
    (ModelLibrary.withLoader (.ofDocuments documents)).FailsOnly E := by
  intro load hload path a d herror
  obtain rfl := Option.some.inj hload
  rcases ModelLoader.ofDocuments_error herror with rfl | rfl | ⟨id, rfl⟩
  · exact hresource _ _
  · exact hjson
  · exact hroot id

theorem isSilent_ofDocuments (documents : Table (Option (Document K))) :
    (ModelLibrary.withLoader (.ofDocuments documents)).IsSilent :=
  failsOnly_ofDocuments documents (fun _ _ => rfl) rfl fun _ => rfl

end Documents

end SceneAssembly
