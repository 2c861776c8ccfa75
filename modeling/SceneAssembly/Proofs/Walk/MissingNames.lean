/-
  SceneAssembly/Proofs/Walk/MissingNames.lean
  ===========================================
  **How often a missing name is reported.**

  A name of a texture or of a material that stands for nothing is reported where
  it is looked up.  An element's own names and the faces of a sky box are looked
  up at each visit, the names in the description of a material only when the
  material is made, which happens once however many elements use it.

  So the report is counted together with what is still due: the missing names in
  the descriptions of which no material has been made (`unmade`).  A visit adds
  to the two together what its elements have missing, whether their materials
  have been made before or not (`Told`).  At the end nothing is due any more of
  the descriptions that were used, which gives the number of reports of each
  name (`missing_names_counted`).
-/
import SceneAssembly.Proofs.Walk.Stack
import SceneAssembly.Proofs.Walk.Steady

namespace SceneAssembly

variable {K : Type}

/-! ## 1. Missing names -/

namespace Diagnostic

/-- Does a diagnostic say that a name of a material or of a texture stands for nothing? -/
def isMissing : Diagnostic K → Bool
  | missingMaterial _ | missingTexture _ => true
  | _ => false

def missesTexture (name : String) : Diagnostic K → Bool
  | missingTexture id => id == name
  | _ => false

def missesMaterial (name : String) : Diagnostic K → Bool
  | missingMaterial id => id == name
  | _ => false

/-- Of all diagnostics, only such that say that a name is missing are counted. -/
def OnlyMissing (counted : Diagnostic K → Bool) : Prop :=
  ∀ x : Diagnostic K, x.isMissing = false → counted x = false

theorem onlyMissing_texture (t : String) : OnlyMissing (missesTexture (K := K) t) := by
  intro x hx
  cases x with
  | missingTexture id => cases hx
  | _ => rfl

theorem onlyMissing_material (m : String) : OnlyMissing (missesMaterial (K := K) m) := by
  intro x hx
  cases x with
  | missingMaterial id => cases hx
  | _ => rfl

end Diagnostic

/-- The names of textures on the faces of an element. -/
def ElementKind.faces : ElementKind K → List (Option String)
  | .primitive shape => Walk.faceNames shape
  | _ => []

/-- The names that are missing at an element: its material, its texture and its faces. -/
def Element.missingNames (e : Element K) (d : Document K) (r : TextureRegistry K) :
    List (Diagnostic K) :=
  d.missingRecord e ++ r.missing e.texture ++ e.kind.faces.flatMap r.missing

/-- The names that are missing in descriptions of materials. -/
def TextureRegistry.missingIn (r : TextureRegistry K) (records : List (String × MaterialSpec K)) :
    List (Diagnostic K) :=
  records.flatMap fun x => x.2.names.flatMap r.missing

/-! ## 2. The elements that are visited -/

/-- The element of a reference, if it exists, the walk is not inside of it, and the path to it is
    not too long.  Its kind may be unknown. -/
def visited? (c : Setting K) (s : List String × String) : Option (Element K) :=
  (c.document.elements.find? s.2).filter fun _ =>
    decide (s.2 ∉ s.1 ∧ s.1.length < c.settings.maxDepth)

/-- The elements that a visit to a reference visits, each as often as it does. -/
def visits (c : Setting K) (path : List String) (id : String) : List (Element K) :=
  (met c path id).filterMap (visited? c)

/-- The descriptions of the materials that a list of elements refers to. -/
def Document.recordsOf (d : Document K) (es : List (Element K)) : List (String × MaterialSpec K) :=
  d.materials.entries.filter fun x => es.any fun e => e.material == some x.1

section Visits

variable {c : Setting K} {path : List String} {id : String}

theorem visits_leftOut {d : Diagnostic K} (hleft : leftOut? c path id = some d)
    (h : ∀ e, c.document.elements.find? id = some e →
      id ∈ path ∨ c.settings.maxDepth ≤ path.length) : visits c path id = [] := by
  have hnone : visited? c (path, id) = none := by
    rw [visited?, Option.filter_eq_none_iff]
    intro e he
    rcases h e he with hpath | hdepth
    · simp [hpath]
    · simp [hdepth]
  rw [visits, met_leftOut hleft, List.filterMap_cons, hnone]
  rfl

theorem visits_inside {e : Element K} (hid : c.document.elements.find? id = some e)
    (hpath : id ∉ path) (hdepth : path.length < c.settings.maxDepth) :
    visits c path id = e :: e.kind.references.flatMap (visits c (id :: path)) := by
  have hsome : visited? c (path, id) = some e := by
    simp [visited?, hid, hpath, hdepth]
  rw [visits, met_inside hid hpath (Nat.not_le.mpr hdepth), List.filterMap_cons, hsome,
    List.filterMap_flatMap]
  rfl

end Visits

/-! ## 3. What has been told, and what is due -/

/-- The descriptions of which no material has been made. -/
def Progress.unmade (c : Setting K) (p : Progress K) : List (String × MaterialSpec K) :=
  c.document.materials.entries.filter fun x => (p.materials.find? x.1).isNone

/-- Progress from a registry: textures were made there, materials of descriptions, and models are
    not refused for any reason that is counted. -/
structure Progress.Stands (c : Setting K) (r : TextureRegistry K) (counted : Diagnostic K → Bool)
    (p : Progress K) : Prop where
  registry : r.Extends p.registry
  described : ∀ {key m}, p.materials.find? key = some m → c.document.materials.contains key = true
  library : p.library.FailsOnly fun d => counted d = false

/-- From one progress to another one the reports and what is due together grow by some names, and
    the materials of some keys are made, unless they were there. -/
structure Progress.Told (c : Setting K) (r : TextureRegistry K) (counted : Diagnostic K → Bool)
    (p q : Progress K) (ds : List (Diagnostic K)) (keys : List String) : Prop where
  stands : q.Stands c r counted
  count : q.report.diagnostics.countP counted + (r.missingIn (q.unmade c)).countP counted =
    p.report.diagnostics.countP counted + (r.missingIn (p.unmade c)).countP counted +
      ds.countP counted
  made : ∀ key, (q.materials.find? key).isSome = true ↔
    (p.materials.find? key).isSome = true ∨ key ∈ keys

namespace Progress.Told

variable {c : Setting K} {r : TextureRegistry K} {counted : Diagnostic K → Bool}
  {p q u : Progress K} {ds ds' : List (Diagnostic K)} {keys keys' : List String}

theorem refl (hp : p.Stands c r counted) : Told c r counted p p [] [] :=
  ⟨hp, rfl, fun key => by simp⟩

theorem trans (h : Told c r counted p q ds keys) (h' : Told c r counted q u ds' keys') :
    Told c r counted p u (ds ++ ds') (keys ++ keys') where
  stands := h'.stands
  count := by
    rw [h'.count, h.count, List.countP_append, Nat.add_assoc]
  made key := by rw [h'.made, h.made, List.mem_append, or_assoc]

/-- Only the names that are counted matter. -/
theorem congr (h : Told c r counted p q ds keys) (hds : ds.countP counted = ds'.countP counted) :
    Told c r counted p q ds' keys :=
  ⟨h.stands, hds ▸ h.count, h.made⟩

/-- What leaves the materials alone tells what it adds to the report. -/
theorem of_extends (hp : p.Stands c r counted) (hext : p.Extends q)
    (hmaterials : q.materials = p.materials)
    (hreport : q.report.diagnostics = p.report.diagnostics ++ ds) :
    Told c r counted p q ds [] where
  stands := {
    registry := hp.registry.trans hext.registry
    described := fun hm => hp.described (hmaterials ▸ hm)
    library := fun load hload => hp.library load (hext.loader ▸ hload) }
  count := by
    rw [unmade, hmaterials, hreport, List.countP_append]
    exact Nat.add_right_comm _ _ _
  made key := by simp [hmaterials]

theorem counting (h : Told c r counted p q ds keys) : Told c r counted p q.counting ds keys :=
  ⟨⟨h.stands.registry, h.stands.described, h.stands.library⟩, h.count, h.made⟩

/-- What is due for a description is told when its material is made. -/
theorem material (hp : p.Stands c r counted) {key : String} {spec : MaterialSpec K}
    {m : Shared (Material K)} {x : TextureRegistry K × Arena}
    (hnone : p.materials.find? key = none) (hspec : c.document.materials.find? key = some spec)
    (hx : p.registry.Extends x.1) :
    Told c r counted p (({ p with
      registry := x.1, arena := x.2, materials := p.materials.insert key m } : Progress K).noting
        (spec.names.flatMap r.missing)) [] [key] where
  stands := {
    registry := hp.registry.trans hx
    library := hp.library
    described := fun {key' m'} hm' => by
      have hm' : (p.materials.insert key m).find? key' = some m' := hm'
      rw [Table.find?_insert] at hm'
      split at hm'
      next heq => rw [heq, Table.contains, hspec]; rfl
      next => exact hp.described hm' }
  count := by
    have hperm := c.document.materials.filter_perm hspec
      (fun e => (p.materials.find? e.1).isNone) (by rw [hnone]; rfl)
    have hfilter : ∀ e : String × MaterialSpec K,
        (decide (e.1 ≠ key) && (p.materials.find? e.1).isNone) =
          ((p.materials.insert key m).find? e.1).isNone := by
      intro e
      rw [Table.find?_insert]
      by_cases heq : e.1 = key <;> simp [heq]
    simp only [hfilter] at hperm
    have hdue := (hperm.flatMap_right fun x => x.2.names.flatMap r.missing).countP_eq counted
    rw [List.flatMap_cons, List.countP_append] at hdue
    show (p.report.diagnostics ++ _).countP counted + (r.missingIn _).countP counted = _
    rw [List.countP_append, Nat.add_assoc]
    exact congrArg (p.report.diagnostics.countP counted + ·) hdue.symm
  made key' := by
    show ((p.materials.insert key m).find? key').isSome = true ↔ _
    rw [Table.find?_insert, List.mem_singleton]
    by_cases heq : key' = key <;> simp [heq]

end Progress.Told

namespace Walk

open Progress (Told)

variable {c : Setting K} {r : TextureRegistry K} {counted : Diagnostic K → Bool}

theorem Steps.told {α β : Type} {R : α → Progress K → β → Progress K → Prop}
    {ds : α → List (Diagnostic K)} {keys : α → List String} {as : List α} {bs : List β}
    {p q : Progress K}
    (h : ∀ x p y q, R x p y q → p.Stands c r counted → Told c r counted p q (ds x) (keys x))
    (hs : Steps R as p bs q) (hp : p.Stands c r counted) :
    Told c r counted p q (as.flatMap ds) (as.flatMap keys) := by
  induction hs with
  | nil p => exact .refl hp
  | cons hstep _ ih =>
    have htold := h _ _ _ _ hstep hp
    rw [List.flatMap_cons, List.flatMap_cons]
    exact htold.trans (ih htold.stands)

/-! ## 4. Actions -/

/-- Every run of an action warns of some names and makes the materials of some keys. -/
def Warns {α : Type} (c : Setting K) (r : TextureRegistry K) (counted : Diagnostic K → Bool)
    (x : Walk K α) (ds : List (Diagnostic K)) (keys : List String) : Prop :=
  ∀ p, p.Stands c r counted → Told c r counted p (x p).2 ds keys

namespace Warns

variable {α β : Type} {x : Walk K α} {f : α → Walk K β} {ds ds' : List (Diagnostic K)}
  {keys keys' : List String}

theorem pure (a : α) : Warns c r counted (Pure.pure a : Walk K α) [] [] := fun _ hp => .refl hp

theorem bind (hx : Warns c r counted x ds keys) (hf : ∀ a, Warns c r counted (f a) ds' keys') :
    Warns c r counted (x >>= f) (ds ++ ds') (keys ++ keys') := by
  intro p hp
  have htold := hx p hp
  exact htold.trans (hf (x p).1 (x p).2 htold.stands)

/-- After an action there may be one that warns of nothing. -/
theorem bind_silent (hx : Warns c r counted x ds keys) (hf : ∀ a, Warns c r counted (f a) [] []) :
    Warns c r counted (x >>= f) ds keys := by
  have h := hx.bind hf
  rwa [List.append_nil, List.append_nil] at h

theorem congr (h : Warns c r counted x ds keys) (hds : ds.countP counted = ds'.countP counted) :
    Warns c r counted x ds' keys := fun p hp => (h p hp).congr hds

/-- What is reported is warned of. -/
theorem reportAll (ds : List (Diagnostic K)) : Warns c r counted (Walk.reportAll ds) ds [] :=
  fun p hp => .of_extends hp ((Progress.Extends.refl p).noting ds) rfl rfl

theorem report (d : Diagnostic K) : Warns c r counted (Walk.report d) [d] [] :=
  fun p hp => .of_extends hp ((Progress.Extends.refl p).noting [d]) rfl rfl

/-- A plain action that leaves the report alone warns of nothing. -/
theorem of_plain (hx : Does Progress.Plain x)
    (hreport : ∀ p, (x p).2.report.diagnostics = p.report.diagnostics) :
    Warns c r counted x [] [] := fun p hp =>
  .of_extends hp (hx p).toExtends (hx p).materials_eq
    ((hreport p).trans (List.append_nil _).symm)

theorem onArena {step : StateM Arena α} (h : ∀ a, a.next ≤ (step a).2.next) :
    Warns c r counted (Walk.onArena step) [] [] :=
  of_plain (Does.onArena h) fun _ => rfl

end Warns

theorem warns_levelScope (scope : Inherited K) :
    Warns c r counted (levelScope scope) [] [] := by
  refine .of_plain (plain_levelScope scope) fun p => ?_
  unfold levelScope
  cases scope.material <;> rfl

variable [Scalar K]

theorem warns_lookupTexture (id : String) :
    Warns c r counted (lookupTexture (K := K) id) (r.missing (some id)) [] := by
  intro p hp
  have hplain := plain_lookupTexture (K := K) id p
  refine .of_extends hp hplain.toExtends hplain.materials_eq ?_
  have hknows := TextureRegistry.isSome_resolve (s := (p.registry, p.arena)) id
  obtain ⟨t, x, hresolve⟩ : ∃ t x, TextureRegistry.resolve id (p.registry, p.arena) = (t, x) :=
    ⟨_, _, rfl⟩
  rw [hresolve] at hknows
  have hrun : onTextures (TextureRegistry.resolve id) p =
      (t, { p with registry := x.1, arena := x.2 }) := by
    simp only [onTextures, hresolve]
  rw [← hp.registry.missing_eq, TextureRegistry.missing, ← hknows]
  simp only [lookupTexture, bind, StateT.bind, hrun]
  cases t with
  | some t => exact (List.append_nil _).symm
  | none => rfl

theorem warns_textureOf (e : Element K) (inherited : Inherited K) :
    Warns c r counted (textureOf e inherited) (r.missing e.texture) [] := by
  unfold textureOf
  cases e.texture with
  | none => exact .pure _
  | some id =>
    refine (warns_lookupTexture id).bind_silent fun t => ?_
    cases t with
    | some t => exact .pure _
    | none => exact .pure _

theorem warns_materialOf (e : Element K) (inherited : Inherited K) :
    Warns c r counted (materialOf c e inherited) (c.document.missingRecord e)
      (c.document.drawn e) := by
  intro p hp
  cases hid : e.material with
  | none =>
    rw [materialOf_inherited hid, Document.missingRecord, Document.drawn, hid]
    exact .refl hp
  | some id =>
    cases hkept : p.materials.find? id with
    | some m =>
      have hcontains := hp.described hkept
      have hmissing : c.document.missingRecord e = [] := by
        simp [Document.missingRecord, hid, hcontains]
      have hdrawn : c.document.drawn e = [id] := by simp [Document.drawn, hid, hcontains]
      rw [materialOf_kept hid hkept, hmissing, hdrawn]
      refine ⟨hp, rfl, fun key => ?_⟩
      rw [List.mem_singleton, iff_self_or]
      rintro rfl
      rw [hkept]
      rfl
    | none =>
      cases hspec : c.document.materials.find? id with
      | none =>
        have hmissing : c.document.missingRecord e = [.missingMaterial id] := by
          simp [Document.missingRecord, hid, Table.contains, hspec]
        have hdrawn : c.document.drawn e = [] := by
          simp [Document.drawn, hid, Table.contains, hspec]
        rw [materialOf_missing hid hkept hspec, hmissing, hdrawn]
        exact Warns.report _ p hp
      | some spec =>
        have hmissing : c.document.missingRecord e = [] := by
          simp [Document.missingRecord, hid, Table.contains, hspec]
        have hdrawn : c.document.drawn e = [id] := by
          simp [Document.drawn, hid, Table.contains, hspec]
        obtain ⟨m, faults, registry, a, hbuild, heq⟩ := materialOf_build inherited hid hkept hspec
        have hgrow := MaterialSpec.growth_build (s := (p.registry, p.arena)) spec
        have hfaults := MaterialSpec.build_faults (s := (p.registry, p.arena)) spec
        rw [hbuild] at hgrow hfaults
        have hnames : faults = spec.names.flatMap r.missing := by
          rw [← hp.registry.missing_eq]
          exact hfaults
        rw [heq, hmissing, hdrawn, hnames]
        exact Told.material (x := (registry, { a with next := a.next + 1 })) hp hkept hspec
          hgrow.registry

/-- What an element is entered with tells its own names. -/
theorem warns_enter (hcounted : Diagnostic.OnlyMissing counted)
    (parent : Shared (Affine K)) (inherited : Inherited K) (id : String) (e : Element K) :
    Warns c r counted (enter c parent inherited id e)
      (c.document.missingRecord e ++ r.missing e.texture) (c.document.drawn e) := by
  have hscope : Warns c r counted (scopeOf c e inherited)
      (c.document.missingRecord e ++ r.missing e.texture) (c.document.drawn e ++ []) :=
    (warns_materialOf e inherited).bind fun _ =>
      (warns_textureOf e inherited).bind_silent fun _ => .pure _
  rw [List.append_nil] at hscope
  have hfaults : (TransformStep.faults e.transforms).countP counted =
      ([] : List (Diagnostic K)).countP counted := by
    rw [List.countP_nil, List.countP_eq_zero]
    intro d hd
    obtain ⟨tag, rfl⟩ := TransformStep.eq_of_mem_faults hd
    simp [hcounted (.unsupportedTransform tag) rfl]
  refine hscope.bind_silent fun scope => ?_
  refine ((Warns.reportAll _).congr hfaults).bind_silent fun _ => ?_
  refine Warns.bind_silent (Warns.onArena fun a => ?_) fun _ => .pure _
  exact SceneNode.placeIn_next parent _ a

theorem Entered.told (hcounted : Diagnostic.OnlyMissing counted)
    {parent : Shared (Affine K)} {inherited scope : Inherited K} {path : List String} {id : String}
    {p q : Progress K} {e : Element K} {own : SceneNode K}
    (h : Entered c parent inherited path id p e scope own q) (hp : p.Stands c r counted) :
    Told c r counted p q (c.document.missingRecord e ++ r.missing e.texture)
      (c.document.drawn e) := by
  have htold := warns_enter hcounted parent inherited id e p hp
  rwa [h.entered] at htold

theorem surfaceMaterial_keeps (scope : Inherited K) (p : Progress K) :
    (surfaceMaterial c scope p).2.materials = p.materials ∧
      (surfaceMaterial c scope p).2.report = p.report := by
  obtain ⟨material, texture, cast, receive⟩ := scope
  cases material with
  | none =>
    obtain ⟨arena, registry, library, materials, fallback, report⟩ := p
    cases fallback with
    | none => exact ⟨rfl, rfl⟩
    | some m => exact ⟨rfl, rfl⟩
  | some m =>
    cases texture with
    | none => exact ⟨rfl, rfl⟩
    | some t => exact ⟨rfl, rfl⟩

theorem warns_surfaceMaterial (scope : Inherited K) :
    Warns c r counted (surfaceMaterial c scope) [] [] := by
  intro p hp
  obtain ⟨hmaterials, hreport⟩ := surfaceMaterial_keeps (c := c) scope p
  refine .of_extends hp (works_surfaceMaterial c scope p).toExtends hmaterials ?_
  rw [hreport, List.append_nil]

theorem warns_faceMaterials (spec : SkyboxSpec K) (faces : List (Option String)) :
    Warns c r counted (faceMaterials spec faces) (faces.flatMap r.missing) [] := by
  induction faces with
  | nil => exact .pure _
  | cons face rest ih =>
    unfold faceMaterials
    have hrest : ∀ map, Warns c r counted (do
        let m ← onArena (do
          Arena.share (← Material.skyboxFace map spec.emissive spec.intensity))
        return m :: (← faceMaterials spec rest)) (rest.flatMap r.missing) [] := fun map =>
      (Warns.onArena fun a => Nat.le_add_right _ 2).bind fun _ => ih.bind_silent fun _ => .pure _
    cases face with
    | none => exact (Warns.pure none).bind hrest
    | some id => exact (warns_lookupTexture id).bind hrest

theorem warns_groupMaterials (shape : ShapeSpec K) :
    Warns c r counted (groupMaterials shape) ((faceNames shape).flatMap r.missing) [] := by
  cases shape with
  | skybox spec => exact warns_faceMaterials spec spec.faces.toList
  | _ => exact .pure _

/-- A sky box always has a geometry, so its faces are looked up at every visit. -/
theorem faceNames_of_build_error {settings : Settings K} {shape : ShapeSpec K} {d : Diagnostic K}
    (h : shape.build settings = .error d) : faceNames shape = [] := by
  cases shape with
  | skybox spec => cases h
  | _ => rfl

theorem warns_attachMesh (hcounted : Diagnostic.OnlyMissing counted)
    (scope : Inherited K) (shape : ShapeSpec K) (n : SceneNode K) :
    Warns c r counted (attachMesh c scope shape n) ((faceNames shape).flatMap r.missing) [] := by
  unfold attachMesh
  cases hbuild : shape.build c.settings with
  | error d =>
    have hd : counted d = false := hcounted d (by
      rcases ShapeSpec.build_error hbuild with ⟨_, rfl⟩ | ⟨_, rfl⟩ | ⟨_, rfl⟩
      · rfl
      · rfl
      · rfl)
    rw [faceNames_of_build_error hbuild]
    exact ((Warns.report d).congr (by simp [hd])).bind_silent fun _ => .pure _
  | ok geometry =>
    refine (Warns.onArena fun a => Nat.le_succ _).bind fun g => ?_
    refine (warns_surfaceMaterial scope).bind fun m => ?_
    exact (warns_groupMaterials shape).bind_silent fun _ => .pure _

theorem warns_attachModel (hcounted : Diagnostic.OnlyMissing counted)
    (scope : Inherited K) (path : String) (n : SceneNode K) :
    Warns c r counted (attachModel c scope path n) [] [] := by
  intro p hp
  have hplain := plain_attachModel c scope path n p
  obtain ⟨m, q, heq⟩ : ∃ m q, attachModel c scope path n p = (m, q) := ⟨_, _, rfl⟩
  rw [heq] at hplain ⊢
  rcases attachModel_cases heq with ⟨d, l, a, hserved, -, rfl⟩ | ⟨t, l, a, model, a', -, -, -, rfl⟩
  · have hd : counted d = false :=
      hserved.error hp.library (fun path reason => hcounted (.resource path reason) rfl) rfl
    have htold : Told c r counted p (({ p with library := l, arena := a } : Progress K).noting [d])
        [d] [] := .of_extends hp hplain.toExtends rfl rfl
    exact htold.congr (by simp [hd])
  · exact .of_extends hp hplain.toExtends rfl (List.append_nil _).symm

theorem warns_attachShape (hcounted : Diagnostic.OnlyMissing counted)
    (scope : Inherited K) (shape : ShapeSpec K) (n : SceneNode K) :
    Warns c r counted (attachShape c scope shape n) ((faceNames shape).flatMap r.missing) [] := by
  cases shape with
  | model path => exact warns_attachModel hcounted scope path n
  | _ => exact warns_attachMesh hcounted scope _ n

theorem warns_attachLight (hcounted : Diagnostic.OnlyMissing counted)
    (spec : LightSpec K) (n : SceneNode K) : Warns c r counted (attachLight spec n) [] [] := by
  unfold attachLight
  cases hlight : Light.ofSpec spec with
  | error d =>
    obtain ⟨name, rfl⟩ := Light.ofSpec_error hlight
    have hd := hcounted (.unsupportedLight name) rfl
    exact ((Warns.report _).congr (by simp [hd])).bind_silent fun _ => .pure _
  | ok light => exact .pure _

/-! ## 5. Visits -/

/-- **A visit tells what is missing at the elements that it visits**, each time that it does. -/
theorem warned_visit (hcounted : Diagnostic.OnlyMissing counted)
    (parent : Shared (Affine K)) (inherited : Inherited K) (path : List String) (id : String)
    (p : Progress K) (hp : p.Stands c r counted) :
    Told c r counted p (visit c parent inherited path id p).2
      ((visits c path id).flatMap fun e => e.missingNames c.document r)
      ((visits c path id).flatMap c.document.drawn) := by
  revert hp
  -- What is told of an element is told partly when it is entered, partly when it is filled.
  have hfilled : ∀ {path : List String} {id : String} {e : Element K} {p q u : Progress K},
      c.document.elements.find? id = some e → id ∉ path → path.length < c.settings.maxDepth →
      Told c r counted p q (c.document.missingRecord e ++ r.missing e.texture)
        (c.document.drawn e) →
      Told c r counted q u (e.kind.faces.flatMap r.missing ++
          (e.kind.references.flatMap (visits c (id :: path))).flatMap
            fun e => e.missingNames c.document r)
        ((e.kind.references.flatMap (visits c (id :: path))).flatMap c.document.drawn) →
      Told c r counted p u ((visits c path id).flatMap fun e => e.missingNames c.document r)
        ((visits c path id).flatMap c.document.drawn) := by
    intro path id e p q u hid hpath hdepth hentered hbelow
    rw [visits_inside hid hpath hdepth, List.flatMap_cons, List.flatMap_cons, Element.missingNames,
      List.append_assoc]
    exact hentered.trans hbelow
  refine visit_kinds_induction (P := fun _ _ path id p _ q => p.Stands c r counted →
    Told c r counted p q ((visits c path id).flatMap fun e => e.missingNames c.document r)
      ((visits c path id).flatMap c.document.drawn))
    ?leftOut ?unsupported ?group ?primitive ?light ?lod parent inherited path id p
  case leftOut =>
    intro _ _ path id p d hleft hwhy hp
    have hd : counted d = false := by
      have href := isReference_of_leftOut? hleft
      refine hcounted d ?_
      cases d <;> first | rfl | cases href
    rw [visits_leftOut hleft hwhy]
    exact (Warns.report d p hp).congr (by simp [hd])
  case unsupported =>
    intro _ _ path id p e scope own q kind hentered hkind hp
    have htold := hentered.told hcounted hp
    refine hfilled hentered.found hentered.outside hentered.shallow htold ?_
    rw [hkind]
    have hd := hcounted (.unsupportedKind id kind) rfl
    exact (Warns.report _ q htold.stands).congr (by simp [hd, ElementKind.faces,
      ElementKind.references])
  case group =>
    intro _ _ path id p e scope own q children built u hentered hkind hsteps hp
    have htold := hentered.told hcounted hp
    refine hfilled hentered.found hentered.outside hentered.shallow htold ?_
    rw [hkind]
    have hbelow := hsteps.told (fun _ _ _ _ h => h.2) htold.stands
    rw [ElementKind.references, List.flatMap_assoc, List.flatMap_assoc]
    exact hbelow.counting
  case primitive =>
    intro _ _ path id p e scope own q shape n u hentered hkind hattach hp
    have htold := hentered.told hcounted hp
    refine hfilled hentered.found hentered.outside hentered.shallow htold ?_
    rw [hkind]
    have hshape := warns_attachShape hcounted scope shape own q htold.stands
    rw [hattach] at hshape
    exact (hshape.congr (by simp [ElementKind.faces, ElementKind.references])).counting
  case light =>
    intro _ _ path id p e scope own q spec n u hentered hkind hattach hp
    have htold := hentered.told hcounted hp
    refine hfilled hentered.found hentered.outside hentered.shallow htold ?_
    rw [hkind]
    have hlight := warns_attachLight hcounted spec own q htold.stands
    rw [hattach] at hlight
    exact hlight.counting
  case lod =>
    intro _ _ path id p e scope own q levels built u hentered hkind hsteps hp
    have htold := hentered.told hcounted hp
    refine hfilled hentered.found hentered.outside hentered.shallow htold ?_
    rw [hkind]
    have hbelow : Told c r counted q u
        (levels.flatMap fun level => (visits c (id :: path) level.target).flatMap fun e =>
          e.missingNames c.document r)
        (levels.flatMap fun level => (visits c (id :: path) level.target).flatMap
          c.document.drawn) := by
      refine hsteps.told (fun level p built q hlevel hp => ?_) htold.stands
      obtain ⟨scope', p', n, hscope, hvisit, -⟩ := hlevel
      have hown := warns_levelScope scope p hp
      rw [hscope] at hown
      exact hown.trans (hvisit.2 hown.stands)
    rw [ElementKind.references, List.flatMap_assoc, List.flatMap_assoc, List.flatMap_map,
      List.flatMap_map]
    exact hbelow.counting

end Walk

/-! ## 6. Counting one name -/

section Counting

variable {d : Document K} {r : TextureRegistry K}

theorem countP_missing {t : String} (ht : r.knows t = false) (ids : List (Option String)) :
    (ids.flatMap r.missing).countP (Diagnostic.missesTexture t) = ids.count (some t) := by
  induction ids with
  | nil => rfl
  | cons id rest ih =>
    rw [List.flatMap_cons, List.countP_append, ih, List.count_cons, Nat.add_comm]
    congr 1
    cases id with
    | none => rfl
    | some name =>
      by_cases hname : name = t
      · simp [TextureRegistry.missing, hname, ht, Diagnostic.missesTexture]
      · cases hknows : r.knows name <;>
          simp [TextureRegistry.missing, hknows, hname, Diagnostic.missesTexture]

/-- No texture is a material. -/
theorem countP_missing_material (m : String) (ids : List (Option String)) :
    (ids.flatMap r.missing).countP (Diagnostic.missesMaterial m) = 0 := by
  rw [List.countP_eq_zero]
  intro x hx
  obtain ⟨id, -, hx⟩ := List.mem_flatMap.mp hx
  obtain ⟨name, rfl⟩ := TextureRegistry.eq_of_mem_missing hx
  exact Bool.false_ne_true

theorem countP_missingRecord {m : String} (hm : d.materials.find? m = none) (e : Element K) :
    (d.missingRecord e).countP (Diagnostic.missesMaterial m) =
      if e.material = some m then 1 else 0 := by
  cases hmaterial : e.material with
  | none => simp [Document.missingRecord, hmaterial]
  | some key =>
    by_cases hkey : key = m
    · subst hkey
      have hrecord : d.missingRecord e = [.missingMaterial key] := by
        simp [Document.missingRecord, hmaterial, Table.contains, hm]
      simp [hrecord, Diagnostic.missesMaterial]
    · cases hcontains : d.materials.contains key <;>
        simp [Document.missingRecord, hmaterial, hkey, hcontains, Diagnostic.missesMaterial]

theorem countP_missingRecord_texture (t : String) (e : Element K) :
    (d.missingRecord e).countP (Diagnostic.missesTexture t) = 0 := by
  rw [List.countP_eq_zero]
  intro x hx
  rw [Document.missingRecord, Option.mem_toList] at hx
  obtain ⟨key, -, rfl⟩ := Option.map_eq_some_iff.mp hx
  exact Bool.false_ne_true

theorem countP_missingNames_texture {t : String} (ht : r.knows t = false)
    (es : List (Element K)) :
    (es.flatMap fun e => e.missingNames d r).countP (Diagnostic.missesTexture t) =
      es.countP (fun e => e.texture == some t) +
        (es.flatMap fun e => e.kind.faces).count (some t) := by
  induction es with
  | nil => rfl
  | cons e rest ih =>
    have hown : (r.missing e.texture).countP (Diagnostic.missesTexture t) =
        if e.texture == some t then 1 else 0 := by
      have hone := countP_missing ht [e.texture]
      rwa [List.flatMap_singleton, List.count_singleton] at hone
    rw [List.flatMap_cons, List.countP_append, ih, Element.missingNames, List.countP_append,
      List.countP_append, countP_missingRecord_texture, hown, countP_missing ht, List.countP_cons,
      List.flatMap_cons, List.count_append]
    omega

theorem countP_missingNames_material {m : String} (hm : d.materials.find? m = none)
    (es : List (Element K)) :
    (es.flatMap fun e => e.missingNames d r).countP (Diagnostic.missesMaterial m) =
      es.countP fun e => e.material == some m := by
  induction es with
  | nil => rfl
  | cons e rest ih =>
    have hown : (r.missing e.texture).countP (Diagnostic.missesMaterial m) = 0 := by
      have hone := countP_missing_material (r := r) m [e.texture]
      rwa [List.flatMap_singleton] at hone
    rw [List.flatMap_cons, List.countP_append, ih, Element.missingNames, List.countP_append,
      List.countP_append, countP_missingRecord hm, hown, countP_missing_material, List.countP_cons]
    simp only [beq_iff_eq]
    omega

end Counting

/-! ## 7. Scenes -/

section Scenes

variable [Scalar K] {settings : Settings K} {d : Document K} {w w' : Workshop K} {scene : Scene K}
  {counted : Diagnostic K → Bool}

/-- The elements that the assembly of a document visits. -/
def Document.visits (d : Document K) (settings : Settings K) : List (Element K) :=
  SceneAssembly.visits ⟨d, settings⟩ [] d.rootId

omit [Scalar K] in
theorem stands_start (hlibrary : w.library.FailsOnly fun x => counted x = false) :
    w.start.Stands ⟨d, settings⟩ w.registry counted :=
  ⟨.refl _, (fun hm => nomatch hm), hlibrary⟩

omit [Scalar K] in
theorem countP_cameraFaults (hcounted : Diagnostic.OnlyMissing counted)
    (cameras : Table (Camera K)) : (cameraFaults cameras).countP counted = 0 := by
  rw [List.countP_eq_zero]
  intro x hx
  obtain ⟨e, -, rfl⟩ := List.mem_map.mp hx
  simp [hcounted (.unsupportedCamera e.1 e.2.type) rfl]

omit [Scalar K] in
/-- Of the descriptions that elements refer to, and of no other one, a material is drawn. -/
theorem mem_drawn_iff {x : String × MaterialSpec K} (hx : x ∈ d.materials.entries)
    (es : List (Element K)) :
    x.1 ∈ es.flatMap d.drawn ↔ (es.any fun e => e.material == some x.1) = true := by
  have hcontains : d.materials.contains x.1 = true :=
    Table.mem_keys_iff.mp (List.mem_map_of_mem hx)
  rw [List.mem_flatMap, List.any_eq_true]
  refine exists_congr fun e => and_congr_right fun _ => ?_
  simp only [Document.drawn, Option.mem_toList, Option.filter_eq_some_iff, beq_iff_eq]
  exact and_iff_left hcontains

/-- What a scene says is missing is missing at an element that was visited, or in the description of
    a material that one referred to. -/
theorem countP_diagnostics (hcounted : Diagnostic.OnlyMissing counted)
    (h : assemble settings d w = (.ok scene, w'))
    (hlibrary : w.library.FailsOnly fun x => counted x = false) :
    scene.report.diagnostics.countP counted =
      ((d.visits settings).flatMap fun e => e.missingNames d w.registry).countP counted +
        (w.registry.missingIn (d.recordsOf (d.visits settings))).countP counted := by
  obtain ⟨n, q, root, hvisit, rfl, -⟩ := visit_of_assemble h
  have hstands : w.start.Stands ⟨d, settings⟩ w.registry counted := stands_start hlibrary
  have htold : w.start.Told ⟨d, settings⟩ w.registry counted q
      ((d.visits settings).flatMap fun e => e.missingNames d w.registry)
      ((d.visits settings).flatMap d.drawn) := by
    have hvisited := Walk.warned_visit hcounted ⟨w.arena.next, Affine.identity⟩ .nothing [] d.rootId
      w.start hstands
    rwa [hvisit] at hvisited
  have hdue : w.start.unmade ⟨d, settings⟩ = d.materials.entries :=
    List.filter_eq_self.mpr fun _ _ => rfl
  have hleft : q.unmade ⟨d, settings⟩ = d.materials.entries.filter fun x =>
      !(d.visits settings).any fun e => e.material == some x.1 := by
    refine List.filter_congr fun x hx => ?_
    have hmade : (q.materials.find? x.1).isSome = true ↔ _ :=
      (htold.made x.1).trans (or_iff_right Bool.false_ne_true)
    rw [← Option.not_isSome, Bool.eq_iff_iff.mpr (hmade.trans (mem_drawn_iff hx _))]
  have hsplit := ((List.filter_append_perm
    (fun x => (d.visits settings).any fun e => e.material == some x.1)
    d.materials.entries).flatMap_right fun x => x.2.names.flatMap w.registry.missing).countP_eq
      counted
  rw [List.flatMap_append, List.countP_append] at hsplit
  have hnothing : w.start.report.diagnostics.countP counted = 0 := rfl
  have hcount := htold.count
  rw [hdue, hleft, hnothing, Nat.zero_add] at hcount
  have hreport : (Scene.ofRoot d root q.report).report.diagnostics.countP counted =
      q.report.diagnostics.countP counted := by
    show (q.report.diagnostics ++ cameraFaults d.cameras).countP counted = _
    rw [List.countP_append, countP_cameraFaults hcounted, Nat.add_zero]
  rw [hreport]
  simp only [TextureRegistry.missingIn, Document.recordsOf] at hcount ⊢
  omega

/-- **How often a missing name is reported.**  A texture that does not exist is reported once for
    each visit to an element that names it, once for each name of it in the description of a
    material that a visited element refers to, however many do, and once for each face of a sky box
    at each visit.  A material that does not exist is reported once for each visit to an element
    that names it. -/
theorem missing_names_counted (h : assemble settings d w = (.ok scene, w')) :
    (∀ t, w.registry.knows t = false →
      (w.library.FailsOnly fun x => x.missesTexture t = false) →
      scene.report.diagnostics.countP (Diagnostic.missesTexture t) =
        (d.visits settings).countP (fun e => e.texture == some t) +
          ((d.recordsOf (d.visits settings)).flatMap fun x => x.2.names).count (some t) +
          ((d.visits settings).flatMap fun e => e.kind.faces).count (some t)) ∧
    ∀ m, d.materials.find? m = none →
      (w.library.FailsOnly fun x => x.missesMaterial m = false) →
      scene.report.diagnostics.countP (Diagnostic.missesMaterial m) =
        (d.visits settings).countP fun e => e.material == some m := by
  constructor
  · intro t ht hlibrary
    rw [countP_diagnostics (Diagnostic.onlyMissing_texture t) h hlibrary,
      countP_missingNames_texture ht, TextureRegistry.missingIn, ← List.flatMap_assoc,
      countP_missing ht]
    omega
  · intro m hm hlibrary
    rw [countP_diagnostics (Diagnostic.onlyMissing_material m) h hlibrary,
      countP_missingNames_material hm, TextureRegistry.missingIn, ← List.flatMap_assoc,
      countP_missing_material, Nat.add_zero]

/-- Models given as documents are refused for no name of a material or a texture. -/
theorem failsOnly_ofDocuments_of_onlyMissing (hcounted : Diagnostic.OnlyMissing counted)
    (documents : Table (Option (Document K))) :
    (ModelLibrary.withLoader (.ofDocuments documents)).FailsOnly fun x => counted x = false :=
  failsOnly_ofDocuments documents (fun _ _ => hcounted _ rfl) (hcounted _ rfl)
    fun _ => hcounted _ rfl

end Scenes

namespace Hall

/-- A room of some paint and texture. -/
def room : Element Float32 :=
  { Element.ofKind "room" (.group []) with material := some "paint", texture := some "mould" }

/-- A sky with a texture on one of its faces. -/
def sky : Element Float32 :=
  { Element.ofKind "sky" (.primitive (.skybox { SkyboxSpec.standard with
      faces := #v[some "mould", none, none, none, none, none] })) with
    material := some "plaster" }

def hall : Element Float32 := .ofKind "hall" (.group ["room", "sky", "room"])

/-- The room is met twice.  Two maps of its paint, its texture and a face of the sky have a name
    that stands for nothing, and so has the material of the sky. -/
def document : Document Float32 :=
  ((((Document.ofRoot "hall").addElement hall).addElement room).addElement sky).addMaterial "paint"
    { MaterialSpec.standard with texture := some "mould", specularMap := some "mould" }

theorem visits_eq : document.visits .standard = [hall, room, sky, room] := by
  have hroom : visits ⟨document, .standard⟩ ["hall"] "room" = [room] := by
    rw [visits_inside (e := room) rfl (by simp) (by simp [Settings.standard])]
    rfl
  have hsky : visits ⟨document, .standard⟩ ["hall"] "sky" = [sky] := by
    rw [visits_inside (e := sky) rfl (by simp) (by simp [Settings.standard])]
    rfl
  rw [Document.visits, visits_inside (e := hall) rfl List.not_mem_nil
    (by simp [Settings.standard])]
  show _ :: ["room", "sky", "room"].flatMap (visits ⟨document, .standard⟩ ["hall"]) = _
  simp [hroom, hsky]

/-- No textures, and no models either. -/
def workshop : Workshop Float32 :=
  ⟨.empty, .ofRecords .empty "." .placeholder, .withLoader (.ofDocuments .empty)⟩

end Hall

theorem missing_names_counted_hall :
    ∃ scene w', assemble .standard Hall.document Hall.workshop = (.ok scene, w') ∧
      Hall.workshop.registry.knows "mould" = false ∧
      Hall.document.materials.find? "plaster" = none ∧
      scene.report.diagnostics.countP (Diagnostic.missesTexture "mould") = 5 ∧
      scene.report.diagnostics.countP (Diagnostic.missesMaterial "plaster") = 1 := by
  obtain ⟨scene, w', hscene⟩ := exists_scene (d := Hall.document) .standard Hall.workshop rfl
  obtain ⟨htextures, hmaterials⟩ := missing_names_counted hscene
  have hmould := htextures "mould" rfl
    (failsOnly_ofDocuments_of_onlyMissing (Diagnostic.onlyMissing_texture "mould") .empty)
  have hplaster := hmaterials "plaster" rfl
    (failsOnly_ofDocuments_of_onlyMissing (Diagnostic.onlyMissing_material "plaster") .empty)
  rw [Hall.visits_eq] at hmould hplaster
  exact ⟨scene, w', hscene, rfl, rfl, hmould.trans rfl, hplaster.trans rfl⟩

end SceneAssembly
