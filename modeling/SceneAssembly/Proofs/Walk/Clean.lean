/-
  SceneAssembly/Proofs/Walk/Clean.lean
  ====================================
  **With a clean report, nothing was left out.**

  A diagnostic is never taken back, so an assembly that ends with a clean report
  had one after every step.  Then no action of the walk left anything out
  (`Cleanly`), and every element that was entered is there with all it refers to
  (`IsWhole`).  Only the camera in use is not covered by the report: an
  identifier that names no camera is left out in silence.
-/
import SceneAssembly.Proofs.Walk.Instances

namespace SceneAssembly

variable {K : Type}

/-! ## 1. Clean runs -/

abbrev Progress.IsClean (p : Progress K) : Prop := p.report.diagnostics = []

theorem Progress.not_isClean_noting (p : Progress K) (d : Diagnostic K) :
    ¬ (p.noting [d]).IsClean := by
  intro h
  exact List.cons_ne_nil d [] (List.append_eq_nil_iff.mp h).2

/-- What is kept for later was made without fault: the textures come from a first registry, and
    the materials from descriptions whose textures this registry knows. -/
structure Kept (c : Setting K) (r : TextureRegistry K) (p : Progress K) : Prop where
  registry : r.Extends p.registry
  materials : ∀ {id m}, p.materials.find? id = some m →
    ∃ spec, c.document.materials.find? id = some spec ∧ spec.IsComplete r

/-- An element refers to nothing that is missing, and all of its steps are known. -/
structure Element.IsComplete (e : Element K) (d : Document K) (r : TextureRegistry K) : Prop where
  material : ∀ id ∈ e.material, ∃ spec, d.materials.find? id = some spec ∧ spec.IsComplete r
  texture : ∀ id ∈ e.texture, r.knows id = true
  transforms : ∀ step ∈ e.transforms, step.isKnown = true

/-- A node holds all that the kind of its element asks for: a node for each reference, in order or by
    distance, or else what is to be shown. -/
def ElementKind.FilledBy (r : TextureRegistry K) (n : SceneNode K) : ElementKind K → Prop
  | .group children => n.children.map SceneNode.name = children
  | .primitive (.model _) => ∃ m, n.children = [m]
  | .primitive (.skybox spec) =>
    n.mesh.isSome ∧ ∀ id, some id ∈ spec.faces.toList → r.knows id = true
  | .primitive _ => n.mesh.isSome
  | .light _ => n.light.isSome
  | .lod levels => (n.levels.map fun l => (l.node.name, l.minDistance)).Perm
      (levels.map fun l => (l.target, l.minDistance))
  | .unsupported _ => False

/-- Nothing is missing at the node of an element. -/
def IsWhole (d : Document K) (r : TextureRegistry K) (n : SceneNode K) : Prop :=
  ∃ e, d.elements.find? n.name = some e ∧ e.IsComplete d r ∧ e.kind.FilledBy r n

namespace Walk

/-- If the report is clean after an action, it was so before it, what is kept was made without
    fault again, and the result has a property. -/
def Cleanly {α : Type} (c : Setting K) (r : TextureRegistry K) (x : Walk K α) (R : α → Prop) :
    Prop :=
  ∀ p, (x p).2.IsClean → p.IsClean ∧ (Kept c r p → Kept c r (x p).2 ∧ R (x p).1)

namespace Cleanly

variable {α β : Type} {c : Setting K} {r : TextureRegistry K} {R : α → Prop}

theorem pure {a : α} (h : R a) : Cleanly c r (Pure.pure a : Walk K α) R :=
  fun _ hclean => ⟨hclean, fun hp => ⟨hp, h⟩⟩

theorem bind {S : β → Prop} {x : Walk K α} {f : α → Walk K β} (hx : Cleanly c r x R)
    (hf : ∀ a, Cleanly c r (f a) fun b => R a → S b) : Cleanly c r (x >>= f) S := by
  intro p hclean
  obtain ⟨hmid, hrest⟩ := hf (x p).1 (x p).2 hclean
  obtain ⟨hp, hfirst⟩ := hx p hmid
  refine ⟨hp, fun hkept => ?_⟩
  obtain ⟨hkept', hR⟩ := hfirst hkept
  obtain ⟨hkept'', hS⟩ := hrest hkept'
  exact ⟨hkept'', hS hR⟩

theorem mono {S : α → Prop} {x : Walk K α} (hx : Cleanly c r x R) (h : ∀ a, R a → S a) :
    Cleanly c r x S := by
  intro p hclean
  obtain ⟨hp, hrun⟩ := hx p hclean
  exact ⟨hp, fun hkept => ⟨(hrun hkept).1, h _ (hrun hkept).2⟩⟩

theorem report (d : Diagnostic K) : Cleanly c r (Walk.report d) fun _ => False :=
  fun p hclean => absurd hclean (p.not_isClean_noting d)

theorem reportAll (ds : List (Diagnostic K)) : Cleanly c r (Walk.reportAll ds) fun _ => ds = [] := by
  intro p hclean
  obtain ⟨hp, hds⟩ := List.append_eq_nil_iff.mp hclean
  exact ⟨hp, fun hkept => ⟨⟨hkept.registry, hkept.materials⟩, hds⟩⟩

theorem onTextures {step : Texturing K α} (hgrow : ∀ s, Texturing.Growth s (step s).2)
    (h : ∀ s, r.Extends s.1 → R (step s).1) : Cleanly c r (Walk.onTextures step) R := by
  intro p hclean
  refine ⟨hclean, fun hkept => ⟨⟨?_, hkept.materials⟩, h (p.registry, p.arena) hkept.registry⟩⟩
  exact hkept.registry.trans (hgrow (p.registry, p.arena)).registry

theorem onArena (step : StateM Arena α) : Cleanly c r (Walk.onArena step) fun _ => True :=
  fun _ hclean => ⟨hclean, fun hkept => ⟨⟨hkept.registry, hkept.materials⟩, trivial⟩⟩

end Cleanly

/-! ## 2. What an element refers to -/

theorem cleanly_levelScope {c : Setting K} {r : TextureRegistry K} (scope : Inherited K) :
    Cleanly c r (levelScope scope) fun _ => True := by
  unfold levelScope
  cases scope.material with
  | none => exact .pure trivial
  | some m => exact .bind (.onArena _) fun _ => .pure fun _ => trivial

variable [Scalar K] {c : Setting K} {r : TextureRegistry K}

theorem cleanly_lookupTexture (id : String) :
    Cleanly c r (lookupTexture (K := K) id) fun _ => r.knows id = true := by
  have hresolve : Cleanly c r (onTextures (TextureRegistry.resolve (K := K) id))
      fun t => t.isSome = r.knows id := by
    refine .onTextures (fun s => TextureRegistry.growth_resolve id) fun s hs => ?_
    rw [TextureRegistry.isSome_resolve, hs.knows_eq]
  refine hresolve.bind fun t => ?_
  cases t with
  | some t => exact .pure fun hknown => hknown.symm
  | none => exact (Cleanly.report _).bind fun _ => .pure fun hfalse => hfalse.elim

theorem cleanly_textureOf (e : Element K) (inherited : Inherited K) :
    Cleanly c r (textureOf e inherited) fun _ => ∀ id ∈ e.texture, r.knows id = true := by
  unfold textureOf
  cases e.texture with
  | none => exact .pure fun id hid => (Option.not_mem_none id hid).elim
  | some id =>
    refine (cleanly_lookupTexture id).bind fun t => ?_
    have hknown : r.knows id = true → ∀ id' ∈ some id, r.knows id' = true := by
      rintro h _ ⟨⟩
      exact h
    cases t with
    | some t => exact .pure hknown
    | none => exact .pure hknown

theorem cleanly_materialOf (e : Element K) (inherited : Inherited K) :
    Cleanly c r (materialOf c e inherited) fun _ => ∀ id ∈ e.material,
      ∃ spec, c.document.materials.find? id = some spec ∧ spec.IsComplete r := by
  intro p hclean
  cases hid : e.material with
  | none =>
    rw [materialOf_inherited hid] at hclean ⊢
    exact ⟨hclean, fun hkept => ⟨hkept, by rintro _ ⟨⟩⟩⟩
  | some id =>
    cases hfound : p.materials.find? id with
    | some m =>
      rw [materialOf_kept hid hfound] at hclean ⊢
      refine ⟨hclean, fun hkept => ⟨hkept, ?_⟩⟩
      rintro _ ⟨⟩
      exact hkept.materials hfound
    | none =>
      cases hspec : c.document.materials.find? id with
      | none =>
        rw [materialOf_missing hid hfound hspec] at hclean
        exact absurd hclean (p.not_isClean_noting _)
      | some spec =>
        obtain ⟨m, faults, r', a, hbuild, heq⟩ := materialOf_build inherited hid hfound hspec
        have hgrow := MaterialSpec.growth_build (s := (p.registry, p.arena)) spec
        have hnil := MaterialSpec.build_faults_eq_nil_iff (s := (p.registry, p.arena)) spec
        rw [hbuild] at hgrow hnil
        rw [heq] at hclean ⊢
        obtain ⟨hp, hfaults⟩ := List.append_eq_nil_iff.mp hclean
        refine ⟨hp, fun hkept => ?_⟩
        have hcomplete : spec.IsComplete r := (hnil.mp hfaults).of_extends hkept.registry
        refine ⟨⟨hkept.registry.trans hgrow.registry, fun {id' m'} hm' => ?_⟩, ?_⟩
        · have hm' : (p.materials.insert id ⟨a.next, m⟩).find? id' = some m' := hm'
          rw [Table.find?_insert] at hm'
          split at hm'
          next heq => exact ⟨spec, heq ▸ hspec, hcomplete⟩
          next => exact hkept.materials hm'
        · rintro _ ⟨⟩
          exact ⟨spec, hspec, hcomplete⟩

theorem cleanly_enter (parent : Shared (Affine K)) (inherited : Inherited K) (id : String)
    (e : Element K) :
    Cleanly c r (enter c parent inherited id e) fun _ => e.IsComplete c.document r := by
  have hscope : Cleanly c r (scopeOf c e inherited) fun _ =>
      (∀ id ∈ e.material, ∃ spec,
        c.document.materials.find? id = some spec ∧ spec.IsComplete r) ∧
      ∀ id ∈ e.texture, r.knows id = true :=
    (cleanly_materialOf e inherited).bind fun _ => (cleanly_textureOf e inherited).bind fun _ =>
      .pure fun htexture hmaterial => ⟨hmaterial, htexture⟩
  refine hscope.bind fun scope => (Cleanly.reportAll _).bind fun _ => ?_
  refine (Cleanly.onArena _).bind fun _ => .pure ?_
  rintro - hfaults ⟨hmaterial, htexture⟩
  exact ⟨hmaterial, htexture, TransformStep.faults_eq_nil_iff.mp hfaults⟩

/-! ## 3. What an element holds -/

theorem cleanly_surfaceMaterial (scope : Inherited K) :
    Cleanly c r (surfaceMaterial c scope) fun _ => True := by
  obtain ⟨material, texture, cast, receive⟩ := scope
  cases material with
  | none =>
    intro p hclean
    obtain ⟨arena, registry, library, materials, fallback, report⟩ := p
    cases fallback with
    | some m => exact ⟨hclean, fun hkept => ⟨hkept, trivial⟩⟩
    | none => exact ⟨hclean, fun hkept => ⟨⟨hkept.registry, hkept.materials⟩, trivial⟩⟩
  | some m =>
    cases texture with
    | none => exact .pure trivial
    | some t => exact .onArena _

theorem cleanly_faceMaterials (spec : SkyboxSpec K) (faces : List (Option String)) :
    Cleanly c r (faceMaterials spec faces) fun _ =>
      ∀ id, some id ∈ faces → r.knows id = true := by
  induction faces with
  | nil => exact .pure fun id hid => by cases hid
  | cons face rest ih =>
    unfold faceMaterials
    have hrest : ∀ map, Cleanly c r (do
        let m ← onArena (K := K) (do
          Arena.share (← Material.skyboxFace map spec.emissive spec.intensity))
        return m :: (← faceMaterials spec rest)) fun _ =>
          ∀ id, some id ∈ rest → r.knows id = true :=
      fun map => (Cleanly.onArena _).bind fun _ => ih.bind fun _ => .pure fun hrest _ => hrest
    cases face with
    | none =>
      refine (hrest none).mono fun _ hknown id hid => hknown id ?_
      exact (List.mem_cons.mp hid).resolve_left fun h => by cases h
    | some id =>
      refine (cleanly_lookupTexture id).bind fun map => (hrest map).mono fun _ hknown hfound => ?_
      intro id' hid'
      rcases List.mem_cons.mp hid' with heq | hid'
      · cases heq
        exact hfound
      · exact hknown id' hid'

theorem cleanly_attachMesh {scope : Inherited K} {shape : ShapeSpec K} {n : SceneNode K}
    (hshape : ∀ file, shape ≠ .model file) :
    Cleanly c r (attachMesh c scope shape n) fun m =>
      (ElementKind.primitive shape).FilledBy r m := by
  unfold attachMesh
  cases shape.build c.settings with
  | error d => exact (Cleanly.report d).bind fun _ => .pure fun hfalse => hfalse.elim
  | ok geometry =>
    refine (Cleanly.onArena _).bind fun g => (cleanly_surfaceMaterial scope).bind fun m => ?_
    cases shape with
    | model file => exact absurd rfl (hshape file)
    | skybox spec =>
      exact (cleanly_faceMaterials spec _).bind fun _ => .pure fun hfaces _ _ => ⟨rfl, hfaces⟩
    | _ => exact Cleanly.bind (R := fun _ => True) (.pure trivial) fun _ => .pure fun _ _ _ => rfl

theorem cleanly_attachModel {scope : Inherited K} {file : String} {n : SceneNode K}
    (hn : n.children = []) :
    Cleanly c r (attachModel c scope file n) fun m =>
      (ElementKind.primitive (.model file)).FilledBy r m := by
  intro p hclean
  obtain ⟨m, q, hrun⟩ : ∃ m q, attachModel c scope file n p = (m, q) := ⟨_, _, rfl⟩
  rw [hrun] at hclean ⊢
  rcases attachModel_cases hrun with
    ⟨d, library, b, -, -, rfl⟩ | ⟨t, library, b, model, arena, -, -, rfl, rfl⟩
  · exact absurd hclean (Progress.not_isClean_noting _ d)
  · refine ⟨hclean, fun hkept => ⟨⟨hkept.registry, hkept.materials⟩, ?_⟩⟩
    exact ⟨_, by rw [hn]; rfl⟩

theorem cleanly_attachShape (scope : Inherited K) (shape : ShapeSpec K) {n : SceneNode K}
    (hn : n.children = []) :
    Cleanly c r (attachShape c scope shape n) fun m =>
      (ElementKind.primitive shape).FilledBy r m := by
  by_cases hmodel : ∃ file, shape = .model file
  · obtain ⟨file, rfl⟩ := hmodel
    exact cleanly_attachModel hn
  · have hne : ∀ file, shape ≠ .model file := fun file h => hmodel ⟨file, h⟩
    rw [attachShape_of_ne_model hne]
    exact cleanly_attachMesh hne

theorem cleanly_attachLight (spec : LightSpec K) (n : SceneNode K) :
    Cleanly c r (attachLight spec n) fun m => (ElementKind.light spec).FilledBy r m := by
  unfold attachLight
  cases Light.ofSpec spec with
  | error d => exact (Cleanly.report d).bind fun _ => .pure fun hfalse => hfalse.elim
  | ok light => exact .pure rfl

/-! ## 4. Visits -/

theorem Entered.isWhole {parent : Shared (Affine K)} {inherited : Inherited K} {path : List String}
    {id : String} {p q : Progress K} {e : Element K} {scope : Inherited K} {own n : SceneNode K}
    (h : Entered c parent inherited path id p e scope own q) (hname : n.name = id)
    (hrefers : e.IsComplete c.document r) (hfills : e.kind.FilledBy r n) : IsWhole c.document r n :=
  ⟨e, hname ▸ h.found, hrefers, hfills⟩

/-- Entering an element without fault. -/
theorem Entered.cleanly {parent : Shared (Affine K)} {inherited : Inherited K} {path : List String}
    {id : String} {p q : Progress K} {e : Element K} {scope : Inherited K} {own : SceneNode K}
    (h : Entered c parent inherited path id p e scope own q) (hclean : q.IsClean) :
    p.IsClean ∧ (Kept c r p → Kept c r q ∧ e.IsComplete c.document r) := by
  have hrun := cleanly_enter (c := c) (r := r) parent inherited id e p
  rw [h.entered] at hrun
  exact hrun hclean

omit [Scalar K] in
theorem map_name_of_all_built {ids : List String} {built : List (Option (SceneNode K))}
    (h : List.Forall₂ (fun id n => ∃ m : SceneNode K, n = some m ∧ m.name = id) ids built) :
    built.reduceOption.map SceneNode.name = ids := by
  induction h with
  | nil => rfl
  | cons hfirst _ ih =>
    obtain ⟨m, rfl, rfl⟩ := hfirst
    rw [List.reduceOption_cons_of_some, List.map_cons, ih]

omit [Scalar K] in
theorem map_target_of_all_built {levels : List (LevelSpec K)}
    {built : List (Option (Level K (SceneNode K)))}
    (h : List.Forall₂ (fun level l => ∃ m : SceneNode K,
      l = some ⟨level.minDistance, m⟩ ∧ m.name = level.target) levels built) :
    built.reduceOption.map (fun l => (l.node.name, l.minDistance)) =
      levels.map fun l => (l.target, l.minDistance) := by
  induction h with
  | nil => rfl
  | cons hfirst _ ih =>
    obtain ⟨m, rfl, hname⟩ := hfirst
    rw [List.reduceOption_cons_of_some, List.map_cons, ih, List.map_cons, hname]

def BuiltWhole (c : Setting K) (r : TextureRegistry K) (path : List String) (id : String)
    (n : Option (SceneNode K)) : Prop :=
  ∃ m, n = some m ∧
    Holds c.document (fun place => IsWhole c.document r place.node) path id (some m)

def VisitsCleanly (c : Setting K) (r : TextureRegistry K) (path : List String) (id : String)
    (p : Progress K) (n : Option (SceneNode K)) (q : Progress K) : Prop :=
  q.IsClean → p.IsClean ∧ (Kept c r p → Kept c r q ∧ BuiltWhole c r path id n)

omit [Scalar K] in
theorem LevelVisit.cleanly {path : List String} {scope : Inherited K} {level : LevelSpec K}
    {p q : Progress K} {l : Option (Level K (SceneNode K))}
    (h : LevelVisit (fun _ => VisitsCleanly c r path) scope level p l q) (hclean : q.IsClean) :
    p.IsClean ∧ (Kept c r p → Kept c r q ∧ ∃ m, l = some ⟨level.minDistance, m⟩ ∧
      Holds c.document (fun place => IsWhole c.document r place.node) path level.target
        (some m)) := by
  obtain ⟨own, p', n, hscope, hvisit, rfl⟩ := h
  have hlevel := cleanly_levelScope (c := c) (r := r) scope p
  rw [hscope] at hlevel
  obtain ⟨hp', hrun⟩ := hvisit hclean
  obtain ⟨hp, hown⟩ := hlevel hp'
  refine ⟨hp, fun hkept => ?_⟩
  obtain ⟨hkept, m, rfl, hholds⟩ := hrun (hown hkept).1
  exact ⟨hkept, m, rfl, hholds⟩

omit [Scalar K] in
/-- Steps that end with a clean report began with one. -/
theorem Steps.isClean {α β : Type} {R : α → Progress K → β → Progress K → Prop} {as : List α}
    {bs : List β} {p q : Progress K} (hs : Steps R as p bs q)
    (h : ∀ a p b q, R a p b q → q.IsClean → p.IsClean) (hclean : q.IsClean) : p.IsClean :=
  hs.lift (G := fun p q => q.IsClean → p.IsClean) (fun _ h => h) (fun h h' hr => h (h' hr)) h hclean

/-- **A visit that ends with a clean report builds a node**, and all of it is whole. -/
theorem isWhole_visit (c : Setting K) (r : TextureRegistry K) (parent : Shared (Affine K))
    (inherited : Inherited K) (path : List String) (id : String) (p : Progress K) :
    VisitsCleanly c r path id p (visit c parent inherited path id p).1
      (visit c parent inherited path id p).2 := by
  refine visit_induction (P := fun _ _ path id p n q => VisitsCleanly c r path id p n q)
    ?leftOut ?group ?primitive ?light ?lod parent inherited path id p
  case leftOut =>
    intro _ _ _ _ p q d _ _ hclean
    exact absurd hclean (q.not_isClean_noting d)
  case group =>
    intro _ _ path id p e scope own q children built q' hentered hkind hsteps hclean
    obtain ⟨hp, hrun⟩ := hentered.cleanly (r := r)
      (hsteps.isClean (fun _ _ _ _ h hq => (h.2 hq).1) hclean)
    refine ⟨hp, fun hkept => ?_⟩
    obtain ⟨hkept, hcomplete⟩ := hrun hkept
    obtain ⟨hkept, hall⟩ := hsteps.bounded (B := Progress.IsClean) (I := Kept c r)
      (J := BuiltWhole c r (id :: path)) (fun _ _ _ _ h hq => (h.2 hq).1)
      (fun _ _ _ _ h hq => (h.2 hq).2) hclean hkept
    refine ⟨⟨hkept.registry, hkept.materials⟩, _, rfl, ?_⟩
    have hnames := map_name_of_all_built (hall.imp fun id' n ⟨m, hm, hholds⟩ =>
      ⟨m, hm, (hholds m rfl).1⟩)
    refine .branches hentered.own_name ?_ (hentered.branches_group (hall.imp ?_))
    · refine hentered.isWhole hentered.own_name hcomplete ?_
      rw [hkind]
      exact hnames
    · rintro id' _ ⟨m, rfl, hholds⟩
      exact hholds
  case primitive =>
    intro _ _ path id p e scope own q shape n q' hentered hkind hattach hclean
    have hrun := cleanly_attachShape (c := c) (r := r) scope shape hentered.own_children q
    rw [hattach] at hrun
    obtain ⟨hq, hattached⟩ := hrun hclean
    obtain ⟨hp, hrun⟩ := hentered.cleanly (r := r) hq
    refine ⟨hp, fun hkept => ?_⟩
    obtain ⟨hkept, hcomplete⟩ := hrun hkept
    obtain ⟨hkept, hfilled⟩ := hattached hkept
    obtain ⟨hname, hleaf⟩ := hentered.attached hkind hattach
    refine ⟨⟨hkept.registry, hkept.materials⟩, _, rfl, .single hname ?_ hleaf⟩
    refine hentered.isWhole hname hcomplete ?_
    rw [hkind]
    exact hfilled
  case light =>
    intro _ _ path id p e scope own q spec n q' hentered hkind hattach hclean
    have hrun := cleanly_attachLight (c := c) (r := r) spec own q
    rw [hattach] at hrun
    obtain ⟨hq, hattached⟩ := hrun hclean
    obtain ⟨hp, hrun⟩ := hentered.cleanly (r := r) hq
    refine ⟨hp, fun hkept => ?_⟩
    obtain ⟨hkept, hcomplete⟩ := hrun hkept
    obtain ⟨hkept, hfilled⟩ := hattached hkept
    obtain ⟨light, rfl⟩ := attachLight_eq hattach
    refine ⟨⟨hkept.registry, hkept.materials⟩, _, rfl,
      .single hentered.own_name ?_ (.inl hentered.own_branches)⟩
    refine hentered.isWhole hentered.own_name hcomplete ?_
    rw [hkind]
    exact hfilled
  case lod =>
    intro _ _ path id p e scope own q levels built q' hentered hkind hsteps hclean
    have hlevels := hsteps.mono (S := LevelVisit (fun _ => VisitsCleanly c r (id :: path)) scope)
      fun _ _ _ _ ⟨own, p', n, hscope, hvisit, hl⟩ => ⟨own, p', n, hscope, hvisit.2, hl⟩
    obtain ⟨hp, hrun⟩ := hentered.cleanly (r := r)
      (hlevels.isClean (fun _ _ _ _ h hq => (h.cleanly hq).1) hclean)
    refine ⟨hp, fun hkept => ?_⟩
    obtain ⟨hkept, hcomplete⟩ := hrun hkept
    obtain ⟨hkept, hall⟩ := hlevels.bounded (B := Progress.IsClean) (I := Kept c r)
      (J := fun level l => ∃ m, l = some ⟨level.minDistance, m⟩ ∧
        Holds c.document (fun place => IsWhole c.document r place.node) (id :: path) level.target
          (some m))
      (fun _ _ _ _ h hq => (h.cleanly hq).1) (fun _ _ _ _ h hq => (h.cleanly hq).2) hclean hkept
    refine ⟨⟨hkept.registry, hkept.materials⟩, _, rfl, ?_⟩
    have htargets := map_target_of_all_built (hall.imp fun level l ⟨m, hm, hholds⟩ =>
      ⟨m, hm, (hholds m rfl).1⟩)
    refine .branches hentered.own_name ?_ (hentered.branches_lod (hall.imp ?_))
    · refine hentered.isWhole hentered.own_name hcomplete ?_
      rw [hkind, ElementKind.FilledBy, ← htargets]
      -- The levels are sorted by distance, the references are not.
      exact (Lod.levels_ofLevels_perm _).map _
    · rintro level _ ⟨m, rfl, hholds⟩
      exact hholds

end Walk

/-! ## 5. Assembled scenes -/

theorem cameraFaults_eq_nil_iff {cameras : Table (Camera K)} :
    cameraFaults cameras = [] ↔ (cameras.filter fun _ camera => camera.isKnown) = cameras := by
  obtain ⟨entries, hnodup⟩ := cameras
  simp only [cameraFaults, Table.filter, Table.mk.injEq, List.map_eq_nil_iff, List.filter_eq_nil_iff,
    List.filter_eq_self, Bool.not_eq_true', Bool.not_eq_false]

variable [Scalar K]

/-- **A clean report means that nothing was left out**, neither a node nor a step, a shape, a light, a
    material, a texture or a camera.  The camera in use is the one that the document names, provided
    that this is a camera at all. -/
theorem isWhole_of_isClean {settings : Settings K} {d : Document K} {w w' : Workshop K}
    {scene : Scene K} (h : assemble settings d w = (.ok scene, w'))
    (hclean : scene.report.isClean = true) :
    leftOut? ⟨d, settings⟩ [] d.rootId = none ∧
      (∀ place, scene.HasPlace ⟨d, settings⟩ place → IsWhole d w.registry place.node ∧
        (IsModel d place.node.name →
          ∃ root, w.library.Offers root ∧ InstanceAt d place root)) ∧
      scene.cameras = d.cameras ∧
      ∀ id, d.activeCamera = some id →
        (scene.activeCamera = some id ↔ d.cameras.contains id = true) := by
  have hbuilt : ∀ place, scene.HasPlace ⟨d, settings⟩ place → Built d w.library.Offers place :=
    fun _ => built_scene h
  obtain ⟨n, q, root, hvisit, rfl, -, -, hn⟩ := visit_of_assemble h
  obtain ⟨hq, hfaults⟩ := List.append_eq_nil_iff.mp (List.isEmpty_iff.mp hclean)
  have hcameras := cameraFaults_eq_nil_iff.mp hfaults
  have hwhole := Walk.isWhole_visit ⟨d, settings⟩ w.registry ⟨w.arena.next, Affine.identity⟩
    .nothing [] d.rootId w.start
  rw [hvisit] at hwhole
  obtain ⟨-, m, hm, hholds⟩ := (hwhole hq).2 ⟨.refl _, fun hm => by cases hm⟩
  subst hm
  obtain ⟨rfl, -⟩ := hn
  have hleft : leftOut? ⟨d, settings⟩ [] d.rootId = none := by
    by_contra hleft
    obtain ⟨reason, hreason⟩ := Option.ne_none_iff_exists'.mp hleft
    have hrealizes := Walk.realizes_visit ⟨d, settings⟩ ⟨w.arena.next, Affine.identity⟩ .nothing []
      d.rootId w.start
    rw [hvisit, unfold_leftOut hreason] at hrealizes
    cases hrealizes
  refine ⟨hleft, fun place hplace => ?_, hcameras, fun id hid => ?_⟩
  · have hplaceWhole := (hholds root rfl).2 place hplace.2
    refine ⟨hplaceWhole, fun hmodel => ?_⟩
    rcases ((hbuilt place hplace).model hmodel).2 with hnone | hinstance
    · obtain ⟨e, hid, -, hfilled⟩ := hplaceWhole
      obtain ⟨e', file, hid', hkind⟩ := hmodel
      obtain rfl : e = e' := Option.some.inj (hid.symm.trans hid')
      rw [hkind] at hfilled
      obtain ⟨m, hm⟩ := hfilled
      have hchildren := (List.append_eq_nil_iff.mp hnone).1
      rw [hm] at hchildren
      cases hchildren
    · exact hinstance
  · show (d.activeCamera.filter (d.cameras.filter fun _ camera => camera.isKnown).contains) =
      some id ↔ _
    rw [hcameras, hid]
    simp

/-- A lamp with a material of its own, and one camera; the camera in use goes by some name. -/
def Document.lamp (active : String) : Document Float32 :=
  { ((Document.ofRoot "lamp").addElement
      { Element.ofKind "lamp" (.light ⟨.standard, .point .standard⟩) with
        material := some "paint", transforms := [.translate Vec3.one] }).addMaterial "paint"
      .standard with
    cameras := Table.empty.insert "eye"
      ⟨"eye", "perspective", Vec3.one, Vec3.zero, 1, 100, none, none, none, none, none⟩
    activeCamera := some active }

def Workshop.bare : Workshop Float32 := ⟨.empty, .ofRecords .empty "." .placeholder, .empty⟩

theorem isClean_lamp {active : String} {scene : Scene Float32} {w' : Workshop Float32}
    (h : assemble .standard (Document.lamp active) Workshop.bare = (.ok scene, w')) :
    scene.report.isClean = true := by
  obtain ⟨q, hvisit, hreport, -⟩ := visit_root h rfl
  have hrun : (Walk.visit ⟨Document.lamp active, .standard⟩
      ⟨Workshop.bare.arena.next, Affine.identity⟩ .nothing [] (Document.lamp active).rootId
        Workshop.bare.start).2.report.diagnostics = [] := by
    rw [Walk.visit_eq_fill (e := { Element.ofKind "lamp" (.light ⟨.standard, .point .standard⟩) with
        material := some "paint", transforms := [.translate Vec3.one] }) _ _ rfl
      List.not_mem_nil (by simp [Settings.standard])]
    rfl
  rw [hvisit] at hrun
  rw [hreport]
  show (q.report.diagnostics ++ _).isEmpty = true
  rw [hrun]
  rfl

theorem isWhole_of_isClean_lamp :
    ∃ scene w', assemble .standard (Document.lamp "eye") Workshop.bare = (.ok scene, w') ∧
      scene.report.isClean = true ∧ scene.cameras = (Document.lamp "eye").cameras ∧
      scene.activeCamera = some "eye" ∧
      IsWhole (Document.lamp "eye") Workshop.bare.registry scene.root := by
  obtain ⟨scene, w', hscene⟩ := exists_scene .standard Workshop.bare
    (d := Document.lamp "eye") rfl
  have hclean := isClean_lamp hscene
  obtain ⟨hleft, hplaces, hcameras, hactive⟩ := isWhole_of_isClean hscene hclean
  exact ⟨scene, w', hscene, hclean, hcameras, (hactive "eye" rfl).mpr rfl,
    (hplaces ⟨["lamp"], scene.root⟩ ⟨hleft, .refl⟩).1⟩

/-- The camera in use may be left out with a clean report. -/
theorem activeCamera_unreported :
    ∃ scene w', assemble .standard (Document.lamp "ghost") Workshop.bare = (.ok scene, w') ∧
      scene.report.isClean = true ∧ (Document.lamp "ghost").activeCamera = some "ghost" ∧
      scene.activeCamera = none := by
  obtain ⟨scene, w', hscene⟩ := exists_scene .standard Workshop.bare
    (d := Document.lamp "ghost") rfl
  refine ⟨scene, w', hscene, isClean_lamp hscene, rfl, ?_⟩
  obtain ⟨n, q, root, -, rfl, -⟩ := visit_of_assemble hscene
  rfl

end SceneAssembly
