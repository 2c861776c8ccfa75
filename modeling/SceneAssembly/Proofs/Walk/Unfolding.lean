/-
  SceneAssembly/Proofs/Walk/Unfolding.lean
  ========================================
  **The assembled tree is the document, unfolded and cut.**

  Following all references from an element turns a document into a tree, with
  one node for each reference; a reference that is left out becomes a cut
  (`unfold`).  The walk builds exactly this tree (`Realizes`): the children of a
  group in their order, and one level for each level of detail, with its
  distance.  The cuts in the order of the walk are what the report says about
  references.

  Both parts are proved by induction over visits, and `assemble_unfolds` puts
  them together for a whole assembly.
-/
import Mathlib.Data.List.Forall2
import SceneAssembly.Proofs.Walk.Filling
import SceneAssembly.Proofs.Walk.Growth

namespace SceneAssembly

variable {K : Type}

/-! ## 1. Unfoldings -/

/-- A part of a document as a tree.  A leaf is an element that refers to none; an element with an
    imported model is set apart, since nodes of the model will stand below it. -/
inductive Unfolding (K : Type) where
  | leftOut (reason : Diagnostic K)
  | leaf (id : String)
  | model (id : String)
  | group (id : String) (children : List (Unfolding K))
  | lod (id : String) (levels : List (Level K (Unfolding K)))

namespace Unfolding

mutual

def cuts : Unfolding K → List (Diagnostic K)
  | leftOut reason => [reason]
  | leaf _ => []
  | model _ => []
  | group _ children => cutsAll children
  | lod _ levels => cutsLevels levels

def cutsAll : List (Unfolding K) → List (Diagnostic K)
  | [] => []
  | u :: rest => cuts u ++ cutsAll rest

def cutsLevels : List (Level K (Unfolding K)) → List (Diagnostic K)
  | [] => []
  | ⟨_, u⟩ :: rest => cuts u ++ cutsLevels rest

end

theorem cutsAll_map {α : Type} (f : α → Unfolding K) (as : List α) :
    cutsAll (as.map f) = as.flatMap fun a => (f a).cuts := by
  induction as with
  | nil => rfl
  | cons a rest ih => rw [List.map_cons, cutsAll, ih, List.flatMap_cons]

theorem cutsLevels_map {α : Type} (distance : α → K) (f : α → Unfolding K) (as : List α) :
    cutsLevels (as.map fun a => ⟨distance a, f a⟩) = as.flatMap fun a => (f a).cuts := by
  induction as with
  | nil => rfl
  | cons a rest ih => rw [List.map_cons, cutsLevels, ih, List.flatMap_cons]

end Unfolding

/-- The document from a reference on, when the walk is inside of the elements of a path. -/
def unfold (c : Setting K) (path : List String) (id : String) : Unfolding K :=
  match _hout : leftOut? c path id with
  | some reason => .leftOut reason
  | none =>
    match (c.document.elements.find? id).map Element.kind with
    | some (.group children) => .group id (children.map (unfold c (id :: path)))
    | some (.lod levels) =>
      .lod id (levels.map fun l => ⟨l.minDistance, unfold c (id :: path) l.target⟩)
    | some (.primitive (.model _)) => .model id
    | _ => .leaf id
termination_by (Walk.remaining c path).length
decreasing_by
  all_goals
    obtain ⟨e, hid, hpath, -⟩ := leftOut?_eq_none_iff.mp _hout
    exact Walk.remaining_lt c hid (mt List.contains_iff_mem.mp hpath)

section Equations

variable {c : Setting K} {path : List String} {id : String} {e : Element K}

theorem unfold_leftOut {d : Diagnostic K} (h : leftOut? c path id = some d) :
    unfold c path id = .leftOut d := by
  rw [unfold]
  split
  next reason hreason => rw [h] at hreason; cases hreason; rfl
  next hnone => rw [h] at hnone; cases hnone

theorem unfold_kind (h : leftOut? c path id = none) (hid : c.document.elements.find? id = some e) :
    unfold c path id =
      match e.kind with
      | .group children => .group id (children.map (unfold c (id :: path)))
      | .lod levels =>
        .lod id (levels.map fun l => ⟨l.minDistance, unfold c (id :: path) l.target⟩)
      | .primitive (.model _) => .model id
      | _ => .leaf id := by
  rw [unfold]
  split
  next reason hreason => rw [h] at hreason; cases hreason
  next => rw [hid]; cases hkind : e.kind with
    | primitive shape => cases shape <;> simp [hkind]
    | _ => simp [hkind]

end Equations

/-! ## 2. Trees that realize an unfolding -/

/-- Levels at the distances of their unfoldings, without those that are left out. -/
def levelsOf (us : List (Level K (Unfolding K))) (ns : List (Option (SceneNode K))) :
    List (Level K (SceneNode K)) :=
  (List.zipWith (fun u n => n.map (Level.mk u.minDistance)) us ns).reduceOption

/-- A node, or its absence, is what an unfolding describes. -/
inductive Realizes : Unfolding K → Option (SceneNode K) → Prop
  | leftOut (reason : Diagnostic K) : Realizes (.leftOut reason) none
  | leaf {id : String} {n : SceneNode K} (hname : n.name = id) (hlod : n.lod = none)
    (hchildren : n.children = []) : Realizes (.leaf id) (some n)
  | model {id : String} {n : SceneNode K} (hname : n.name = id) (hlod : n.lod = none)
    (hchildren : n.children.length ≤ 1) : Realizes (.model id) (some n)
  | group {id : String} {n : SceneNode K} {us : List (Unfolding K)}
    {ns : List (Option (SceneNode K))} (hname : n.name = id) (hlod : n.lod = none)
    (hbelow : List.Forall₂ Realizes us ns) (hchildren : n.children = ns.reduceOption) :
    Realizes (.group id us) (some n)
  | lod {id : String} {n : SceneNode K} {us : List (Level K (Unfolding K))}
    {ns : List (Option (SceneNode K))} {lod : Lod K (SceneNode K)} (hname : n.name = id)
    (hlod : n.lod = some lod) (hbelow : List.Forall₂ (fun u m => Realizes u.node m) us ns)
    (hlevels : lod.levels.Perm (levelsOf us ns)) (hchildren : n.children = []) :
    Realizes (.lod id us) (some n)

/-- Levels that were visited one by one are the levels of their unfoldings. -/
theorem levelsOf_visited {f : LevelSpec K → Unfolding K} {levels : List (LevelSpec K)}
    {built : List (Option (Level K (SceneNode K)))}
    (h : List.Forall₂ (fun level l => ∃ n, Realizes (f level) n ∧
      l = n.map (Level.mk level.minDistance)) levels built) :
    ∃ ns, List.Forall₂ (fun (u : Level K (Unfolding K)) m => Realizes u.node m)
        (levels.map fun level => ⟨level.minDistance, f level⟩) ns ∧
      levelsOf (levels.map fun level => ⟨level.minDistance, f level⟩) ns = built.reduceOption := by
  induction h with
  | nil => exact ⟨[], .nil, rfl⟩
  | cons hlevel _ ih =>
    obtain ⟨n, hn, rfl⟩ := hlevel
    obtain ⟨ns, hbelow, heq⟩ := ih
    refine ⟨n :: ns, .cons hn hbelow, ?_⟩
    cases n with
    | none => exact heq
    | some n => exact congrArg (List.cons _) heq

namespace Walk

theorem Steps.references {α β : Type} {R : α → Progress K → β → Progress K → Prop}
    {cut : α → List (Diagnostic K)} {as : List α} {bs : List β} {p q : Progress K}
    (h : ∀ a p b q, R a p b q → p.library.IsSilent →
      q.library.IsSilent ∧ q.report.references = p.report.references ++ cut a)
    (hs : Steps R as p bs q) (hp : p.library.IsSilent) :
    q.report.references = p.report.references ++ as.flatMap cut := by
  induction hs with
  | nil p => simp
  | cons hstep _ ih =>
    obtain ⟨hq, hcut⟩ := h _ _ _ _ hstep hp
    rw [ih hq, hcut, List.flatMap_cons, List.append_assoc]

variable [Scalar K]

/-! ## 3. Visits realize unfoldings -/

namespace Entered

variable {c : Setting K} {parent : Shared (Affine K)} {inherited : Inherited K}
  {path : List String} {id : String} {p q : Progress K} {e : Element K} {scope : Inherited K}
  {own : SceneNode K}

theorem unfold_group (h : Entered c parent inherited path id p e scope own q)
    {children : List String} (hkind : e.kind = .group children) :
    unfold c path id = .group id (children.map (unfold c (id :: path))) := by
  rw [unfold_kind (h.leftOut?_eq_none (by simp [hkind])) h.found, hkind]

theorem unfold_lod (h : Entered c parent inherited path id p e scope own q)
    {levels : List (LevelSpec K)} (hkind : e.kind = .lod levels) :
    unfold c path id =
      .lod id (levels.map fun l => ⟨l.minDistance, unfold c (id :: path) l.target⟩) := by
  rw [unfold_kind (h.leftOut?_eq_none (by simp [hkind])) h.found, hkind]

theorem unfold_light (h : Entered c parent inherited path id p e scope own q)
    {spec : LightSpec K} (hkind : e.kind = .light spec) : unfold c path id = .leaf id := by
  rw [unfold_kind (h.leftOut?_eq_none (by simp [hkind])) h.found, hkind]

theorem unfold_model (h : Entered c parent inherited path id p e scope own q) {file : String}
    (hkind : e.kind = .primitive (.model file)) : unfold c path id = .model id := by
  rw [unfold_kind (h.leftOut?_eq_none (by simp [hkind])) h.found, hkind]

theorem unfold_shape (h : Entered c parent inherited path id p e scope own q)
    {shape : ShapeSpec K} (hkind : e.kind = .primitive shape)
    (hmodel : ∀ file, shape ≠ .model file) : unfold c path id = .leaf id := by
  rw [unfold_kind (h.leftOut?_eq_none (by simp [hkind])) h.found, hkind]
  cases shape with
  | model file => exact absurd rfl (hmodel file)
  | _ => rfl

end Entered

/-- **A visit builds the node that the unfolding describes.** -/
theorem realizes_visit (c : Setting K) (parent : Shared (Affine K)) (inherited : Inherited K)
    (path : List String) (id : String) (p : Progress K) :
    Realizes (unfold c path id) (visit c parent inherited path id p).1 := by
  refine visit_induction (P := fun _ _ path id _ n _ => Realizes (unfold c path id) n)
    ?leftOut ?group ?primitive ?light ?lod parent inherited path id p
  case leftOut =>
    intro _ _ path id p q d hd _
    rw [unfold_leftOut hd]
    exact .leftOut d
  case group =>
    intro _ _ path id p e scope own q children built r hentered hkind hsteps
    have hbelow := (hsteps.invariant (I := fun _ => True)
      (J := fun id' n => Realizes (unfold c (id :: path) id') n)
      (fun _ _ _ _ h _ => ⟨trivial, h.2⟩) trivial).2
    rw [hentered.unfold_group hkind]
    exact .group hentered.own_name hentered.own_lod (List.forall₂_map_left_iff.mpr hbelow) rfl
  case primitive =>
    intro _ _ path id p e scope own q shape n r hentered hkind hattach
    by_cases hmodel : ∃ file, shape = .model file
    · obtain ⟨file, rfl⟩ := hmodel
      rw [hentered.unfold_model hkind]
      rcases attachModel_eq hattach with rfl | ⟨t, library, b, model, arena, -, -, rfl⟩
      · exact .model hentered.own_name hentered.own_lod (by simp [hentered.own_children])
      · exact .model hentered.own_name hentered.own_lod (by simp [hentered.own_children])
    · have hne : ∀ file, shape ≠ .model file := fun file h => hmodel ⟨file, h⟩
      rw [attachShape_of_ne_model hne] at hattach
      obtain ⟨mesh, rfl⟩ := attachMesh_eq hattach
      rw [hentered.unfold_shape hkind hne]
      exact .leaf hentered.own_name hentered.own_lod hentered.own_children
  case light =>
    intro _ _ path id p e scope own q spec n r hentered hkind hattach
    obtain ⟨light, rfl⟩ := attachLight_eq hattach
    rw [hentered.unfold_light hkind]
    exact .leaf hentered.own_name hentered.own_lod hentered.own_children
  case lod =>
    intro _ _ path id p e scope own q levels built r hentered hkind hsteps
    have hvisited := (hsteps.invariant (I := fun _ => True)
      (J := fun level l => ∃ n, Realizes (unfold c (id :: path) level.target) n ∧
        l = n.map (Level.mk level.minDistance)) ?_ trivial).2
    · obtain ⟨ns, hbelow, heq⟩ := levelsOf_visited hvisited
      rw [hentered.unfold_lod hkind]
      refine .lod hentered.own_name rfl hbelow ?_ hentered.own_children
      rw [heq]
      exact Lod.levels_ofLevels_perm _
    · rintro level p b q ⟨_, p', n, -, ⟨-, hn⟩, rfl⟩ -
      exact ⟨trivial, n, hn, rfl⟩

/-! ## 4. Visits report cuts -/

/-- **A visit reports the cuts of the unfolding, in order.** -/
theorem references_visit (c : Setting K) (parent : Shared (Affine K)) (inherited : Inherited K)
    (path : List String) (id : String) (p : Progress K) (hp : p.library.IsSilent) :
    (visit c parent inherited path id p).2.report.references =
      p.report.references ++ (unfold c path id).cuts := by
  refine visit_induction (P := fun _ _ path id p _ q => p.library.IsSilent →
      q.report.references = p.report.references ++ (unfold c path id).cuts)
    ?leftOut ?group ?primitive ?light ?lod parent inherited path id p hp
  case leftOut =>
    intro _ _ path id p q d hd hq hp
    have hreferences : q.report.references = p.report.references := by
      rcases hq with rfl | ⟨e, scope, own, hentered⟩
      · rfl
      · exact hentered.works.silent hp
    rw [unfold_leftOut hd, Progress.references_noting, hreferences]
    simp [Unfolding.cuts, isReference_of_leftOut? hd]
  case group =>
    intro _ _ path id p e scope own q children built r hentered hkind hsteps hp
    have hbelow : r.report.references = q.report.references ++
        children.flatMap fun id' => (unfold c (id :: path) id').cuts := by
      refine hsteps.references ?_ (hentered.works.isSilent hp)
      rintro id' p' n q' ⟨hvisit, hcut⟩ hp'
      exact ⟨(extends_of_visit hvisit).isSilent hp', hcut hp'⟩
    rw [hentered.unfold_group hkind, Unfolding.cuts, Unfolding.cutsAll_map,
      ← hentered.works.silent hp]
    exact hbelow
  case primitive =>
    intro _ _ path id p e scope own q shape n r hentered hkind hattach hp
    have hworks := works_attachShape c scope shape own q
    rw [hattach] at hworks
    have hcuts : (unfold c path id).cuts = [] := by
      rw [unfold_kind (hentered.leftOut?_eq_none (by simp [hkind])) hentered.found, hkind]
      cases shape <;> rfl
    rw [hcuts, List.append_nil]
    exact (hentered.works.trans hworks).silent hp
  case light =>
    intro _ _ path id p e scope own q spec n r hentered hkind hattach hp
    have hplain := plain_attachLight spec own q
    rw [hattach] at hplain
    rw [hentered.unfold_light hkind, Unfolding.cuts, List.append_nil]
    exact (hentered.works.trans hplain.toWorks).silent hp
  case lod =>
    intro _ _ path id p e scope own q levels built r hentered hkind hsteps hp
    have hbelow : r.report.references = q.report.references ++
        levels.flatMap fun level => (unfold c (id :: path) level.target).cuts := by
      refine hsteps.references ?_ (hentered.works.isSilent hp)
      intro level p₁ l q' hlevel hp₁
      obtain ⟨scope', p₂, -, hplain, hvisit, hcut⟩ := hlevel.parts
      have hp₂ := hplain.isSilent hp₁
      refine ⟨(extends_of_visit hvisit).isSilent hp₂, ?_⟩
      rw [hcut hp₂, hplain.silent hp₁]
    rw [hentered.unfold_lod hkind, Unfolding.cuts, Unfolding.cutsLevels_map,
      ← hentered.works.silent hp]
    exact hbelow

end Walk

/-! ## 5. Assembled scenes -/

theorem Scene.references_ofRoot (d : Document K) (root : SceneNode K) (report : Report K) :
    (Scene.ofRoot d root report).report.references = report.references := by
  have hnone : (cameraFaults d.cameras).filter Diagnostic.isReference = [] := by
    refine List.filter_eq_nil_iff.mpr fun d hd => ?_
    obtain ⟨camera, -, rfl⟩ := List.mem_map.mp hd
    simp [Diagnostic.isReference]
  simp only [Scene.ofRoot, Report.references, List.filter_append, hnone, List.append_nil]

section Scenes

variable [Scalar K] {settings : Settings K} {d : Document K} {w w' : Workshop K} {scene : Scene K}

/-- A root that is not left out is the node of the visit to it. -/
theorem visit_root (h : assemble settings d w = (.ok scene, w'))
    (hleft : leftOut? ⟨d, settings⟩ [] d.rootId = none) :
    ∃ q, Walk.visit ⟨d, settings⟩ ⟨w.arena.next, Affine.identity⟩ .nothing [] d.rootId w.start =
        (some scene.root, q) ∧
      scene.report = (Scene.ofRoot d scene.root q.report).report ∧ w'.registry = q.registry ∧
      w'.arena = q.arena := by
  obtain ⟨n, q, root, hvisit, rfl, hregistry, -, hn⟩ := visit_of_assemble h
  have hrealizes := Walk.realizes_visit ⟨d, settings⟩ ⟨w.arena.next, Affine.identity⟩ .nothing []
    d.rootId w.start
  rw [hvisit] at hrealizes
  cases n with
  | some node =>
    obtain ⟨rfl, harena⟩ := hn
    exact ⟨q, hvisit, rfl, hregistry, harena⟩
  | none =>
    -- Only what is left out has no node.
    exfalso
    obtain ⟨e, hid, -⟩ := leftOut?_eq_none_iff.mp hleft
    rw [unfold_kind hleft hid] at hrealizes
    split at hrealizes <;> cases hrealizes

theorem realizes_root (h : assemble settings d w = (.ok scene, w'))
    (hleft : leftOut? ⟨d, settings⟩ [] d.rootId = none) :
    Realizes (unfold ⟨d, settings⟩ [] d.rootId) (some scene.root) := by
  obtain ⟨q, hvisit, -⟩ := visit_root h hleft
  have hrealizes := Walk.realizes_visit ⟨d, settings⟩ ⟨w.arena.next, Affine.identity⟩ .nothing []
    d.rootId w.start
  rwa [hvisit] at hrealizes

theorem bare_root (h : assemble settings d w = (.ok scene, w'))
    (hleft : leftOut? ⟨d, settings⟩ [] d.rootId ≠ none) :
    ∃ world, scene.root = .bare d.rootId none world := by
  obtain ⟨n, q, root, hvisit, rfl, -, -, hn⟩ := visit_of_assemble h
  have hrealizes := Walk.realizes_visit ⟨d, settings⟩ ⟨w.arena.next, Affine.identity⟩ .nothing []
    d.rootId w.start
  obtain ⟨reason, hreason⟩ := Option.ne_none_iff_exists'.mp hleft
  rw [hvisit, unfold_leftOut hreason] at hrealizes
  cases hrealizes
  exact hn

theorem references_scene (h : assemble settings d w = (.ok scene, w'))
    (hsilent : w.library.IsSilent) :
    scene.report.references = (unfold ⟨d, settings⟩ [] d.rootId).cuts := by
  obtain ⟨n, q, root, hvisit, rfl, -⟩ := visit_of_assemble h
  have hreferences := Walk.references_visit ⟨d, settings⟩ ⟨w.arena.next, Affine.identity⟩
    .nothing [] d.rootId w.start hsilent
  rw [hvisit] at hreferences
  rw [Scene.references_ofRoot, hreferences]
  rfl

end Scenes

/-- **A document is assembled into its cut unfolding.**  Only a root that names no element is an
    error.  Otherwise the scene has the tree that the document unfolds into from its root, or an
    empty node if the root is left out, and the report speaks of the references that were left out,
    each one once and in order. -/
theorem assemble_unfolds [Scalar K] (settings : Settings K) (d : Document K) (w : Workshop K) :
    ((assemble settings d w).1 = .error (.missingRoot d.rootId) ↔
      ¬ d.elements.contains d.rootId) ∧
    (d.elements.contains d.rootId → ∃ scene, (assemble settings d w).1 = .ok scene ∧
      (leftOut? ⟨d, settings⟩ [] d.rootId = none →
        Realizes (unfold ⟨d, settings⟩ [] d.rootId) (some scene.root)) ∧
      (leftOut? ⟨d, settings⟩ [] d.rootId ≠ none →
        ∃ world, scene.root = .bare d.rootId none world) ∧
      (w.library.IsSilent →
        scene.report.references = (unfold ⟨d, settings⟩ [] d.rootId).cuts)) := by
  refine ⟨⟨fun herror hroot => ?_, fun hroot => ?_⟩, fun hroot => ?_⟩
  · obtain ⟨scene, w', hscene⟩ := exists_scene settings w hroot
    rw [hscene] at herror
    cases herror
  · rw [assemble_missing hroot]
  · obtain ⟨scene, w', hscene⟩ := exists_scene settings w hroot
    exact ⟨scene, congrArg Prod.fst hscene, realizes_root hscene, bare_root hscene,
      references_scene hscene⟩

/-- A document that refers to nothing, to its own root on two ways, and to an unknown kind. -/
def Document.knotted : Document Float32 :=
  (((Document.ofRoot "root").addElement
    (.ofKind "root" (.group ["ghost", "near", "root"]))).addElement
    (.ofKind "near" (.lod [⟨"odd", 1⟩, ⟨"root", 0⟩]))).addElement
    (.ofKind "odd" (.unsupported "hologram"))

theorem cuts_knotted : (unfold ⟨Document.knotted, .standard⟩ [] "root").cuts =
    [.missingElement "ghost", .unsupportedKind "odd" "hologram", .cycle "root",
      .cycle "root"] := by
  have hghost : unfold ⟨Document.knotted, .standard⟩ ["root"] "ghost" =
      .leftOut (.missingElement "ghost") := unfold_leftOut rfl
  have hroot : unfold ⟨Document.knotted, .standard⟩ ["root"] "root" = .leftOut (.cycle "root") :=
    unfold_leftOut rfl
  have hodd : unfold ⟨Document.knotted, .standard⟩ ["near", "root"] "odd" =
      .leftOut (.unsupportedKind "odd" "hologram") := unfold_leftOut rfl
  have hback : unfold ⟨Document.knotted, .standard⟩ ["near", "root"] "root" =
      .leftOut (.cycle "root") := unfold_leftOut rfl
  have hnear : (unfold ⟨Document.knotted, .standard⟩ ["root"] "near").cuts =
      [.unsupportedKind "odd" "hologram", .cycle "root"] := by
    rw [unfold_kind (e := .ofKind "near" (.lod [⟨"odd", 1⟩, ⟨"root", 0⟩])) rfl rfl]
    simp only [Element.ofKind, List.map_cons, List.map_nil, hodd, hback, Unfolding.cuts,
      Unfolding.cutsLevels, List.append_nil, List.singleton_append]
  rw [unfold_kind (e := .ofKind "root" (.group ["ghost", "near", "root"])) rfl rfl]
  simp only [Element.ofKind, List.map_cons, List.map_nil, hghost, hroot, hnear, Unfolding.cuts,
    Unfolding.cutsAll, List.cons_append, List.nil_append, List.append_nil]

theorem assemble_unfolds_knotted :
    Document.knotted.elements.contains Document.knotted.rootId ∧
    ModelLibrary.IsSilent (.empty : ModelLibrary Float32) ∧
    leftOut? ⟨Document.knotted, .standard⟩ [] Document.knotted.rootId = none ∧
    ∃ scene, (assemble .standard Document.knotted
        ⟨.empty, .ofRecords .empty "." .placeholder, .empty⟩).1 = .ok scene ∧
      Realizes (unfold ⟨Document.knotted, .standard⟩ [] "root") (some scene.root) ∧
      scene.report.references =
        [.missingElement "ghost", .unsupportedKind "odd" "hologram", .cycle "root",
          .cycle "root"] := by
  have hroot : Document.knotted.elements.contains Document.knotted.rootId := rfl
  have hsilent : ModelLibrary.IsSilent (.empty : ModelLibrary Float32) := by
    intro load hload
    cases hload
  obtain ⟨scene, hscene, hrealizes, -, hreferences⟩ := (assemble_unfolds .standard Document.knotted
    ⟨.empty, .ofRecords .empty "." .placeholder, .empty⟩).2 hroot
  exact ⟨hroot, hsilent, rfl, scene, hscene, hrealizes rfl,
    (hreferences hsilent).trans cuts_knotted⟩

end SceneAssembly
