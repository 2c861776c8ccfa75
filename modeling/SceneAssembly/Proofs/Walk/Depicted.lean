/-
  SceneAssembly/Proofs/Walk/Depicted.lean
  =======================================
  **Assembled scenes look as their documents say.**

  The root of a scene has the picture of the root of the document
  (`depicted_scene`), and each place has the picture of the reference at the end
  of its chain (`depicted_place`).  The workshop shows the same views afterwards,
  so scenes can be assembled in it one after the other.

  A model that is given as a document is assembled too, so loading it is a
  function of the path up to identities (`answers_ofDocuments`).
-/
import SceneAssembly.Proofs.Walk.Depicting

namespace SceneAssembly

open Progress (Reaches)
open Relation (ReflTransGen)

variable {K : Type} [Scalar K]

/-! ## 1. Pictures of references -/

section Pictures

variable {c : Setting K} {V : Views K} {path : List String} {id : String} {e : Element K}
  {P : Picture K}

/-- The pictures that are directly below. -/
def Picture.branches : Picture K → List (Picture K)
  | node _ branches => branches

omit [Scalar K] in
theorem SceneNode.branches_picture (a : Arena) (n : SceneNode K) :
    (n.picture a).branches = n.branches.map (picture a) := by
  rw [picture_eq, Picture.branches]

/-- Just what is left out has no picture. -/
theorem depict_eq_none_iff : depict c V path id = none ↔ leftOut? c path id ≠ none := by
  cases hleft : leftOut? c path id with
  | some d => simp [depict_leftOut hleft]
  | none =>
    obtain ⟨e, hid, -, -, hkind⟩ := leftOut?_eq_none_iff.mp hleft
    rw [depict_kind hleft hid]
    cases h : e.kind with
    | unsupported kind => exact absurd h (hkind kind)
    | _ => simp

/-- What has a picture is entered. -/
theorem entered_of_depict (h : depict c V path id = some P) :
    leftOut? c path id = none ∧ ∃ e, c.document.elements.find? id = some e := by
  have hleft : leftOut? c path id = none := by
    by_contra hleft
    rw [depict_eq_none_iff.mpr hleft] at h
    cases h
  obtain ⟨e, hid, -⟩ := leftOut?_eq_none_iff.mp hleft
  exact ⟨hleft, e, hid⟩

theorem own_depict (h : depict c V path id = some P) : P.own.name = id := by
  obtain ⟨hleft, e, hid⟩ := entered_of_depict h
  rw [depict_kind hleft hid] at h
  cases hkind : e.kind with
  | primitive shape => rw [hkind] at h; cases h; cases shape <;> rfl
  | unsupported kind => rw [hkind] at h; cases h
  | _ => rw [hkind] at h; cases h; rfl

/-- Below a picture that is not one of a model are pictures of references. -/
theorem depict_branch (h : depict c V path id = some P) (hmodel : ¬ IsModel c.document id)
    {Q : Picture K} (hQ : Q ∈ P.branches) : depict c V (id :: path) Q.own.name = some Q := by
  suffices hsome : ∃ id', depict c V (id :: path) id' = some Q by
    obtain ⟨id', hid'⟩ := hsome
    rwa [own_depict hid']
  obtain ⟨hleft, e, hid⟩ := entered_of_depict h
  rw [depict_kind hleft hid] at h
  cases hkind : e.kind with
  | group children =>
    rw [hkind] at h
    cases h
    obtain ⟨id', -, hid'⟩ := List.mem_filterMap.mp hQ
    exact ⟨id', hid'⟩
  | primitive shape =>
    rw [hkind] at h
    cases h
    cases shape with
    | model file => exact absurd ⟨e, file, hid, hkind⟩ hmodel
    | _ => cases hQ
  | light spec =>
    rw [hkind] at h
    cases h
    cases hQ
  | lod levels =>
    rw [hkind] at h
    cases h
    obtain ⟨l, hl, rfl⟩ := List.mem_map.mp hQ
    obtain ⟨level, -, hlevel⟩ := List.mem_filterMap.mp (Lod.mem_levels_ofLevels.mp hl)
    obtain ⟨Q, htarget, rfl⟩ := Option.map_eq_some_iff.mp hlevel
    exact ⟨level.target, htarget⟩
  | unsupported kind =>
    rw [hkind] at h
    cases h

end Pictures

/-! ## 2. Scenes -/

section Scenes

variable {settings : Settings K} {d : Document K} {w w' : Workshop K} {scene : Scene K}
  {V : Views K}

theorem Workshop.Shows.start (h : w.Shows settings.assetDir V) :
    w.start.Shows ⟨d, settings⟩ V where
  textures := h.textures.mono (.of_sources rfl)
  models := h.models.mono (.of_sources rfl)
  materials hm := by cases hm
  fallback hm := by cases hm

/-- The picture of the root, or of the empty node that stands for one that is left out. -/
def rootPicture (c : Setting K) (V : Views K) : Picture K :=
  (depict c V [] c.document.rootId).getD
    ((SceneNode.bare c.document.rootId none ⟨0, Affine.identity⟩).picture .empty)

/-- **A scene looks as its document says**, and so does what the workshop will make from now on. -/
theorem depicted_scene (h : assemble settings d w = (.ok scene, w'))
    (hw : w.Shows settings.assetDir V) :
    ∃ q, Reaches ⟨d, settings⟩ V w.start q
        ((met ⟨d, settings⟩ [] d.rootId).flatMap (notes ⟨d, settings⟩ V))
        ((met ⟨d, settings⟩ [] d.rootId).flatMap (draws ⟨d, settings⟩)) ∧
      scene.report.diagnostics = q.report.diagnostics ++ cameraFaults d.cameras ∧
      scene.root.Shows w'.arena (rootPicture ⟨d, settings⟩ V) ∧
      w.arena.Stays w'.arena ∧ w'.Shows settings.assetDir V := by
  have hroot : d.elements.contains d.rootId := by
    by_contra hmissing
    rw [assemble_missing hmissing] at h
    cases h
  obtain ⟨n, q, hvisit⟩ : ∃ n q, Walk.visit ⟨d, settings⟩ ⟨w.arena.next, Affine.identity⟩
      .nothing [] d.rootId w.start = (n, q) := ⟨_, _, rfl⟩
  obtain ⟨hreaches, hshows⟩ := Walk.depicted_visit ⟨d, settings⟩ V
    ⟨w.arena.next, Affine.identity⟩ .nothing [] d.rootId w.start hw.start
  have htree := hshows (scopeLasts_outermost _ _)
  rw [hvisit] at hreaches htree
  have hstays : w.arena.Stays q.arena := hreaches.stays
  rw [assemble_visit hroot hvisit] at h
  cases n with
  | some root =>
    cases h
    refine ⟨q, hreaches, rfl, fun b hb => ?_, hstays, hreaches.shows.textures,
      hreaches.shows.models⟩
    rw [rootPicture, ← htree b hb]
    rfl
  | none =>
    cases h
    have hnext : q.arena.Stays { q.arena with next := q.arena.next + 1 } := .of_sources rfl
    refine ⟨q, hreaches, rfl, fun b _ => ?_, hstays.trans hnext, hreaches.shows.textures.mono hnext,
      hreaches.shows.models.mono hnext⟩
    rw [rootPicture, ← htree _ (.refl _)]
    rfl

/-- **Each place looks as the reference at the end of its chain.** -/
theorem depicted_place (h : assemble settings d w = (.ok scene, w'))
    (hw : w.Shows settings.assetDir V) {place : Place K}
    (hplace : scene.HasPlace ⟨d, settings⟩ place) :
    ∃ path, place.chain = place.node.name :: path ∧
      depict ⟨d, settings⟩ V path place.node.name = some (place.node.picture w'.arena) := by
  obtain ⟨hleft, hbelow⟩ := hplace
  obtain ⟨-, -, -, hshows, -⟩ := depicted_scene h hw
  induction hbelow with
  | refl =>
    have hsome : depict ⟨d, settings⟩ V [] d.rootId ≠ none := fun hnone =>
      depict_eq_none_iff.mp hnone hleft
    obtain ⟨P, hP⟩ := Option.ne_none_iff_exists'.mp hsome
    have hpicture : scene.root.picture w'.arena = P := by
      rw [hshows _ (.refl _), rootPicture, hP, Option.getD_some]
    have hname : scene.root.name = d.rootId := by
      rw [← own_depict hP, ← hpicture, SceneNode.own_picture]
      rfl
    exact ⟨[], by rw [hname], by rw [hname, hP, hpicture]⟩
  | tail _ hstep ih =>
    cases hstep with
    | @intro chain n m hmodel hm =>
      obtain ⟨path, hchain, hn⟩ := ih
      have hchain : chain = n.name :: path := hchain
      rw [hchain]
      have hbranch : m.picture w'.arena ∈ (n.picture w'.arena).branches := by
        rw [SceneNode.branches_picture]
        exact List.mem_map_of_mem hm
      have hdepict := depict_branch hn hmodel hbranch
      rw [SceneNode.own_picture] at hdepict
      exact ⟨_, rfl, hdepict⟩

/-- The children of a group are the references of the group that are not left out. -/
theorem depicted_children (h : assemble settings d w = (.ok scene, w'))
    (hw : w.Shows settings.assetDir V) {g : String} {chain : List String} {n : SceneNode K}
    (hplace : scene.HasPlace ⟨d, settings⟩ ⟨g :: chain, n⟩) {e : Element K}
    (hg : d.elements.find? g = some e) {ids : List String} (hkind : e.kind = .group ids) :
    n.children.map (·.picture w'.arena) = ids.filterMap (depict ⟨d, settings⟩ V (g :: chain)) := by
  obtain ⟨path, hchain, hdepict⟩ := depicted_place h hw hplace
  obtain ⟨hname, rfl⟩ : g = n.name ∧ chain = path := List.cons.inj hchain
  rw [← hname] at hdepict
  rw [depict_kind (entered_of_depict hdepict).1 hg, hkind] at hdepict
  have hpicture := (Option.some.inj hdepict).symm
  have hbranches := congrArg Picture.branches hpicture
  have hdistances : (n.picture w'.arena).own.distances = none := by rw [hpicture]; rfl
  rw [SceneNode.own_picture] at hdistances
  have hlod : n.lod = none := Option.map_eq_none_iff.mp hdistances
  have hchildren : n.branches = n.children := by
    simp [SceneNode.branches, SceneNode.levels, hlod]
  rw [SceneNode.branches_picture, hchildren] at hbranches
  exact hbranches

end Scenes

/-! ## 3. Models given as documents -/

/-- What the model of a path looks like, if it is given as a document. -/
def ModelLoader.viewOfDocuments (documents : Table (Option (Document K))) (path : String) :
    Except (Diagnostic K) (Picture K) :=
  match documents.find? path with
  | none => .error (.resource path "no such model")
  | some none => .error .malformedJson
  | some (some d) =>
    if d.elements.contains d.rootId then
      .ok (rootPicture ⟨d, .standard⟩ (.ofRecords d.textures
        (Settings.standard : Settings K).assetDir .placeholder ModelLibrary.noModel))
    else .error (.missingRoot d.rootId)

/-- **Loading a document as a model is a function of the path**, but for identities. -/
theorem answers_ofDocuments (documents : Table (Option (Document K))) (path : String) :
    (ModelLoader.ofDocuments documents).Answers path
      (ModelLoader.viewOfDocuments documents path) := by
  intro a
  unfold ModelLoader.ofDocuments ModelLoader.viewOfDocuments
  cases documents.find? path with
  | none => exact ⟨.refl a, rfl⟩
  | some document =>
    cases document with
    | none => exact ⟨.refl a, rfl⟩
    | some d =>
      by_cases hroot : d.elements.contains d.rootId
      · obtain ⟨scene, w', hscene⟩ := exists_scene .standard ⟨a, .ofRecords d.textures
          (Settings.standard : Settings K).assetDir .placeholder, .empty⟩ hroot
        obtain ⟨-, -, -, hshows, hstays, -⟩ := depicted_scene hscene
          (shows_empty d.textures _ (Settings.standard : Settings K).assetDir .placeholder a)
        simp only [assembleFresh, hscene, if_pos hroot]
        exact ⟨hstays, _, rfl, hshows⟩
      · simp only [assembleFresh, assemble_missing hroot, if_neg hroot]
        exact ⟨.refl a, rfl⟩

end SceneAssembly
