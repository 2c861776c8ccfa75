/-
  SceneAssembly/Proofs/Walk/Placing.lean
  ======================================
  **The worlds of an assembled scene.**

  Whatever way a subtree comes into the tree, as a child, as a level or as an
  instance of a model, it hangs below the world of the node above, and the worlds
  of its placed nodes are new (`hangAll_visit`).  So the world of a node is the
  product of the placements on the way to it, and two nodes share one exactly if
  they have the same nearest placed node (`worlds_hang`).
-/
import SceneAssembly.Proofs.Walk.Instances
import SceneAssembly.Proofs.Worlds

namespace SceneAssembly

open SceneNode (HangAll)

variable {K : Type} [Scalar K]

/-! ## 1. Visits -/

namespace Walk

variable {c : Setting K} {p q r : Progress K}

/-- Trees that come one after the other have different numbers. -/
theorem Steps.hangAll {α β : Type} {R : α → Progress K → β → Progress K → Prop} {as : List α}
    {bs : List β} {u : Shared (Affine K)} {f : β → List (SceneNode K)}
    (h : ∀ a p b q, R a p b q → p.library.KeepsNumbers →
      q.library.KeepsNumbers ∧ HangAll u p.arena.next q.arena.next (f b))
    (hs : Steps R as p bs q) (hp : p.library.KeepsNumbers) :
    HangAll u p.arena.next q.arena.next (bs.flatMap f) := by
  induction hs with
  | nil p => exact .nil (Nat.le_refl _)
  | cons hstep _ ih =>
    obtain ⟨hq, hfirst⟩ := h _ _ _ _ hstep hp
    rw [List.flatMap_cons]
    exact hfirst.append (ih hq)

theorem Entered.hangAll {parent : Shared (Affine K)} {inherited : Inherited K}
    {path : List String} {id : String} {e : Element K} {scope : Inherited K} {own n : SceneNode K}
    (h : Entered c parent inherited path id p e scope own q) (hp : p.library.KeepsNumbers)
    (hplacement : n.placement = own.placement) (hworld : n.world = own.world)
    (hbranches : HangAll own.world q.arena.next r.arena.next n.branches) :
    HangAll parent p.arena.next r.arena.next [n.gatherShadows] := by
  obtain ⟨p', hscope, hplaced⟩ := h.own_placed
  have hworks := works_scopeOf c e inherited p
  rw [hscope] at hworks
  have hnode : HangAll parent p'.arena.next r.arena.next [n.gatherShadows] := by
    refine HangAll.node (b := q.arena) ?_ ?_
    · show placeIn parent n.placement p'.arena = (n.world, q.arena)
      rw [hplacement, hworld, hplaced]
    · show HangAll n.world q.arena.next r.arena.next n.branches
      rwa [hworld]
  exact hnode.widen (hworks.numbers hp)

theorem attachModel_hangAll {scope : Inherited K} {file : String} {n m : SceneNode K}
    (hq : q.library.KeepsNumbers) (hn : n.branches = [])
    (h : attachModel c scope file n q = (m, r)) :
    m.placement = n.placement ∧ m.world = n.world ∧
      HangAll n.world q.arena.next r.arena.next m.branches := by
  rcases attachModel_cases h with
    ⟨d, library, b, hserved, rfl, rfl⟩ | ⟨t, library, b, model, arena, hserved, hrebase, rfl, rfl⟩
  · refine ⟨rfl, rfl, ?_⟩
    rw [hn]
    exact .nil (hserved.next hq)
  · refine ⟨rfl, rfl, ?_⟩
    obtain ⟨hchildren, hlevels⟩ := List.append_eq_nil_iff.mp hn
    have hrebased := SceneNode.hangAll_rebase t.value.root n.world b
    rw [hrebase] at hrebased
    show HangAll _ _ _ ((n.children ++ [_]) ++ n.levels.map Level.node)
    rw [hchildren, hlevels]
    exact (hrebased.addShadows scope.castShadow scope.receiveShadow).widen (hserved.next hq)

/-- **The tree of a visit hangs below the world of its parent**, with numbers that are new. -/
theorem hangAll_visit (c : Setting K) (parent : Shared (Affine K)) (inherited : Inherited K)
    (path : List String) (id : String) (p : Progress K) (hp : p.library.KeepsNumbers) :
    HangAll parent p.arena.next (visit c parent inherited path id p).2.arena.next
      (visit c parent inherited path id p).1.toList := by
  refine visit_induction (P := fun parent _ _ _ p n q => p.library.KeepsNumbers →
      HangAll parent p.arena.next q.arena.next n.toList)
    ?leftOut ?group ?primitive ?light ?lod parent inherited path id p hp
  case leftOut =>
    rintro parent inherited path id p q d - hq hp
    refine .nil ?_
    rcases hq with rfl | ⟨e, scope, own, hentered⟩
    · exact Nat.le_refl _
    · exact hentered.works.numbers hp
  case group =>
    intro parent inherited path id p e scope own q children built r hentered hkind hsteps hp
    have hbelow := hsteps.hangAll (u := own.world) (f := Option.toList) ?_
      (hentered.works.keepsNumbers hp)
    · refine hentered.hangAll hp rfl rfl (r := r) ?_
      have hbranches : ({ own with children := built.reduceOption } : SceneNode K).branches =
          built.flatMap Option.toList := by
        simp [SceneNode.branches, SceneNode.levels, hentered.own_lod, List.reduceOption,
          List.filterMap_eq_flatMap_toList]
      rw [hbranches]
      exact hbelow
    · rintro id' p' n q' ⟨hvisit, hhang⟩ hp'
      exact ⟨(extends_of_visit hvisit).keepsNumbers hp', hhang hp'⟩
  case primitive =>
    intro parent inherited path id p e scope own q shape n r hentered hkind hattach hp
    by_cases hmodel : ∃ file, shape = .model file
    · obtain ⟨file, rfl⟩ := hmodel
      obtain ⟨hplacement, hworld, hbranches⟩ := attachModel_hangAll
        (hentered.works.keepsNumbers hp) hentered.own_branches hattach
      exact hentered.hangAll hp hplacement hworld (r := r) hbranches
    · have hworks := works_attachShape c scope shape own q
      rw [hattach] at hworks
      rw [attachShape_of_ne_model fun file h => hmodel ⟨file, h⟩] at hattach
      obtain ⟨mesh, rfl⟩ := attachMesh_eq hattach
      refine hentered.hangAll hp rfl rfl (r := r) ?_
      show HangAll _ _ _ own.branches
      rw [hentered.own_branches]
      exact .nil (hworks.numbers (hentered.works.keepsNumbers hp))
  case light =>
    intro parent inherited path id p e scope own q spec n r hentered hkind hattach hp
    have hplain := plain_attachLight spec own q
    rw [hattach] at hplain
    obtain ⟨light, rfl⟩ := attachLight_eq hattach
    refine hentered.hangAll hp rfl rfl (r := r) ?_
    show HangAll _ _ _ own.branches
    rw [hentered.own_branches]
    exact .nil (hplain.numbers (hentered.works.keepsNumbers hp))
  case lod =>
    intro parent inherited path id p e scope own q levels built r hentered hkind hsteps hp
    have hbelow := hsteps.hangAll (u := own.world)
      (f := fun l => (l.map Level.node).toList) ?_ (hentered.works.keepsNumbers hp)
    · refine hentered.hangAll hp rfl rfl (r := r) ?_
      have hbranches : ({ own with lod := some (.ofLevels built.reduceOption) } :
          SceneNode K).branches = (Lod.ofLevels built.reduceOption).levels.map Level.node := by
        simp [SceneNode.branches, SceneNode.levels, hentered.own_children]
      have hnodes : built.flatMap (fun l => (l.map Level.node).toList) =
          built.reduceOption.map Level.node := by
        rw [List.reduceOption, ← List.filterMap_eq_flatMap_toList, List.map_filterMap]
        rfl
      rw [hbranches]
      rw [hnodes] at hbelow
      -- The levels are sorted, which changes no number.
      exact hbelow.perm ((Lod.levels_ofLevels_perm _).symm.map Level.node)
    · intro level p' l q' hlevel hp'
      obtain ⟨own', p'', -, hplain, hvisit, hhang⟩ := hlevel.parts
      have hp'' := hplain.keepsNumbers hp'
      exact ⟨(extends_of_visit hvisit).keepsNumbers hp'', (hhang hp'').widen (hplain.numbers hp')⟩

end Walk

/-! ## 2. Assembled scenes -/

/-- What a node of a scene stands for: an element, a node of a model that the library offers, or
    nothing, if the root is left out. -/
inductive Scene.StandsFor (scene : Scene K) (c : Setting K) (l : ModelLibrary K) (x : SceneNode K) :
    Prop
  | element {chain : List String} (hplace : scene.HasPlace c ⟨chain, x⟩)
  | model {place : Place K} {root m y : SceneNode K} {address : List Nat}
    (hplace : scene.HasPlace c place) (hroot : l.Offers root) (hm : place.node.branches = [m])
    (hx : m.at? address = some x) (hy : root.at? address = some y)
    (hplacement : x.placement = y.placement)
  | nothing (hleft : leftOut? c [] c.document.rootId ≠ none)
    (hx : x = .bare c.document.rootId none x.world)

section Scenes

variable {settings : Settings K} {d : Document K} {w w' : Workshop K} {scene : Scene K}

/-- The tree of a scene hangs below a world of its own, which is the identity. -/
theorem hangs_scene (h : assemble settings d w = (.ok scene, w'))
    (hnumbers : w.library.KeepsNumbers) :
    ∃ world : Shared (Affine K), world.value = Affine.identity ∧ scene.root.Hangs world ∧
      scene.root.numbers.Nodup ∧ world.id ∉ scene.root.numbers := by
  have hroot : d.elements.contains d.rootId := by
    by_contra hmissing
    rw [assemble_missing hmissing] at h
    cases h
  obtain ⟨n, q, hvisit⟩ : ∃ n q, Walk.visit ⟨d, settings⟩ ⟨w.arena.next, Affine.identity⟩
      .nothing [] d.rootId w.start = (n, q) := ⟨_, _, rfl⟩
  have hhang := Walk.hangAll_visit ⟨d, settings⟩ ⟨w.arena.next, Affine.identity⟩ .nothing []
    d.rootId w.start hnumbers
  rw [hvisit] at hhang
  rw [assemble_visit hroot hvisit] at h
  cases n with
  | some root =>
    cases h
    have hnew := hhang.numbers
    rw [Option.toList_some, List.flatMap_singleton] at hnew
    refine ⟨⟨w.arena.next, Affine.identity⟩, rfl, hhang.each root (List.mem_singleton_self root),
      hnew.nodup, fun hmem => ?_⟩
    have hstart : w.arena.next + 1 ≤ w.arena.next := (hnew.within _ hmem).1
    omega
  | none =>
    cases h
    have hbare : (SceneNode.bare d.rootId none ⟨q.arena.next, Affine.identity⟩ : SceneNode K).Hangs
        ⟨q.arena.next, Affine.identity⟩ :=
      SceneNode.Hangs.of_branches rfl fun m hm => by cases hm
    exact ⟨_, rfl, hbare, List.nodup_nil, List.not_mem_nil⟩

theorem placement_scene (h : assemble settings d w = (.ok scene, w')) {place : Place K}
    (hplace : scene.HasPlace ⟨d, settings⟩ place) :
    ∃ e, d.elements.find? place.node.name = some e ∧
      place.node.placement = TransformStep.placement? e.transforms ∧
      (place.node.placement.isSome ↔ ∃ step ∈ e.transforms, step.isKnown = true) := by
  obtain ⟨e, hid, hplacement⟩ := (built_scene h hplace).element
  refine ⟨e, hid, hplacement, ?_⟩
  rw [hplacement, TransformStep.placement?_isSome, List.any_eq_true]

theorem standsFor_scene (h : assemble settings d w = (.ok scene, w')) {x : SceneNode K}
    (hx : x ∈ scene.root.preorder) : scene.StandsFor ⟨d, settings⟩ w.library x := by
  by_cases hleft : leftOut? ⟨d, settings⟩ [] d.rootId = none
  · have hplace : scene.HasPlace ⟨d, settings⟩ ⟨[d.rootId], scene.root⟩ := ⟨hleft, .refl⟩
    rcases place_or_instance h hplace hx with
      ⟨place, hbelow, rfl⟩ | ⟨place, root, m, address, hbelow, hroot, hinstance, hm, hat⟩
    · exact .element ⟨hleft, hbelow⟩
    · obtain ⟨y, hy, hplacement⟩ := hinstance.same (f := SceneNode.placement)
        (fun n parent a => SceneNode.rebase_placement parent n a)
        (fun n cast receive => SceneNode.addShadows_placement cast receive n) hm hat
      exact .model ⟨hleft, hbelow⟩ hroot hm hat hy hplacement
  · obtain ⟨world, hroot⟩ := bare_root h hleft
    rw [hroot, SceneNode.mem_preorder_iff] at hx
    rcases hx with rfl | ⟨m, hm, -⟩
    · exact .nothing hleft rfl
    · cases hm

end Scenes

/-- **The worlds of a scene.**  A node of an element has a placement exactly if a step of the element
    is known, a node of a model where the model has one.  The world of a node is the product of the
    placements from the root to it, and two nodes have the same world object exactly if their
    nearest placed nodes are the same, or both have none. -/
theorem worlds_hang (settings : Settings K) (d : Document K) (w : Workshop K)
    (hroot : d.elements.contains d.rootId) (hnumbers : w.library.KeepsNumbers) :
    ∃ scene w', assemble settings d w = (.ok scene, w') ∧
      (∀ place, scene.HasPlace ⟨d, settings⟩ place →
        ∃ e, d.elements.find? place.node.name = some e ∧
          place.node.placement = TransformStep.placement? e.transforms ∧
          (place.node.placement.isSome ↔ ∃ step ∈ e.transforms, step.isKnown = true)) ∧
      (∀ x ∈ scene.root.preorder, scene.StandsFor ⟨d, settings⟩ w.library x) ∧
      (∀ address x, scene.root.at? address = some x →
        x.world.value = (scene.root.placementsTo address).foldl (· * ·) Affine.identity) ∧
      (∀ address address' x y, scene.root.at? address = some x → scene.root.at? address' = some y →
        (x.world.id = y.world.id ↔ scene.root.anchor? address = scene.root.anchor? address')) ∧
      ∀ x ∈ scene.root.preorder, ∀ m ∈ x.branches,
        (m.placement = none → m.world = x.world) ∧
          (m.placement.isSome → m.world.id ≠ x.world.id) := by
  obtain ⟨scene, w', hscene⟩ := exists_scene settings w hroot
  obtain ⟨world, hvalue, hhangs, hnodup, hfree⟩ := hangs_scene hscene hnumbers
  refine ⟨scene, w', hscene, fun place => placement_scene hscene, fun x => standsFor_scene hscene,
    ?_, ?_, ?_⟩
  · intro address x hx
    rw [← hvalue]
    exact hhangs.world_value hx
  · intro address address' x y hx hy
    exact hhangs.world_id_eq_iff hnodup hfree hx hy
  · intro x hx m hm
    exact hhangs.world_branch hnodup hfree hx hm

/-- A root that stretches, above an element that stays where it is and one that moves. -/
def Document.hinged : Document Float32 :=
  (((Document.ofRoot "root").addElement
    { Element.ofKind "root" (.group ["frame", "leaf"]) with transforms := [.scale Vec3.one] }
    ).addElement (.ofKind "frame" (.group []))).addElement
    { Element.ofKind "leaf" (.group []) with transforms := [.unsupported "shear", .rotate Vec3.one] }

theorem worlds_hang_hinged :
    Document.hinged.elements.contains Document.hinged.rootId ∧
    (ModelLibrary.withLoader (.ofDocuments .empty) : ModelLibrary Float32).KeepsNumbers ∧
    ∃ scene w' frame leaf m, assemble .standard Document.hinged
        ⟨.empty, .ofRecords .empty "." .placeholder, .withLoader (.ofDocuments .empty)⟩ =
          (.ok scene, w') ∧
      scene.root.branches = [frame, leaf] ∧ scene.root.placement = some m ∧
      scene.root.world.value = Affine.identity * m ∧ frame.world = scene.root.world ∧
      leaf.world.id ≠ scene.root.world.id := by
  have hroot : Document.hinged.elements.contains Document.hinged.rootId := rfl
  have hnumbers : (ModelLibrary.withLoader (.ofDocuments .empty) :
      ModelLibrary Float32).KeepsNumbers := keepsNumbers_ofDocuments .empty
  obtain ⟨scene, w', hscene, hplaced, -, hvalue, -, hshared⟩ := worlds_hang .standard
    Document.hinged ⟨.empty, .ofRecords .empty "." .placeholder, .withLoader (.ofDocuments .empty)⟩
    hroot hnumbers
  -- The tree is known from the unfolding: a root with two children.
  have hframe : unfold ⟨Document.hinged, .standard⟩ ["root"] "frame" = .group "frame" [] :=
    unfold_kind (e := .ofKind "frame" (.group [])) rfl rfl
  have hleaf : unfold ⟨Document.hinged, .standard⟩ ["root"] "leaf" = .group "leaf" [] :=
    unfold_kind (e := { Element.ofKind "leaf" (.group []) with
      transforms := [.unsupported "shear", .rotate Vec3.one] }) rfl rfl
  have hunfold : unfold ⟨Document.hinged, .standard⟩ [] Document.hinged.rootId =
      .group "root" [.group "frame" [], .group "leaf" []] := by
    rw [← hframe, ← hleaf]
    exact unfold_kind (e := { Element.ofKind "root" (.group ["frame", "leaf"]) with
      transforms := [.scale Vec3.one] }) rfl rfl
  have hrealizes := realizes_root hscene rfl
  rw [hunfold] at hrealizes
  obtain ⟨frame, leaf, hbranches, hrootName, hframeName, hleafName⟩ :
      ∃ frame leaf : SceneNode Float32, scene.root.branches = [frame, leaf] ∧
        scene.root.name = "root" ∧ frame.name = "frame" ∧ leaf.name = "leaf" := by
    cases hrealizes with
    | group hname hlod hbelow hchildren =>
      cases hbelow with
      | cons hfirst hrest =>
        cases hrest with
        | cons hsecond hnone =>
          cases hnone
          cases hfirst with
          | group hframeName _ _ _ =>
            cases hsecond with
            | group hleafName _ _ _ =>
              refine ⟨_, _, ?_, hname, hframeName, hleafName⟩
              simp [SceneNode.branches, SceneNode.levels, hlod, hchildren]
  have hbelow : ∀ m ∈ scene.root.branches,
      scene.HasPlace ⟨Document.hinged, .standard⟩ ⟨[m.name, "root"], m⟩ := by
    intro m hm
    refine ⟨rfl, .single (.intro ?_ hm)⟩
    rw [hrootName]
    exact not_isModel (e := { Element.ofKind "root" (.group ["frame", "leaf"]) with
      transforms := [.scale Vec3.one] }) rfl (by simp [Element.ofKind])
  have hframePlacement : frame.placement = none := by
    obtain ⟨e, hid, hplacement, -⟩ := hplaced _ (hbelow frame (by simp [hbranches]))
    rw [hframeName] at hid
    obtain rfl := Option.some.inj hid
    exact hplacement
  have hleafPlaced : leaf.placement.isSome := by
    obtain ⟨e, hid, -, hplaced⟩ := hplaced _ (hbelow leaf (by simp [hbranches]))
    rw [hleafName] at hid
    obtain rfl := Option.some.inj hid
    exact hplaced.mpr ⟨.rotate Vec3.one, by simp, rfl⟩
  obtain ⟨m, hm⟩ : ∃ m, scene.root.placement = some m := by
    obtain ⟨e, hid, -, hplaced⟩ := hplaced ⟨["root"], scene.root⟩ ⟨rfl, .refl⟩
    rw [hrootName] at hid
    obtain rfl := Option.some.inj hid
    exact Option.isSome_iff_exists.mp (hplaced.mpr ⟨.scale Vec3.one, by simp, rfl⟩)
  have hrootValue := hvalue [] scene.root rfl
  rw [SceneNode.placementsTo, hm] at hrootValue
  have hrootShared := hshared scene.root (SceneNode.mem_preorder_self scene.root)
  exact ⟨hroot, hnumbers, scene, w', frame, leaf, m, hscene, hbranches, hm, hrootValue,
    (hrootShared frame (by simp [hbranches])).1 hframePlacement,
    (hrootShared leaf (by simp [hbranches])).2 hleafPlaced⟩

end SceneAssembly
