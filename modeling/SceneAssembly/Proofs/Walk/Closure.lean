/-
  SceneAssembly/Proofs/Walk/Closure.lean
  ======================================
  **Flags that everything above has as well.**

  A tree is closed under a flag if each node has it that has it anywhere below.
  The nodes of elements gather the flags of their branches, so nothing is lost
  on the way up to the root.  But an instance of a model keeps the flags that its
  model has: it is closed where its model is, or where the flag comes from above
  and all nodes of the instance get it (`closed_root_iff`).
-/
import SceneAssembly.Proofs.Walk.Instances

namespace SceneAssembly

open Relation (ReflTransGen)

variable {K : Type}

/-! ## 1. Closed trees -/

namespace SceneNode

/-- A node has a flag if anything below it has it, and so has every node below. -/
def Closed (s : Shadow) (n : SceneNode K) : Prop :=
  ∀ x ∈ n.preorder, ∀ y ∈ x.preorder, y.shadow s = true → x.shadow s = true

variable {s : Shadow} {n : SceneNode K}

theorem Closed.of_branches (hn : ∀ m ∈ n.branches, m.shadow s = true → n.shadow s = true)
    (hbranches : ∀ m ∈ n.branches, m.Closed s) : n.Closed s := by
  intro x hx y hy hflag
  rcases mem_preorder_iff.mp hx with rfl | ⟨m, hm, hx⟩
  · rcases mem_preorder_iff.mp hy with rfl | ⟨m, hm, hy⟩
    · exact hflag
    · exact hn m hm (hbranches m hm m (mem_preorder_self m) y hy hflag)
  · exact hbranches m hm x hx y hy hflag

/-- Whether a tree is closed depends on the flags at its addresses only. -/
theorem closed_iff_at? : n.Closed s ↔ ∀ address rest,
    (n.at? (address ++ rest)).map (shadow · s) = some true →
      (n.at? address).map (shadow · s) = some true := by
  constructor
  · intro h address rest hflag
    obtain ⟨y, hy, hflag⟩ := Option.map_eq_some_iff.mp hflag
    rw [at?_append] at hy
    obtain ⟨x, hx, hy⟩ := Option.bind_eq_some_iff.mp hy
    rw [hx, Option.map_some, h x (mem_preorder_of_at? hx) y (mem_preorder_of_at? hy) hflag]
  · intro h x hx y hy hflag
    obtain ⟨address, hx⟩ := exists_at?_of_mem_preorder hx
    obtain ⟨rest, hy⟩ := exists_at?_of_mem_preorder hy
    have hyflag : (n.at? (address ++ rest)).map (shadow · s) = some true := by
      rw [at?_append, hx, Option.bind_some, hy, Option.map_some, hflag]
    have hxflag := h address rest hyflag
    rw [hx] at hxflag
    exact Option.some.inj hxflag

theorem closed_addShadows_iff (flags : Shadow → Bool) :
    (n.addShadows (flags .cast) (flags .receive)).Closed s ↔ flags s = true ∨ n.Closed s := by
  have hflag : ∀ x : SceneNode K,
      (x.addShadows (flags .cast) (flags .receive)).shadow s = (x.shadow s || flags s) :=
    fun x => x.addShadows_shadow_eq flags s
  cases hflags : flags s with
  | true =>
    refine iff_of_true (fun x hx _ _ _ => ?_) (.inl rfl)
    obtain ⟨address, hx⟩ := exists_at?_of_mem_preorder hx
    rw [addShadows_at?] at hx
    obtain ⟨x', -, rfl⟩ := Option.map_eq_some_iff.mp hx
    rw [hflag, hflags, Bool.or_true]
  | false =>
    have hsame : (fun x : SceneNode K =>
        (x.addShadows (flags .cast) (flags .receive)).shadow s) = (shadow · s) := by
      funext x
      rw [hflag, hflags, Bool.or_false]
    rw [closed_iff_at?, closed_iff_at?]
    simp only [addShadows_at?, Option.map_map, Function.comp_def, hsame, Bool.false_eq_true,
      false_or]

variable [Scalar K]

theorem closed_rebase_iff (parent : Shared (Affine K)) (a : Arena) :
    (n.rebase parent a).1.Closed s ↔ n.Closed s := by
  have hsame := rebase_at?_map (f := (shadow · s)) (fun n parent a => rebase_shadow s n parent a) n
    parent a
  simp only [closed_iff_at?, hsame]

end SceneNode

variable [Scalar K]

/-- An instance is closed where its model is, or where the flag comes from above. -/
theorem InstanceAt.closed_iff {d : Document K} {place : Place K} {root : SceneNode K}
    (h : InstanceAt d place root) (s : Shadow) :
    (∀ m ∈ place.node.branches, m.Closed s) ↔
      (∃ id ∈ place.chain, Declares d s id) ∨ root.Closed s := by
  obtain ⟨flags, a, hbranches, hflags⟩ := h
  rw [hbranches, List.forall_mem_singleton, SceneNode.closed_addShadows_iff, hflags,
    SceneNode.closed_rebase_iff]

/-! ## 2. Assembled scenes -/

/-- A tree is closed if its places gather the flags below them and its instances are closed. -/
theorem closed_of_built {d : Document K} {Q : SceneNode K → Prop} {s : Shadow}
    (chain : List String) {n : SceneNode K} (hbuilt : Everywhere d (Built d Q) ⟨chain, n⟩)
    (hinstances : ∀ place root, ReflTransGen (Below d) ⟨chain, n⟩ place → Q root →
      InstanceAt d place root → ∀ m ∈ place.node.branches, m.Closed s) : n.Closed s := by
  induction n using SceneNode.branches_induction generalizing chain with
  | h n ih =>
    have hplace := hbuilt _ .refl
    refine .of_branches (hplace.gathered s) fun m hm => ?_
    by_cases hmodel : IsModel d n.name
    · rcases (hplace.model hmodel).2 with hnone | ⟨root, hroot, hinstance⟩
      · have hnone : n.branches = [] := hnone
        rw [hnone] at hm
        cases hm
      · exact hinstances _ root .refl hroot hinstance m hm
    · have hbelow : Below d ⟨chain, n⟩ ⟨m.name :: chain, m⟩ := .intro hmodel hm
      refine ih m hm (m.name :: chain) (fun place h => hbuilt place (.head hbelow h)) ?_
      exact fun place root h => hinstances place root (.head hbelow h)

section Scenes

variable {settings : Settings K} {d : Document K} {w w' : Workshop K} {scene : Scene K}

theorem closed_root_of_instances (h : assemble settings d w = (.ok scene, w')) {s : Shadow}
    (hinstances : ∀ place root, scene.HasPlace ⟨d, settings⟩ place → w.library.Offers root →
      InstanceAt d place root → (∃ id ∈ place.chain, Declares d s id) ∨ root.Closed s) :
    scene.root.Closed s := by
  by_cases hleft : leftOut? ⟨d, settings⟩ [] d.rootId = none
  · refine closed_of_built (d := d) (Q := w.library.Offers) [d.rootId]
      (fun place hplace => built_scene h ⟨hleft, hplace⟩) fun place root hplace hroot hinstance => ?_
    exact (hinstance.closed_iff s).mpr (hinstances place root ⟨hleft, hplace⟩ hroot hinstance)
  · -- A root that is left out is one empty node.
    obtain ⟨world, hroot⟩ := bare_root h hleft
    rw [hroot]
    refine .of_branches (fun m hm => ?_) (fun m hm => ?_) <;> cases hm

omit [Scalar K] in
/-- The node of a place of a scene is a node of the scene. -/
theorem mem_preorder_of_hasPlace {place : Place K} (hplace : scene.HasPlace ⟨d, settings⟩ place) :
    place.node ∈ scene.root.preorder := by
  obtain ⟨-, hplace⟩ := hplace
  induction hplace with
  | refl => exact SceneNode.mem_preorder_self _
  | tail _ hbelow ih =>
    cases hbelow with
    | intro hmodel hm =>
      exact SceneNode.mem_preorder_trans ih
        (SceneNode.mem_preorder_of_branch hm (SceneNode.mem_preorder_self _))

/-- **A scene is closed where its instances are.** -/
theorem closed_root_iff (h : assemble settings d w = (.ok scene, w')) (s : Shadow) :
    scene.root.Closed s ↔ ∀ place root, scene.HasPlace ⟨d, settings⟩ place →
      w.library.Offers root → InstanceAt d place root →
        (∃ id ∈ place.chain, Declares d s id) ∨ root.Closed s := by
  refine ⟨fun hclosed place root hplace _ hinstance => ?_, closed_root_of_instances h⟩
  refine (hinstance.closed_iff s).mp fun m hm x hx => hclosed x ?_
  exact SceneNode.mem_preorder_trans (mem_preorder_of_hasPlace hplace)
    (SceneNode.mem_preorder_of_branch hm hx)

/-- Models that were assembled themselves are closed. -/
theorem all_closed_ofDocuments (documents : Table (Option (Document K))) (s : Shadow) :
    (ModelLibrary.withLoader (.ofDocuments documents)).All (·.Closed s) where
  kept t ht := absurd ht (Array.not_mem_empty t)
  loaded load hload path a root hroot := by
    obtain rfl := Option.some.inj hload
    unfold ModelLoader.ofDocuments at hroot
    split at hroot
    · cases hroot
    · cases hroot
    next d' _ =>
      obtain ⟨result, w', hassemble⟩ : ∃ result w',
          assembleFresh .standard .placeholder d' .empty a = (result, w') := ⟨_, _, rfl⟩
      rw [hassemble] at hroot
      cases result with
      | error e => cases hroot
      | ok scene =>
        obtain rfl := Except.ok.inj hroot
        refine closed_root_of_instances hassemble fun _ root _ hoffers _ => ?_
        rcases hoffers with ⟨t, ht, -⟩ | ⟨load, hload, -⟩
        · exact absurd ht (Array.not_mem_empty t)
        · cases hload

end Scenes

/-- **Where the flags of a scene are closed.**  A node has a flag that anything below it has, unless a
    model breaks this: the scene is closed exactly if each instance has its flag from above or is
    that of a closed model.  So it is where all models on offer are closed, in particular where they
    are assembled from documents. -/
theorem shadows_close (settings : Settings K) (d : Document K) (w : Workshop K)
    (hroot : d.elements.contains d.rootId) :
    ∃ scene w', assemble settings d w = (.ok scene, w') ∧ ∀ s,
      (scene.root.Closed s ↔ ∀ place root, scene.HasPlace ⟨d, settings⟩ place →
        w.library.Offers root → InstanceAt d place root →
          (∃ id ∈ place.chain, Declares d s id) ∨ root.Closed s) ∧
      (w.library.All (·.Closed s) → scene.root.Closed s) ∧
      ∀ documents, w.library = .withLoader (.ofDocuments documents) → scene.root.Closed s := by
  obtain ⟨scene, w', hscene⟩ := exists_scene settings w hroot
  have hall : ∀ s, w.library.All (·.Closed s) → scene.root.Closed s := fun s hmodels =>
    closed_root_of_instances hscene fun _ _ _ hoffers _ => .inr (hmodels.of_offers hoffers)
  refine ⟨scene, w', hscene, fun s => ⟨closed_root_iff hscene s, hall s, ?_⟩⟩
  intro documents hlibrary
  exact hall s (hlibrary ▸ all_closed_ofDocuments documents s)

/-- A cart with a wheel that casts a shadow. -/
def SceneNode.cart (cast : Bool) : SceneNode Float32 :=
  { SceneNode.bare "cart" none ⟨0, Affine.identity⟩ with
    children := [{ SceneNode.bare "wheel" none ⟨0, Affine.identity⟩ with castShadow := true }]
    castShadow := cast }

/-- A workshop that keeps one model. -/
def Workshop.stocked (root : SceneNode Float32) : Workshop Float32 :=
  ⟨.empty, .ofRecords .empty "." .placeholder,
    (ModelLibrary.empty.put ⟨0, ⟨"cart.json", root⟩⟩).2⟩

def Document.parked : Document Float32 :=
  (Document.ofRoot "root").addElement (.ofKind "root" (.primitive (.model "cart.json")))

theorem shadows_close_parked :
    Document.parked.elements.contains Document.parked.rootId ∧
    ∃ scene w', assemble .standard Document.parked (Workshop.stocked (.cart true)) =
        (.ok scene, w') ∧ scene.root.Closed .cast := by
  have hroot : Document.parked.elements.contains Document.parked.rootId := rfl
  obtain ⟨scene, w', hscene, hclose⟩ :=
    shadows_close .standard Document.parked (Workshop.stocked (.cart true)) hroot
  refine ⟨hroot, scene, w', hscene, (hclose .cast).2.1 ⟨fun t ht => ?_, fun load hload => ?_⟩⟩
  · obtain rfl : t = ⟨0, ⟨"cart.json", .cart true⟩⟩ := Array.mem_singleton.mp ht
    -- The cart itself has the flag, and below the wheel there is nothing.
    refine .of_branches (fun _ _ _ => rfl) fun m hm => ?_
    obtain rfl := List.mem_singleton.mp hm
    refine .of_branches (fun m hm => ?_) (fun m hm => ?_) <;> cases hm
  · cases hload

/-- An instance is not closed if its model is not. -/
theorem not_closed_parked :
    ∃ scene w', assemble .standard Document.parked (Workshop.stocked (.cart false)) =
        (.ok scene, w') ∧ ¬ scene.root.Closed .cast := by
  obtain ⟨scene, w', hscene⟩ := exists_scene .standard (Workshop.stocked (.cart false))
    (d := Document.parked) rfl
  refine ⟨scene, w', hscene, fun hclosed => ?_⟩
  obtain ⟨q, hvisit, -⟩ := visit_root hscene rfl
  have hrun : (Walk.visit ⟨Document.parked, .standard⟩
      ⟨(Workshop.stocked (.cart false)).arena.next, Affine.identity⟩ .nothing []
        Document.parked.rootId (Workshop.stocked (.cart false)).start).1.map (fun n =>
          ((n.at? [0, 0]).map SceneNode.castShadow, (n.at? [0]).map SceneNode.castShadow)) =
      some (some true, some false) := by
    rw [Walk.visit_eq_fill (e := .ofKind "root" (.primitive (.model "cart.json"))) _ _ rfl
      List.not_mem_nil (by simp [Settings.standard])]
    rfl
  rw [hvisit, Option.map_some, Option.some.injEq, Prod.mk.injEq] at hrun
  have hflag := SceneNode.closed_iff_at?.mp hclosed [0] [0] hrun.1
  exact absurd (hflag.symm.trans hrun.2) (by decide)

end SceneAssembly
