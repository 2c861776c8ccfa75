/-
  SceneAssembly/Proofs/Walk/Instances.lean
  ========================================
  **What the nodes of an assembled tree come from.**

  A node of an element has the placement that the steps of its element give, and
  each shadow flag that a branch of it has.  Below an imported model stands one
  of the models that the library offers, as an instance (`InstanceAt`), or
  nothing.  A tree consists of the nodes of its places and of these instances
  (`mem_preorder_places`).
-/
import SceneAssembly.Proofs.Branches
import SceneAssembly.Proofs.Placements
import SceneAssembly.Proofs.Walk.Shadows

namespace SceneAssembly

open Relation (ReflTransGen)

variable {K : Type}

/-! ## 1. Models on offer -/

namespace ModelLibrary

/-- A library keeps a model already, or its loader may give it. -/
def Offers (l : ModelLibrary K) (root : SceneNode K) : Prop :=
  (∃ t ∈ l.templates, t.value.root = root) ∨
    ∃ load, l.loader = some load ∧ ∃ path a, (load path a).1 = .ok root

theorem all_offers (l : ModelLibrary K) : l.All l.Offers where
  kept t ht := .inl ⟨t, ht, rfl⟩
  loaded load hload path a _ hroot := .inr ⟨load, hload, path, a, hroot⟩

theorem All.of_offers {l : ModelLibrary K} {Q : SceneNode K → Prop} {root : SceneNode K}
    (h : l.All Q) (hroot : l.Offers root) : Q root := by
  rcases hroot with ⟨t, ht, rfl⟩ | ⟨load, hload, path, a, hroot⟩
  · exact h.kept t ht
  · exact h.loaded load hload path a root hroot

end ModelLibrary

/-! ## 2. Instances at places -/

theorem SceneNode.addShadows_shadow_eq (flags : Shadow → Bool) (s : Shadow) (n : SceneNode K) :
    (n.addShadows (flags .cast) (flags .receive)).shadow s = (n.shadow s || flags s) := by
  cases s with
  | cast => exact addShadows_castShadow n _ _
  | receive => exact addShadows_receiveShadow n _ _

/-- A tree consists of the nodes of places and of what stands below imported models. -/
theorem mem_preorder_places (d : Document K) {place : Place K} {x : SceneNode K}
    (hx : x ∈ place.node.preorder) :
    ∃ place', ReflTransGen (Below d) place place' ∧
      (place'.node = x ∨
        IsModel d place'.node.name ∧ ∃ m ∈ place'.node.branches, x ∈ m.preorder) := by
  obtain ⟨chain, n⟩ := place
  induction n using SceneNode.branches_induction generalizing chain with
  | h n ih =>
    rcases SceneNode.mem_preorder_iff.mp hx with rfl | ⟨m, hm, hx⟩
    · exact ⟨_, .refl, .inl rfl⟩
    · by_cases hmodel : IsModel d n.name
      · exact ⟨_, .refl, .inr ⟨hmodel, m, hm, hx⟩⟩
      · obtain ⟨place, hbelow, hcases⟩ := ih m hm (m.name :: chain) hx
        exact ⟨place, .head (.intro hmodel hm) hbelow, hcases⟩

variable [Scalar K]

/-- Below the node of a place stands a model, placed anew and with the flags of the chain added. -/
def InstanceAt (d : Document K) (place : Place K) (root : SceneNode K) : Prop :=
  ∃ (flags : Shadow → Bool) (a : Arena),
    place.node.branches =
      [((root.rebase place.node.world a).1).addShadows (flags .cast) (flags .receive)] ∧
    ∀ s, flags s = true ↔ ∃ id ∈ place.chain, Declares d s id

/-- What neither placing anew nor adding flags changes is the same in an instance as in its model. -/
theorem InstanceAt.same {β : Type} {f : SceneNode K → β} {d : Document K} {place : Place K}
    {root m x : SceneNode K} {address : List Nat} (h : InstanceAt d place root)
    (hrebase : ∀ (n : SceneNode K) parent a, f (n.rebase parent a).1 = f n)
    (hshadows : ∀ (n : SceneNode K) cast receive, f (n.addShadows cast receive) = f n)
    (hm : place.node.branches = [m]) (hx : m.at? address = some x) :
    ∃ y, root.at? address = some y ∧ f x = f y := by
  obtain ⟨flags, a, hbranches, -⟩ := h
  obtain rfl := List.singleton_inj.mp (hm.symm.trans hbranches)
  have hsame : (((root.rebase place.node.world a).1.addShadows (flags .cast)
      (flags .receive)).at? address).map f = (root.at? address).map f := by
    rw [SceneNode.addShadows_at?, Option.map_map,
      ← SceneNode.rebase_at?_map hrebase root place.node.world a address]
    congr 1
    funext y
    exact hshadows y _ _
  rw [hx] at hsame
  obtain ⟨y, hy, hfy⟩ := Option.map_eq_some_iff.mp hsame.symm
  exact ⟨y, hy, hfy.symm⟩

/-- A place is built as its element says, with models that have a property. -/
structure Built (d : Document K) (Q : SceneNode K → Prop) (place : Place K) : Prop where
  element : ∃ e, d.elements.find? place.node.name = some e ∧
    place.node.placement = TransformStep.placement? e.transforms
  gathered : ∀ s, ∀ m ∈ place.node.branches, m.shadow s = true → place.node.shadow s = true
  model : IsModel d place.node.name → place.node.levels = [] ∧
    (place.node.branches = [] ∨ ∃ root, Q root ∧ InstanceAt d place root)

namespace Walk

variable {c : Setting K} {Q : SceneNode K → Prop}

theorem Entered.own_placement {parent : Shared (Affine K)} {inherited : Inherited K}
    {path : List String} {id : String} {p q : Progress K} {e : Element K} {scope : Inherited K}
    {own : SceneNode K} (h : Entered c parent inherited path id p e scope own q) :
    own.placement = TransformStep.placement? e.transforms := by
  obtain ⟨world, rfl⟩ := h.own_eq
  rfl

theorem Entered.own_levels {parent : Shared (Affine K)} {inherited : Inherited K}
    {path : List String} {id : String} {p q : Progress K} {e : Element K} {scope : Inherited K}
    {own : SceneNode K} (h : Entered c parent inherited path id p e scope own q) :
    own.levels = [] := by
  unfold SceneNode.levels
  rw [h.own_lod]

theorem Entered.built {parent : Shared (Affine K)} {inherited : Inherited K} {path : List String}
    {id : String} {p q : Progress K} {e : Element K} {scope : Inherited K} {own n : SceneNode K}
    (h : Entered c parent inherited path id p e scope own q) (hname : n.name = own.name)
    (hplacement : n.placement = own.placement)
    (hmodel : IsModel c.document id → n.levels = [] ∧
      (n.branches = [] ∨ ∃ root, Q root ∧ InstanceAt c.document ⟨id :: path, n⟩ root)) :
    Built c.document Q ⟨id :: path, n.gatherShadows⟩ where
  element := ⟨e, by
    rw [SceneNode.gatherShadows_name, hname, h.own_name]
    exact h.found, hplacement.trans h.own_placement⟩
  gathered s m hm hflag := by
    rw [SceneNode.gatherShadows_shadow, Bool.or_eq_true, List.any_eq_true]
    exact .inr ⟨m, hm, hflag⟩
  model hisModel := by
    rw [SceneNode.gatherShadows_name, hname, h.own_name] at hisModel
    exact hmodel hisModel

/-- **The places of a visit are built as their elements say.** -/
theorem built_visit (c : Setting K) (Q : SceneNode K → Prop) (parent : Shared (Affine K))
    (inherited : Inherited K) (path : List String) (id : String) (p : Progress K)
    (hmodels : p.library.All Q)
    (hinherited : ∀ s, inherited.shadow s = true ↔ ∃ id' ∈ path, Declares c.document s id') :
    Holds c.document (Built c.document Q) path id (visit c parent inherited path id p).1 := by
  refine visit_induction (P := fun _ inherited path id p n _ => p.library.All Q →
      (∀ s, inherited.shadow s = true ↔ ∃ id' ∈ path, Declares c.document s id') →
      Holds c.document (Built c.document Q) path id n)
    ?leftOut ?group ?primitive ?light ?lod parent inherited path id p hmodels hinherited
  case leftOut =>
    intros
    exact .none
  case group =>
    intro _ inherited path id p e scope own q children built r hentered hkind hsteps hmodels hinh
    have hscope := fun s => hentered.scope_shadow (s := s) (hinh s)
    have hbelow := (hsteps.invariant (I := fun p => p.library.All Q)
      (J := Holds c.document (Built c.document Q) (id :: path)) ?_
      (hentered.works.models hmodels)).2
    · refine .branches hentered.own_name ?_ (hentered.branches_group hbelow)
      exact hentered.built rfl rfl fun hmodel =>
        absurd hmodel (not_isModel hentered.found (by simp [hkind]))
    · rintro id' p' n q' ⟨hvisit, hholds⟩ hmodels'
      exact ⟨(extends_of_visit hvisit).models hmodels', hholds hmodels' hscope⟩
  case primitive =>
    intro _ inherited path id p e scope own q shape n r hentered hkind hattach hmodels hinh
    have hscope := fun s => hentered.scope_shadow (s := s) (hinh s)
    obtain ⟨hname, hleaf⟩ := hentered.attached hkind hattach
    by_cases hmodel : ∃ file, shape = .model file
    · obtain ⟨file, rfl⟩ := hmodel
      have hlevels := hentered.own_levels
      rcases attachModel_eq hattach with rfl | ⟨t, library, b, model, arena, hserved, hrebase, rfl⟩
      · exact .single hname
          (hentered.built rfl rfl fun _ => ⟨hlevels, .inl hentered.own_branches⟩) hleaf
      · refine .single hname (hentered.built rfl rfl fun _ => ⟨hlevels, .inr ?_⟩) hleaf
        have hroot := (hserved.all (hentered.works.models hmodels)).2 t rfl
        refine ⟨t.value.root, hroot, scope.shadow, b, ?_, hscope⟩
        show (own.children ++ _) ++ own.levels.map Level.node = _
        rw [hentered.own_children, hlevels, hrebase]
        rfl
    · rw [attachShape_of_ne_model fun file h => hmodel ⟨file, h⟩] at hattach
      obtain ⟨mesh, rfl⟩ := attachMesh_eq hattach
      exact .single hname
        (hentered.built rfl rfl fun _ => ⟨hentered.own_levels, .inl hentered.own_branches⟩) hleaf
  case light =>
    intro _ inherited path id p e scope own q spec n r hentered hkind hattach _ _
    obtain ⟨light, rfl⟩ := attachLight_eq hattach
    exact .single hentered.own_name
      (hentered.built rfl rfl fun _ => ⟨hentered.own_levels, .inl hentered.own_branches⟩)
      (.inl hentered.own_branches)
  case lod =>
    intro _ inherited path id p e scope own q levels built r hentered hkind hsteps hmodels hinh
    have hscope := fun s => hentered.scope_shadow (s := s) (hinh s)
    have hbelow := (hsteps.invariant (I := fun p => p.library.All Q)
      (J := fun level l => Holds c.document (Built c.document Q) (id :: path) level.target
        (l.map Level.node)) ?_ (hentered.works.models hmodels)).2
    · refine .branches hentered.own_name ?_ (hentered.branches_lod hbelow)
      exact hentered.built rfl rfl fun hmodel =>
        absurd hmodel (not_isModel hentered.found (by simp [hkind]))
    · intro level p' l q' hlevel hmodels'
      obtain ⟨own', p'', hlevelScope, hplain, hvisit, hholds⟩ := hlevel.parts
      have hmodels'' := hplain.models hmodels'
      refine ⟨(extends_of_visit hvisit).models hmodels'', hholds hmodels'' fun s => ?_⟩
      rw [levelScope_shadow hlevelScope]
      exact hscope s

end Walk

/-! ## 3. Assembled scenes -/

section Scenes

variable {settings : Settings K} {d : Document K} {w w' : Workshop K} {scene : Scene K}

theorem built_scene (h : assemble settings d w = (.ok scene, w')) {place : Place K}
    (hplace : scene.HasPlace ⟨d, settings⟩ place) : Built d w.library.Offers place := by
  have hholds := Walk.built_visit ⟨d, settings⟩ w.library.Offers ⟨w.arena.next, Affine.identity⟩
    .nothing [] d.rootId w.start w.library.all_offers
    fun s => by cases s <;> simp [Inherited.shadow, Inherited.nothing]
  obtain ⟨q, hvisit, -⟩ := visit_root h hplace.1
  exact (hholds scene.root (congrArg Prod.fst hvisit)).2 place hplace.2

/-- A node below a place is the node of a place there, or stands in the instance of a model. -/
theorem place_or_instance (h : assemble settings d w = (.ok scene, w')) {place : Place K}
    (hplace : scene.HasPlace ⟨d, settings⟩ place) {x : SceneNode K}
    (hx : x ∈ place.node.preorder) :
    (∃ place', ReflTransGen (Below d) place place' ∧ place'.node = x) ∨
      ∃ place' root m address, ReflTransGen (Below d) place place' ∧ w.library.Offers root ∧
        InstanceAt d place' root ∧ place'.node.branches = [m] ∧ m.at? address = some x := by
  obtain ⟨place', hbelow, hcases⟩ := mem_preorder_places d hx
  rcases hcases with rfl | ⟨hmodel, m, hm, hxm⟩
  · exact .inl ⟨place', hbelow, rfl⟩
  · rcases ((built_scene h ⟨hplace.1, hplace.2.trans hbelow⟩).model hmodel).2 with
      hnone | ⟨root, hroot, hinstance⟩
    · rw [hnone] at hm
      cases hm
    · obtain ⟨flags, a, hbranches, hflags⟩ := hinstance
      rw [hbranches, List.mem_singleton] at hm
      obtain ⟨address, hat⟩ := SceneNode.exists_at?_of_mem_preorder hxm
      exact .inr ⟨place', root, m, address, hbelow, hroot, ⟨flags, a, hbranches, hflags⟩,
        hm ▸ hbranches, hat⟩

end Scenes

end SceneAssembly
