/-
  SceneAssembly/Proofs/Walk/Shadows.lean
  ======================================
  **What the shadow flags of a node mean.**

  Flags pass down with what is inherited and back up when a node is finished.
  In the end a node has a flag exactly if an element on the way to it, or one
  whose node is below it, asks for it (`shadow_iff`).  Each of the two flags is
  for itself, and what was left out asks for nothing.
-/
import SceneAssembly.Proofs.Walk.Growth
import SceneAssembly.Proofs.Walk.Places
import SceneAssembly.Proofs.Walk.Unfolding

namespace SceneAssembly

open Relation (ReflTransGen TransGen)

variable {K : Type}

/-! ## 1. One flag of two -/

/-- The two shadow flags. -/
inductive Shadow where
  | cast
  | receive

def SceneNode.shadow (n : SceneNode K) : Shadow → Bool
  | .cast => n.castShadow
  | .receive => n.receiveShadow

def Mesh.shadow (m : Mesh K) : Shadow → Bool
  | .cast => m.castShadows
  | .receive => m.receiveShadows

def Inherited.shadow (i : Inherited K) : Shadow → Bool
  | .cast => i.castShadow
  | .receive => i.receiveShadow

/-- What an element says about a flag, if anything. -/
def Element.shadow? (e : Element K) : Shadow → Option Bool
  | .cast => e.castShadow
  | .receive => e.receiveShadow

theorem Element.casts_iff {e : Element K} : e.casts = true ↔ e.castShadow = some true := by
  unfold Element.casts
  cases e.castShadow with
  | none => simp
  | some flag => simp

theorem Element.receives_iff {e : Element K} :
    e.receives = true ↔ e.receiveShadow = some true := by
  unfold Element.receives
  cases e.receiveShadow with
  | none => simp
  | some flag => simp

/-- The element of an identifier asks for a flag. -/
def Declares (d : Document K) (s : Shadow) (id : String) : Prop :=
  ∃ e, d.elements.find? id = some e ∧ e.shadow? s = some true

namespace SceneNode

variable (s : Shadow) (n : SceneNode K)

theorem gatherShadows_shadow :
    n.gatherShadows.shadow s = (n.shadow s || n.branches.any (·.shadow s)) := by
  cases s <;> rfl

theorem addShadows_shadow (i : Inherited K) :
    (n.addShadows i.castShadow i.receiveShadow).shadow s = (n.shadow s || i.shadow s) := by
  cases s with
  | cast => exact addShadows_castShadow n _ _
  | receive => exact addShadows_receiveShadow n _ _

theorem rebase_shadow [Scalar K] (parent : Shared (Affine K)) (a : Arena) :
    (n.rebase parent a).1.shadow s = n.shadow s := by
  cases s with
  | cast => exact rebase_castShadow parent n a
  | receive => exact rebase_receiveShadow parent n a

end SceneNode

/-! ## 2. The law of a flag -/

/-- The node of a place has a flag exactly if an element of its chain asks for it, or one whose node
    is below. -/
def ShadowLaw (d : Document K) (s : Shadow) (place : Place K) : Prop :=
  place.node.shadow s = true ↔
    (∃ id ∈ place.chain, Declares d s id) ∨
      ∃ below, TransGen (Below d) place below ∧ Declares d s below.node.name

section Law

variable {d : Document K} {s : Shadow} {chain : List String} {n : SceneNode K}

/-- Where no place is below, the chain decides. -/
theorem ShadowLaw.leaf (hleaf : n.branches = [] ∨ IsModel d n.name)
    (hn : n.shadow s = true ↔ ∃ id ∈ chain, Declares d s id) : ShadowLaw d s ⟨chain, n⟩ := by
  refine hn.trans ⟨.inl, ?_⟩
  rintro (h | ⟨below, hbelow, -⟩)
  · exact h
  · exfalso
    obtain ⟨_, hfirst, -⟩ := TransGen.head'_iff.mp hbelow
    cases hfirst with
    | intro hmodel hm =>
      rcases hleaf with hleaf | hleaf
      · rw [hleaf] at hm
        cases hm
      · exact hmodel hleaf

/-- Where the node gathers the flags of its branches, the law of these is its own. -/
theorem ShadowLaw.branches (hmodel : ¬ IsModel d n.name)
    (hn : n.shadow s = true ↔
      (∃ id ∈ chain, Declares d s id) ∨ ∃ m ∈ n.branches, m.shadow s = true)
    (hbranches : ∀ m ∈ n.branches, ShadowLaw d s ⟨m.name :: chain, m⟩) :
    ShadowLaw d s ⟨chain, n⟩ := by
  refine hn.trans ⟨?_, ?_⟩
  · rintro (h | ⟨m, hm, hflag⟩)
    · exact .inl h
    · have hstep : Below d ⟨chain, n⟩ ⟨m.name :: chain, m⟩ := .intro hmodel hm
      rcases (hbranches m hm).mp hflag with ⟨id, hid, hdeclares⟩ | ⟨below, hbelow, hdeclares⟩
      · rcases List.mem_cons.mp hid with rfl | hid
        · exact .inr ⟨_, .single hstep, hdeclares⟩
        · exact .inl ⟨id, hid, hdeclares⟩
      · exact .inr ⟨below, .head hstep hbelow, hdeclares⟩
  · rintro (h | ⟨below, hbelow, hdeclares⟩)
    · exact .inl h
    · obtain ⟨mid, hfirst, hrest⟩ := TransGen.head'_iff.mp hbelow
      cases hfirst with
      | @intro _ _ m _ hm =>
        refine .inr ⟨m, hm, (hbranches m hm).mpr ?_⟩
        rcases Relation.reflTransGen_iff_eq_or_transGen.mp hrest with rfl | hrest
        · exact .inl ⟨m.name, List.mem_cons_self, hdeclares⟩
        · exact .inr ⟨below, hrest, hdeclares⟩

end Law

structure ShadowsRight (d : Document K) (s : Shadow) (place : Place K) : Prop where
  law : ShadowLaw d s place
  mesh : ∀ m, place.node.mesh = some m → m.shadow s = place.node.shadow s

theorem ShadowsRight.gathered {d : Document K} {s : Shadow} {path : List String} {id : String}
    {n : SceneNode K} (hmodel : ¬ IsModel d id) (hname : n.name = id) (hmesh : n.mesh = none)
    (hn : n.shadow s = true ↔ ∃ id' ∈ id :: path, Declares d s id')
    (hbelow : ∀ m ∈ n.branches, ∃ id', Holds d (ShadowsRight d s) (id :: path) id' (some m)) :
    ShadowsRight d s ⟨id :: path, n.gatherShadows⟩ where
  law := by
    refine ShadowLaw.branches ?_ ?_ ?_
    · rw [SceneNode.gatherShadows_name, hname]
      exact hmodel
    · rw [SceneNode.gatherShadows_shadow, Bool.or_eq_true, hn, List.any_eq_true]
      rfl
    · intro m hm
      obtain ⟨id', hholds⟩ := hbelow m hm
      obtain ⟨rfl, heverywhere⟩ := hholds m rfl
      exact (heverywhere _ .refl).law
  mesh m hm := by
    rw [SceneNode.gatherShadows_mesh, hmesh] at hm
    cases hm

namespace Walk

variable [Scalar K] {c : Setting K} {s : Shadow}

/-! ## 3. Flags on the way down -/

namespace Entered

variable {parent : Shared (Affine K)} {inherited : Inherited K} {path : List String} {id : String}
  {p q : Progress K} {e : Element K} {scope : Inherited K} {own : SceneNode K}

theorem own_shadow (h : Entered c parent inherited path id p e scope own q) :
    own.shadow s = scope.shadow s := by
  obtain ⟨world, rfl⟩ := h.own_eq
  cases s <;> rfl

theorem scope_shadow (h : Entered c parent inherited path id p e scope own q)
    (hinherited : inherited.shadow s = true ↔ ∃ id' ∈ path, Declares c.document s id') :
    scope.shadow s = true ↔ ∃ id' ∈ id :: path, Declares c.document s id' := by
  have hscope : scope.shadow s = true ↔ inherited.shadow s = true ∨ e.shadow? s = some true := by
    obtain ⟨_, _, hscope, -, -⟩ := h.scope_made
    obtain ⟨_, -, -, hcast, hreceive⟩ := scopeOf_parts hscope
    cases s with
    | cast => simp [Inherited.shadow, Element.shadow?, hcast, Element.casts_iff]
    | receive => simp [Inherited.shadow, Element.shadow?, hreceive, Element.receives_iff]
  have hown : e.shadow? s = some true ↔ Declares c.document s id := by
    constructor
    · exact fun hflag => ⟨e, h.found, hflag⟩
    · rintro ⟨e', hid', hflag⟩
      obtain rfl : e = e' := Option.some.inj (h.found.symm.trans hid')
      exact hflag
  rw [hscope, hinherited, hown]
  simp only [List.mem_cons, exists_eq_or_imp]
  exact or_comm

end Entered

omit [Scalar K] in
theorem levelScope_shadow {scope own : Inherited K} {p q : Progress K}
    (h : levelScope scope p = (own, q)) : own.shadow s = scope.shadow s := by
  unfold levelScope at h
  cases hmaterial : scope.material with
  | none => rw [hmaterial] at h; cases h; rfl
  | some m => rw [hmaterial] at h; cases h; cases s <;> rfl

/-! ## 4. Visits -/

theorem attachModel_shadow {scope : Inherited K} {file : String} {n m : SceneNode K}
    {p q : Progress K} (hmodels : p.library.All fun root => root.shadow s = false)
    (hn : n.shadow s = scope.shadow s) (hbranches : n.branches = [])
    (h : attachModel c scope file n p = (m, q)) :
    m.gatherShadows.shadow s = scope.shadow s ∧ m.mesh = n.mesh ∧ m.name = n.name := by
  rcases attachModel_eq h with rfl | ⟨t, library, b, model, arena, hserved, hrebase, rfl⟩
  · refine ⟨?_, rfl, rfl⟩
    rw [SceneNode.gatherShadows_shadow, hbranches, hn]
    simp
  · refine ⟨?_, rfl, rfl⟩
    have htemplate : t.value.root.shadow s = false := (hserved.all hmodels).2 t rfl
    have hmodel : model.shadow s = false := by
      have hkept := SceneNode.rebase_shadow s t.value.root n.world b
      rw [hrebase] at hkept
      exact hkept.trans htemplate
    have hchildren : n.children = [] ∧ n.levels.map Level.node = [] :=
      List.append_eq_nil_iff.mp hbranches
    have hflag : ∀ children, ({ n with children := children } : SceneNode K).shadow s =
        n.shadow s := by
      intro children
      cases s <;> rfl
    have hbelow : ({ n with children := n.children ++
          [model.addShadows scope.castShadow scope.receiveShadow] } : SceneNode K).branches =
        [model.addShadows scope.castShadow scope.receiveShadow] := by
      show (n.children ++ _) ++ n.levels.map Level.node = _
      rw [hchildren.1, hchildren.2]
      rfl
    rw [SceneNode.gatherShadows_shadow, hflag, hbelow, hn]
    simp [SceneNode.addShadows_shadow, hmodel]

theorem attachMesh_shadow {scope : Inherited K} {shape : ShapeSpec K} {n m : SceneNode K}
    {p q : Progress K} (hmesh : n.mesh = none) (h : attachMesh c scope shape n p = (m, q)) :
    m.name = n.name ∧ m.branches = n.branches ∧ m.shadow s = n.shadow s ∧
      ∀ mesh, m.mesh = some mesh → mesh.shadow s = scope.shadow s := by
  cases hbuild : shape.build c.settings with
  | error d =>
    obtain rfl := attachMesh_error hbuild h
    refine ⟨rfl, rfl, rfl, fun mesh hm => ?_⟩
    rw [hmesh] at hm
    cases hm
  | ok g =>
    obtain ⟨geometry, material, p', groups, -, -, -, rfl⟩ := attachMesh_ok hbuild h
    refine ⟨rfl, rfl, by cases s <;> rfl, fun mesh hm => ?_⟩
    cases hm
    cases s <;> rfl

/-- **The flags of the nodes of a visit are right**, provided that what is inherited is. -/
theorem shadowsRight_visit (c : Setting K) (s : Shadow) (parent : Shared (Affine K))
    (inherited : Inherited K) (path : List String) (id : String) (p : Progress K)
    (hmodels : p.library.All fun root => root.shadow s = false)
    (hinherited : inherited.shadow s = true ↔ ∃ id' ∈ path, Declares c.document s id') :
    Holds c.document (ShadowsRight c.document s) path id
      (visit c parent inherited path id p).1 := by
  refine visit_induction (P := fun _ inherited path id p n _ =>
      (p.library.All fun root => root.shadow s = false) →
      (inherited.shadow s = true ↔ ∃ id' ∈ path, Declares c.document s id') →
      Holds c.document (ShadowsRight c.document s) path id n)
    ?leftOut ?group ?primitive ?light ?lod parent inherited path id p hmodels hinherited
  case leftOut =>
    intros
    exact .none
  case group =>
    intro _ inherited path id p e scope own q children built r hentered hkind hsteps hmodels hinh
    have hscope := hentered.scope_shadow hinh
    have hbelow := (hsteps.invariant (I := fun p => p.library.All fun root => root.shadow s = false)
      (J := Holds c.document (ShadowsRight c.document s) (id :: path)) ?_
      (hentered.works.models hmodels)).2
    · refine .branches hentered.own_name ?_ (hentered.branches_group hbelow)
      refine .gathered (not_isModel hentered.found (by simp [hkind])) hentered.own_name
        hentered.own_mesh ?_ (hentered.branches_group hbelow)
      rw [← hscope, ← hentered.own_shadow]
      cases s <;> rfl
    · rintro id' p' n q' ⟨hvisit, hholds⟩ hmodels'
      exact ⟨(extends_of_visit hvisit).models hmodels', hholds hmodels' hscope⟩
  case primitive =>
    intro _ inherited path id p e scope own q shape n r hentered hkind hattach hmodels hinh
    have hscope := hentered.scope_shadow hinh
    by_cases hmodel : ∃ file, shape = .model file
    · obtain ⟨file, rfl⟩ := hmodel
      have hisModel : IsModel c.document id := ⟨e, file, hentered.found, hkind⟩
      obtain ⟨hflag, hmesh, hname⟩ := attachModel_shadow (s := s) (hentered.works.models hmodels)
        hentered.own_shadow hentered.own_branches hattach
      have hid : n.gatherShadows.name = id := hname.trans hentered.own_name
      refine .single hid ⟨.leaf (.inr (hid.symm ▸ hisModel)) (hflag ▸ hscope), ?_⟩ (.inr hisModel)
      intro m hm
      rw [SceneNode.gatherShadows_mesh, hmesh, hentered.own_mesh] at hm
      cases hm
    · rw [attachShape_of_ne_model fun file h => hmodel ⟨file, h⟩] at hattach
      obtain ⟨hname, hbranches, hflag, hmesh⟩ :=
        attachMesh_shadow (s := s) hentered.own_mesh hattach
      have hleaf : n.gatherShadows.branches = [] := hbranches.trans hentered.own_branches
      have hgathered : n.gatherShadows.shadow s = scope.shadow s := by
        rw [SceneNode.gatherShadows_shadow, hbranches, hentered.own_branches, hflag,
          hentered.own_shadow]
        simp
      refine .single (hname.trans hentered.own_name)
        ⟨.leaf (.inl hleaf) (hgathered ▸ hscope), fun m hm => ?_⟩ (.inl hleaf)
      exact (hmesh m hm).trans hgathered.symm
  case light =>
    intro _ inherited path id p e scope own q spec n r hentered hkind hattach hmodels hinh
    have hscope := hentered.scope_shadow hinh
    obtain ⟨light, rfl⟩ := attachLight_eq hattach
    have hleaf : ({ own with light := light } : SceneNode K).gatherShadows.branches = [] :=
      hentered.own_branches
    have hgathered : ({ own with light := light } : SceneNode K).gatherShadows.shadow s =
        scope.shadow s := by
      rw [← hentered.own_shadow, SceneNode.gatherShadows_shadow,
        ← SceneNode.gatherShadows_branches, hleaf]
      cases s <;> simp [SceneNode.shadow]
    refine .single hentered.own_name ⟨.leaf (.inl hleaf) (hgathered ▸ hscope), fun m hm => ?_⟩
      (.inl hleaf)
    rw [SceneNode.gatherShadows_mesh] at hm
    have hnone : own.mesh = some m := hm
    rw [hentered.own_mesh] at hnone
    cases hnone
  case lod =>
    intro _ inherited path id p e scope own q levels built r hentered hkind hsteps hmodels hinh
    have hscope := hentered.scope_shadow hinh
    have hbelow := (hsteps.invariant (I := fun p => p.library.All fun root => root.shadow s = false)
      (J := fun level l =>
        Holds c.document (ShadowsRight c.document s) (id :: path) level.target (l.map Level.node))
      ?_ (hentered.works.models hmodels)).2
    · refine .branches hentered.own_name ?_ (hentered.branches_lod hbelow)
      refine .gathered (not_isModel hentered.found (by simp [hkind])) hentered.own_name
        hentered.own_mesh ?_ (hentered.branches_lod hbelow)
      rw [← hscope, ← hentered.own_shadow]
      cases s <;> rfl
    · intro level p₁ l q' hlevel hmodels₁
      obtain ⟨own', p₂, hown, hplain, hvisit, hholds⟩ := hlevel.parts
      have hmodels₂ := hplain.models hmodels₁
      exact ⟨(extends_of_visit hvisit).models hmodels₂,
        hholds hmodels₂ (levelScope_shadow hown ▸ hscope)⟩

end Walk

/-! ## 5. Assembled scenes -/

/-- **What a shadow flag means.**  If no model has the flag of its own, then a node that stands for
    an element has it exactly if an element on the chain from the root asks for it, or the element
    of a node below; its mesh, if it has one, agrees with it. -/
theorem shadow_iff [Scalar K] (settings : Settings K) (d : Document K) (w : Workshop K)
    (hroot : d.elements.contains d.rootId) :
    ∃ scene w', assemble settings d w = (.ok scene, w') ∧
      ∀ s, (w.library.All fun root => root.shadow s = false) →
        ∀ place, scene.HasPlace ⟨d, settings⟩ place →
          (place.node.shadow s = true ↔
            (∃ id ∈ place.chain, Declares d s id) ∨
              ∃ below, TransGen (Below d) place below ∧ Declares d s below.node.name) ∧
          ∀ mesh, place.node.mesh = some mesh → mesh.shadow s = place.node.shadow s := by
  obtain ⟨scene, w', hscene⟩ := exists_scene settings w hroot
  refine ⟨scene, w', hscene, fun s hmodels place hplace => ?_⟩
  have hholds := Walk.shadowsRight_visit ⟨d, settings⟩ s ⟨w.arena.next, Affine.identity⟩ .nothing []
    d.rootId w.start hmodels (by cases s <;> simp [Inherited.shadow, Inherited.nothing])
  obtain ⟨q, hvisit, -⟩ := visit_root hscene hplace.1
  have hright := (hholds scene.root (congrArg Prod.fst hvisit)).2 place hplace.2
  exact ⟨hright.law, hright.mesh⟩

/-- A root that asks to receive shadows, above an element that asks to cast them. -/
def Document.shaded : Document Float32 :=
  ((Document.ofRoot "root").addElement
    { Element.ofKind "root" (.group ["lamp"]) with receiveShadow := some true }).addElement
    { Element.ofKind "lamp" (.group []) with castShadow := some true }

theorem shadow_iff_shaded :
    Document.shaded.elements.contains Document.shaded.rootId ∧
    (∀ s, (ModelLibrary.empty : ModelLibrary Float32).All fun root => root.shadow s = false) ∧
    ∃ scene w', assemble .standard Document.shaded
        ⟨.empty, .ofRecords .empty "." .placeholder, .empty⟩ = (.ok scene, w') ∧
      scene.HasPlace ⟨Document.shaded, .standard⟩ ⟨["root"], scene.root⟩ ∧
      scene.root.castShadow = true ∧ scene.root.receiveShadow = true := by
  have hroot : Document.shaded.elements.contains Document.shaded.rootId := rfl
  have hmodels : ∀ s, (ModelLibrary.empty : ModelLibrary Float32).All
      fun root => root.shadow s = false := by
    intro s
    exact ⟨fun t ht => by simp [ModelLibrary.empty] at ht, fun load hload => by cases hload⟩
  obtain ⟨scene, w', hscene, hlaw⟩ := shadow_iff .standard Document.shaded
    ⟨.empty, .ofRecords .empty "." .placeholder, .empty⟩ hroot
  have hplace : scene.HasPlace ⟨Document.shaded, .standard⟩ ⟨["root"], scene.root⟩ := ⟨rfl, .refl⟩
  -- The tree is known from the unfolding: a root with one child.
  have hlamp : unfold ⟨Document.shaded, .standard⟩ ["root"] "lamp" = .group "lamp" [] :=
    unfold_kind (e := { Element.ofKind "lamp" (.group []) with castShadow := some true }) rfl rfl
  have hunfold : unfold ⟨Document.shaded, .standard⟩ [] Document.shaded.rootId =
      .group "root" [.group "lamp" []] := by
    rw [← hlamp]
    exact unfold_kind
      (e := { Element.ofKind "root" (.group ["lamp"]) with receiveShadow := some true }) rfl rfl
  have hrealizes := realizes_root hscene rfl
  rw [hunfold] at hrealizes
  obtain ⟨lamp, hname, hmem⟩ : ∃ lamp : SceneNode Float32, lamp.name = "lamp" ∧
      lamp ∈ scene.root.branches := by
    cases hrealizes with
    | group hname hlod hbelow hchildren =>
      cases hbelow with
      | cons hfirst hrest =>
        cases hrest
        cases hfirst with
        | group hname _ _ _ => exact ⟨_, hname, by simp [SceneNode.branches, hchildren]⟩
  have hrootName : scene.root.name = "root" := by
    cases hrealizes with
    | group hname => exact hname
  have hbelow : Below Document.shaded ⟨["root"], scene.root⟩ ⟨lamp.name :: ["root"], lamp⟩ := by
    refine .intro ?_ hmem
    rw [hrootName]
    exact not_isModel
      (e := { Element.ofKind "root" (.group ["lamp"]) with receiveShadow := some true }) rfl
      (by simp [Element.ofKind])
  refine ⟨hroot, hmodels, scene, w', hscene, hplace, ?_, ?_⟩
  · refine ((hlaw .cast (hmodels .cast) _ hplace).1).mpr (.inr ⟨_, .single hbelow, ?_⟩)
    rw [hname]
    exact ⟨_, rfl, rfl⟩
  · refine ((hlaw .receive (hmodels .receive) _ hplace).1).mpr (.inl ⟨"root", ?_, ?_⟩)
    · exact List.mem_singleton_self _
    · exact ⟨_, rfl, rfl⟩

end SceneAssembly
