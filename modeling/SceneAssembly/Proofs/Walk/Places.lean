/-
  SceneAssembly/Proofs/Walk/Places.lean
  =====================================
  **Nodes of an assembled tree, with the elements they stand under.**

  A place is a node together with the chain of elements from the root to it.
  Below the element of an imported model stand nodes of that model; these come
  from no element and are no places.

  What is proved of the tree of a visit is proved of all its places (`Holds`): at
  the node of the visit itself, and at its branches, which come from the visits
  below (`branches_group`, `branches_lod`).
-/
import Mathlib.Logic.Relation
import SceneAssembly.Proofs.Walk.Filling

namespace SceneAssembly

open Relation (ReflTransGen)

variable {K : Type}

/-- Is there an imported model below the node of an element? -/
def IsModel (d : Document K) (id : String) : Prop :=
  ∃ e file, d.elements.find? id = some e ∧ e.kind = .primitive (.model file)

theorem not_isModel {d : Document K} {id : String} {e : Element K}
    (hid : d.elements.find? id = some e) (hkind : ∀ file, e.kind ≠ .primitive (.model file)) :
    ¬ IsModel d id := by
  rintro ⟨e', file, hid', hfile⟩
  obtain rfl : e = e' := Option.some.inj (hid.symm.trans hid')
  exact hkind file hfile

/-! ## 1. Places -/

/-- A node and the elements on the way to it, its own first. -/
structure Place (K : Type) where
  chain : List String
  node : SceneNode K

/-- One place is directly below another one. -/
inductive Below (d : Document K) : Place K → Place K → Prop
  | intro {chain : List String} {n m : SceneNode K} (hmodel : ¬ IsModel d n.name)
    (hm : m ∈ n.branches) : Below d ⟨chain, n⟩ ⟨m.name :: chain, m⟩

/-- A place of a scene: one that is the root, which must not be left out, or anywhere below it. -/
def Scene.HasPlace (scene : Scene K) (c : Setting K) (place : Place K) : Prop :=
  leftOut? c [] c.document.rootId = none ∧
    ReflTransGen (Below c.document) ⟨[c.document.rootId], scene.root⟩ place

/-- A property holds at a place and at all places below it. -/
def Everywhere (d : Document K) (G : Place K → Prop) (place : Place K) : Prop :=
  ∀ place', ReflTransGen (Below d) place place' → G place'

section Everywhere

variable {d : Document K} {G H : Place K → Prop} {chain : List String} {n : SceneNode K}

theorem Everywhere.mono (h : ∀ place, G place → H place) {place : Place K}
    (hG : Everywhere d G place) : Everywhere d H place :=
  fun place' hbelow => h place' (hG place' hbelow)

theorem Everywhere.of_branches (hn : G ⟨chain, n⟩)
    (hbranches : ¬ IsModel d n.name → ∀ m ∈ n.branches, Everywhere d G ⟨m.name :: chain, m⟩) :
    Everywhere d G ⟨chain, n⟩ := by
  intro place hplace
  rcases hplace.cases_head with rfl | ⟨_, hbelow, hrest⟩
  · exact hn
  · cases hbelow with
    | intro hmodel hm => exact hbranches hmodel _ hm place hrest

end Everywhere

/-! ## 2. Trees of visits -/

/-- The node of a visit, if there is one, has the name of its element, and a property holds at it
    and everywhere below. -/
def Holds (d : Document K) (G : Place K → Prop) (path : List String) (id : String)
    (n : Option (SceneNode K)) : Prop :=
  ∀ m, n = some m → m.name = id ∧ Everywhere d G ⟨id :: path, m⟩

namespace Holds

variable {d : Document K} {G H : Place K → Prop} {path : List String} {id : String}

theorem none : Holds d G path id none := by
  intro m hm
  cases hm

theorem mono (h : ∀ place, G place → H place) {n : Option (SceneNode K)}
    (hG : Holds d G path id n) : Holds d H path id n :=
  fun m hm => ⟨(hG m hm).1, (hG m hm).2.mono h⟩

theorem single {n : SceneNode K} (hname : n.name = id) (hn : G ⟨id :: path, n⟩)
    (hleaf : n.branches = [] ∨ IsModel d id) : Holds d G path id (some n) := by
  intro m hm
  obtain rfl := Option.some.inj hm
  refine ⟨hname, Everywhere.of_branches hn fun hmodel m hm => ?_⟩
  rcases hleaf with hleaf | hleaf
  · rw [hleaf] at hm
    cases hm
  · exact absurd (hname ▸ hleaf) hmodel

theorem branches {n : SceneNode K} (hname : n.name = id) (hn : G ⟨id :: path, n⟩)
    (hbelow : ∀ m ∈ n.branches, ∃ id', Holds d G (id :: path) id' (some m)) :
    Holds d G path id (some n) := by
  intro m hm
  obtain rfl := Option.some.inj hm
  refine ⟨hname, Everywhere.of_branches hn fun _ m hm => ?_⟩
  obtain ⟨id', hholds⟩ := hbelow m hm
  obtain ⟨rfl, heverywhere⟩ := hholds m rfl
  exact heverywhere

end Holds

/-! ## 3. Branches of groups and of levels of detail -/

theorem exists_of_mem_right {α β : Type} {R : α → β → Prop} {as : List α} {bs : List β}
    (h : List.Forall₂ R as bs) {b : β} (hb : b ∈ bs) : ∃ a ∈ as, R a b := by
  induction h with
  | nil => cases hb
  | @cons a b' as bs hab _ ih =>
    rcases List.mem_cons.mp hb with rfl | hb
    · exact ⟨a, List.mem_cons_self, hab⟩
    · obtain ⟨a', ha', hr⟩ := ih hb
      exact ⟨a', List.mem_cons_of_mem a ha', hr⟩

theorem exists_of_mem_reduceOption {α β : Type} {R : α → Option β → Prop} {as : List α}
    {bs : List (Option β)} (h : List.Forall₂ R as bs) {b : β} (hb : b ∈ bs.reduceOption) :
    ∃ a ∈ as, R a (some b) :=
  exists_of_mem_right h (List.reduceOption_mem_iff.mp hb)

namespace Walk.Entered

variable [Scalar K] {c : Setting K} {G : Place K → Prop} {parent : Shared (Affine K)}
  {inherited : Inherited K} {path : List String} {id : String} {p q : Progress K} {e : Element K}
  {scope : Inherited K} {own : SceneNode K}

/-- No place is below the node of a shape. -/
theorem attached (h : Entered c parent inherited path id p e scope own q) {shape : ShapeSpec K}
    {n : SceneNode K} {r : Progress K} (hkind : e.kind = .primitive shape)
    (hattach : attachShape c scope shape own q = (n, r)) :
    n.name = id ∧ (n.branches = [] ∨ IsModel c.document id) := by
  by_cases hmodel : ∃ file, shape = .model file
  · obtain ⟨file, rfl⟩ := hmodel
    refine ⟨?_, .inr ⟨e, file, h.found, hkind⟩⟩
    rcases attachModel_eq hattach with rfl | ⟨t, library, b, model, arena, -, -, rfl⟩
    · exact h.own_name
    · exact h.own_name
  · rw [attachShape_of_ne_model fun file hfile => hmodel ⟨file, hfile⟩] at hattach
    obtain ⟨mesh, rfl⟩ := attachMesh_eq hattach
    exact ⟨h.own_name, .inl h.own_branches⟩

theorem branches_group (h : Entered c parent inherited path id p e scope own q)
    {children : List String} {built : List (Option (SceneNode K))}
    (hbelow : List.Forall₂ (Holds c.document G (id :: path)) children built) :
    ∀ m ∈ { own with children := built.reduceOption }.branches,
      ∃ id', Holds c.document G (id :: path) id' (some m) := by
  intro m hm
  have hbranches : { own with children := built.reduceOption }.branches = built.reduceOption := by
    simp [SceneNode.branches, SceneNode.levels, h.own_lod]
  rw [hbranches] at hm
  obtain ⟨id', -, hholds⟩ := exists_of_mem_reduceOption hbelow hm
  exact ⟨id', hholds⟩

theorem branches_lod (h : Entered c parent inherited path id p e scope own q)
    {levels : List (LevelSpec K)} {built : List (Option (Level K (SceneNode K)))}
    (hbelow : List.Forall₂ (fun level l =>
      Holds c.document G (id :: path) level.target (l.map Level.node)) levels built) :
    ∀ m ∈ { own with lod := some (.ofLevels built.reduceOption) }.branches,
      ∃ id', Holds c.document G (id :: path) id' (some m) := by
  intro m hm
  have hbranches : { own with lod := some (.ofLevels built.reduceOption) }.branches =
      (Lod.ofLevels built.reduceOption).levels.map Level.node := by
    simp [SceneNode.branches, SceneNode.levels, h.own_children]
  rw [hbranches] at hm
  obtain ⟨l, hl, rfl⟩ := List.mem_map.mp hm
  obtain ⟨level, -, hholds⟩ :=
    exists_of_mem_reduceOption hbelow (Lod.mem_levels_ofLevels.mp hl)
  exact ⟨level.target, hholds⟩

end Walk.Entered

end SceneAssembly
