/-
  SceneAssembly/Proofs/Walk/Layers.lean
  =====================================
  **The levels of an assembled node are those of its element, in order.**

  A level whose target is left out has no node; all others are added in the
  order of the element (`Layered`), and so end up in stable order of their
  distances.
-/
import SceneAssembly.Proofs.LevelsOfDetail
import SceneAssembly.Proofs.Walk.Instances
import SceneAssembly.Proofs.Walk.Unfolding

namespace SceneAssembly

open Relation (ReflTransGen)

variable {K : Type} [Scalar K]

/-! ## 1. Levels that are only added -/

namespace Lod

variable {α : Type}

theorem run_add (levels : List (Level K α)) (l : Lod K α) (added : List (Level K α)) :
    (levels.map fun l => Change.add l.minDistance l.node).foldl apply l =
        levels.foldl (fun lod l => lod.add l.minDistance l.node) l ∧
      (levels.map fun l => Change.add l.minDistance l.node).foldl record added =
        added ++ levels := by
  induction levels generalizing l added with
  | nil => exact ⟨rfl, (List.append_nil added).symm⟩
  | cons level rest ih =>
    obtain ⟨hrun, hrecord⟩ := ih (l.add level.minDistance level.node) (added ++ [level])
    exact ⟨hrun, hrecord.trans (List.append_cons added level rest).symm⟩

theorem levels_ofLevels [Scalar.LawfulOrder K] {levels : List (Level K α)} (h : Numbered levels) :
    (ofLevels levels).levels = sorted levels := by
  obtain ⟨hrun, hrecord⟩ := run_add levels empty []
  have hchanges : ∀ c ∈ levels.map fun l => Change.add l.minDistance l.node, c.IsNumbered := by
    intro c hc
    obtain ⟨l, hl, rfl⟩ := List.mem_map.mp hc
    exact h l hl
  have hlevels := (levels_run hchanges).2
  rw [run, hrun, recorded, hrecord] at hlevels
  exact hlevels

theorem sorted_swap [Scalar.LawfulOrder K] {a b : Level K α}
    (ha : Scalar.IsNumber a.minDistance) (hb : Scalar.IsNumber b.minDistance)
    (h : b.minDistance < a.minDistance) : sorted [a, b] = [b, a] := by
  have hnumbered : Numbered [a, b] := by
    intro l hl
    rcases List.mem_pair.mp hl with rfl | rfl
    · exact ha
    · exact hb
  rw [← levels_ofLevels hnumbered]
  simp [ofLevels, add, empty, insertLevel, h]

end Lod

/-! ## 2. Places with levels -/

/-- The levels at a place are made of the levels of its element whose targets are not left out, each
with the node of its target, added in their order. -/
def Layered (c : Setting K) (place : Place K) : Prop :=
  ∀ e records, c.document.elements.find? place.node.name = some e → e.kind = .lod records →
    ∃ built : List (LevelSpec K × SceneNode K),
      built.map Prod.fst =
        records.filter (fun r => (leftOut? c place.chain r.target).isNone) ∧
      (∀ x ∈ built, x.2.name = x.1.target) ∧
      place.node.lod = some (.ofLevels (built.map fun x => ⟨x.1.minDistance, x.2⟩))

namespace Walk

variable {c : Setting K}

/-- There is a node where a reference is not left out. -/
theorem isSome_visit (parent : Shared (Affine K)) (inherited : Inherited K) (path : List String)
    (id : String) (p : Progress K) :
    (visit c parent inherited path id p).1.isSome = (leftOut? c path id).isNone := by
  have hrealizes := realizes_visit c parent inherited path id p
  cases hleft : leftOut? c path id with
  | some d =>
    rw [unfold_leftOut hleft] at hrealizes
    cases hnode : (visit c parent inherited path id p).1 with
    | none => rfl
    | some n =>
      rw [hnode] at hrealizes
      cases hrealizes
  | none =>
    obtain ⟨e, hid, -⟩ := leftOut?_eq_none_iff.mp hleft
    rw [unfold_kind hleft hid] at hrealizes
    cases hnode : (visit c parent inherited path id p).1 with
    | some n => rfl
    | none =>
      rw [hnode] at hrealizes
      split at hrealizes <;> cases hrealizes

omit [Scalar K] in
/-- What was visited for each level, as the levels that have a node. -/
theorem exists_built {path : List String} {levels : List (LevelSpec K)}
    {built : List (Option (Level K (SceneNode K)))}
    (h : List.Forall₂ (fun level l => ∃ n : Option (SceneNode K),
      l = n.map (Level.mk level.minDistance) ∧
      n.isSome = (leftOut? c path level.target).isNone ∧
      ∀ m, n = some m → m.name = level.target) levels built) :
    ∃ pairs : List (LevelSpec K × SceneNode K),
      pairs.map Prod.fst =
        levels.filter (fun r => (leftOut? c path r.target).isNone) ∧
      (∀ x ∈ pairs, x.2.name = x.1.target) ∧
      built.reduceOption = pairs.map fun x => ⟨x.1.minDistance, x.2⟩ := by
  induction h with
  | nil => exact ⟨[], rfl, List.forall_mem_nil _, rfl⟩
  | @cons level l levels built hlevel _ ih =>
    obtain ⟨n, rfl, hkept, hname⟩ := hlevel
    obtain ⟨pairs, hfst, hnames, hbuilt⟩ := ih
    cases n with
    | none =>
      refine ⟨pairs, ?_, hnames, hbuilt⟩
      rw [List.filter_cons_of_neg (by simp [← hkept]), hfst]
    | some m =>
      refine ⟨(level, m) :: pairs, ?_, ?_, congrArg (List.cons _) hbuilt⟩
      · rw [List.filter_cons_of_pos (by simp [← hkept]), List.map_cons, hfst]
      · rw [List.forall_mem_cons]
        exact ⟨hname m rfl, hnames⟩

theorem Entered.layered_of_kind {parent : Shared (Affine K)} {inherited : Inherited K}
    {path : List String} {id : String} {p q : Progress K} {e : Element K} {scope : Inherited K}
    {own n : SceneNode K} (h : Entered c parent inherited path id p e scope own q)
    (hname : n.name = id) (hkind : ∀ records, e.kind ≠ .lod records) :
    Layered c ⟨id :: path, n.gatherShadows⟩ := by
  intro e' records he' hlod
  rw [SceneNode.gatherShadows_name, hname, h.found] at he'
  cases he'
  exact absurd hlod (hkind records)

/-- **The levels of a visit are those of its element.** -/
theorem layered_visit (c : Setting K) (parent : Shared (Affine K)) (inherited : Inherited K)
    (path : List String) (id : String) (p : Progress K) :
    Holds c.document (Layered c) path id (visit c parent inherited path id p).1 := by
  refine visit_induction (P := fun _ _ path id _ n _ => Holds c.document (Layered c) path id n)
    ?leftOut ?group ?primitive ?light ?lod parent inherited path id p
  case leftOut =>
    intros
    exact .none
  case group =>
    intro _ _ path id p e scope own q children built r hentered hkind hsteps
    have hbelow := (hsteps.invariant (I := fun _ => True)
      (J := Holds c.document (Layered c) (id :: path))
      (fun _ _ _ _ h _ => ⟨trivial, h.2⟩) trivial).2
    exact .branches hentered.own_name
      (hentered.layered_of_kind hentered.own_name (by simp [hkind]))
      (hentered.branches_group hbelow)
  case primitive =>
    intro _ _ path id p e scope own q shape n r hentered hkind hattach
    obtain ⟨hname, hleaf⟩ := hentered.attached hkind hattach
    exact .single hname (hentered.layered_of_kind hname (by simp [hkind])) hleaf
  case light =>
    intro _ _ path id p e scope own q spec n r hentered hkind hattach
    obtain ⟨light, rfl⟩ := attachLight_eq hattach
    exact .single hentered.own_name
      (hentered.layered_of_kind hentered.own_name (by simp [hkind]))
      (.inl hentered.own_branches)
  case lod =>
    intro _ _ path id p e scope own q levels built r hentered hkind hsteps
    have hbelow := (hsteps.invariant (I := fun _ => True)
      (J := fun level l => Holds c.document (Layered c) (id :: path) level.target
        (l.map Level.node) ∧ ∃ n : Option (SceneNode K), l = n.map (Level.mk level.minDistance) ∧
          n.isSome = (leftOut? c (id :: path) level.target).isNone ∧
          ∀ m, n = some m → m.name = level.target) ?_ trivial).2
    · refine .branches hentered.own_name ?_ (hentered.branches_lod (hbelow.imp fun _ _ h => h.1))
      obtain ⟨pairs, hfst, hnames, hbuilt⟩ := exists_built (hbelow.imp fun _ _ h => h.2)
      intro e' records he' hlod
      rw [SceneNode.gatherShadows_name, hentered.own_name, hentered.found] at he'
      cases he'
      rw [hkind] at hlod
      cases hlod
      refine ⟨pairs, hfst, hnames, ?_⟩
      rw [SceneNode.gatherShadows_lod, ← hbuilt]
    · rintro level p' l q' ⟨scope', p'', n, -, ⟨hvisit, hholds⟩, rfl⟩ -
      have hnode : (n.map (Level.mk level.minDistance)).map Level.node = n := by
        cases n <;> rfl
      have hsome := isSome_visit (c := c) own.world scope' (id :: path) level.target p''
      rw [hvisit] at hsome
      refine ⟨trivial, hnode.symm ▸ hholds, n, rfl, hsome, fun m hm => (hholds m hm).1⟩

end Walk

section Scenes

variable {settings : Settings K} {d : Document K} {w w' : Workshop K} {scene : Scene K}

theorem layered_root (h : assemble settings d w = (.ok scene, w'))
    (hroot : leftOut? ⟨d, settings⟩ [] d.rootId = none) :
    Holds d (Layered ⟨d, settings⟩) [] d.rootId (some scene.root) := by
  obtain ⟨q, hvisit, -⟩ := visit_root h hroot
  have hholds := Walk.layered_visit ⟨d, settings⟩ ⟨w.arena.next, Affine.identity⟩ .nothing []
    d.rootId w.start
  rwa [hvisit] at hholds

theorem name_root (h : assemble settings d w = (.ok scene, w'))
    (hroot : leftOut? ⟨d, settings⟩ [] d.rootId = none) : scene.root.name = d.rootId :=
  (layered_root h hroot scene.root rfl).1

theorem layered_scene (h : assemble settings d w = (.ok scene, w')) {place : Place K}
    (hplace : scene.HasPlace ⟨d, settings⟩ place) : Layered ⟨d, settings⟩ place :=
  (layered_root h hplace.1 scene.root rfl).2 place hplace.2

/-- Levels at distances that are numbers end up in stable order. -/
theorem sorted_scene [Scalar.LawfulOrder K] (h : assemble settings d w = (.ok scene, w'))
    {place : Place K} (hplace : scene.HasPlace ⟨d, settings⟩ place) {e : Element K}
    {records : List (LevelSpec K)} (he : d.elements.find? place.node.name = some e)
    (hkind : e.kind = .lod records) (hnumbers : ∀ r ∈ records, Scalar.IsNumber r.minDistance) :
    ∃ built : List (LevelSpec K × SceneNode K),
      built.map Prod.fst =
        records.filter (fun r => (leftOut? ⟨d, settings⟩ place.chain r.target).isNone) ∧
      (∀ x ∈ built, x.2.name = x.1.target) ∧
      place.node.lod = some ⟨Lod.sorted (built.map fun x => ⟨x.1.minDistance, x.2⟩)⟩ := by
  obtain ⟨built, hfst, hnames, hlod⟩ := layered_scene h hplace e records he hkind
  refine ⟨built, hfst, hnames, ?_⟩
  rw [hlod, ← Lod.levels_ofLevels]
  intro l hl
  obtain ⟨x, hx, rfl⟩ := List.mem_map.mp hl
  have hrecord : x.1 ∈ built.map Prod.fst := List.mem_map_of_mem hx
  rw [hfst] at hrecord
  exact hnumbers x.1 (List.mem_of_mem_filter hrecord)

end Scenes

/-! ## 3. Single precision -/

/-- **Levels of detail are in stable order, and a distance finds the last level it reaches.**
After any additions at distances that are numbers, and any edits in between, the levels are the ones
added, as edited, in stable order of their distances.  Bisection then agrees with looking at all
levels, a greater distance never selects a nearer level, and what is not a number selects the first.
The levels of an assembled node are those of its element whose targets are not left out, in stable
order of their distances. -/
theorem Lod.levels_in_order :
    (∀ (α : Type) (changes : List (Change Float32 α)),
      (∀ minDistance node, Change.add minDistance node ∈ changes → minDistance.isNaN = false) →
      (run changes).levels = sorted (recorded changes) ∧
      (∀ q, (run changes).selectIndex? q = if (run changes).levels = [] then none
        else some ((lastReached? (run changes).levels q).getD 0)) ∧
      ∀ q q' i i', (run changes).selectIndex? q = some i → (run changes).selectIndex? q' = some i' →
        (q ≤ q' → i ≤ i') ∧ (q.isNaN = true → i = 0)) ∧
    ∀ (settings : Settings Float32) (d : Document Float32) (w w' : Workshop Float32)
        (scene : Scene Float32), assemble settings d w = (.ok scene, w') →
      ∀ place e records, scene.HasPlace ⟨d, settings⟩ place →
        d.elements.find? place.node.name = some e → e.kind = .lod records →
        (∀ r ∈ records, r.minDistance.isNaN = false) →
        ∃ built : List (LevelSpec Float32 × SceneNode Float32),
          built.map Prod.fst =
            records.filter (fun r => (leftOut? ⟨d, settings⟩ place.chain r.target).isNone) ∧
          (∀ x ∈ built, x.2.name = x.1.target) ∧
          place.node.lod = some ⟨sorted (built.map fun x => ⟨x.1.minDistance, x.2⟩)⟩ := by
  constructor
  · intro α changes hnumbers
    have hchanges : ∀ c ∈ changes, c.IsNumbered := by
      intro c hc
      cases c with
      | add minDistance node => exact Float32.isNumber_iff.mpr (hnumbers minDistance node hc)
      | edit change => trivial
    obtain ⟨hnumbered, hlevels⟩ := levels_run hchanges
    have hpairwise := pairwise_sorted hnumbered
    rw [← hlevels] at hpairwise
    refine ⟨hlevels, selectIndex?_eq_lastReached hpairwise, ?_⟩
    intro q q' i i' hi hi'
    constructor
    · intro hle
      exact selectIndex?_mono hpairwise hle hi hi'
    · intro hnan
      refine selectIndex?_of_not_isNumber hpairwise (fun hnumber => ?_) hi
      rw [Float32.isNumber_iff.mp hnumber] at hnan
      cases hnan
  · intro settings d w w' scene hscene place e records hplace he hkind hnumbers
    exact sorted_scene hscene hplace he hkind fun r hr => Float32.isNumber_iff.mpr (hnumbers r hr)

/-- Two levels at one distance, added last, and an edit of those before them. -/
def Lod.scattered : List (Change Float32 String) :=
  [.add 50 "low", .add 0 "high", .edit fun _ name => name ++ "!", .add 20 "mid", .add 20 "late"]

/-- Levels of detail out of order, one of which has no target. -/
def Document.tiered : Document Float32 :=
  (((Document.ofRoot "root").addElement
    (Element.ofKind "root" (.lod [⟨"far", 10⟩, ⟨"ghost", 5⟩, ⟨"near", 0⟩]))).addElement
    (Element.ofKind "near" (.primitive (.sphere .standard)))).addElement
    (Element.ofKind "far" (.primitive (.sphere .standard)))

/-- Twenty is reached by two levels, of which the later one is selected. -/
theorem Lod.levels_in_order_scattered :
    (∀ minDistance node, Change.add minDistance node ∈ scattered → minDistance.isNaN = false) ∧
    sorted (recorded scattered) = [⟨0, "high!"⟩, ⟨20, "mid"⟩, ⟨20, "late"⟩, ⟨50, "low!"⟩] ∧
    (run scattered).selectIndex? 30 = some 2 ∧
    (run scattered).selectIndex? (-5) = some 0 ∧
    Document.tiered.elements.contains Document.tiered.rootId ∧
    ∃ scene w' near far, assemble .standard Document.tiered
        ⟨.empty, .ofRecords .empty "." .placeholder, .empty⟩ = (.ok scene, w') ∧
      near.name = "near" ∧ far.name = "far" ∧
      scene.root.lod = some ⟨[⟨0, near⟩, ⟨10, far⟩]⟩ := by
  have hnumbers : ∀ minDistance node, Change.add minDistance node ∈ scattered →
      minDistance.isNaN = false := by
    intro minDistance node h
    simp only [scattered, List.mem_cons, Change.add.injEq, reduceCtorEq, List.not_mem_nil,
      false_or, or_false] at h
    rcases h with ⟨rfl, -⟩ | ⟨rfl, -⟩ | ⟨rfl, -⟩ | ⟨rfl, -⟩ <;> rfl
  obtain ⟨hsorted, hselect, -⟩ := levels_in_order.1 String scattered hnumbers
  have hroot : Document.tiered.elements.contains Document.tiered.rootId := rfl
  obtain ⟨scene, w', hscene⟩ := exists_scene .standard
    ⟨.empty, .ofRecords .empty "." .placeholder, .empty⟩ hroot
  have hplace : scene.HasPlace ⟨Document.tiered, .standard⟩ ⟨["root"], scene.root⟩ :=
    ⟨rfl, .refl⟩
  have hfound : Document.tiered.elements.find? scene.root.name =
      some (Element.ofKind "root" (.lod [⟨"far", 10⟩, ⟨"ghost", 5⟩, ⟨"near", 0⟩])) := by
    rw [name_root hscene rfl]
    rfl
  have hdistances : ∀ r ∈ [(⟨"far", 10⟩ : LevelSpec Float32), ⟨"ghost", 5⟩, ⟨"near", 0⟩],
      r.minDistance.isNaN = false := by
    intro r hr
    simp only [List.mem_cons, List.not_mem_nil, or_false] at hr
    rcases hr with rfl | rfl | rfl <;> rfl
  obtain ⟨built, hfst, hnames, hlod⟩ := levels_in_order.2 .standard Document.tiered _ w' scene
    hscene _ _ _ hplace hfound rfl hdistances
  have hkept : built.map Prod.fst = [⟨"far", 10⟩, ⟨"near", 0⟩] := hfst
  obtain ⟨⟨_, far⟩, rest, rfl, rfl, hrest⟩ := List.map_eq_cons_iff.mp hkept
  obtain ⟨⟨_, near⟩, rest, rfl, rfl, hnil⟩ := List.map_eq_cons_iff.mp hrest
  obtain rfl := List.map_eq_nil_iff.mp hnil
  have hten : (10 : Float32) ≤ 10 := by decide
  have hzero : (0 : Float32) ≤ 0 := by decide
  have hlt : (0 : Float32) < 10 := by decide
  have hswap : sorted [(⟨10, far⟩ : Level Float32 (SceneNode Float32)), ⟨0, near⟩] =
      [⟨0, near⟩, ⟨10, far⟩] := sorted_swap hten hzero hlt
  refine ⟨hnumbers, hsorted.symm.trans rfl, (hselect 30).trans rfl, (hselect (-5)).trans rfl, hroot,
    scene, w', near, far, hscene, hnames _ (List.mem_cons_of_mem _ List.mem_cons_self),
    hnames _ List.mem_cons_self, ?_⟩
  rw [← hswap]
  exact hlod

end SceneAssembly
