/-
  SceneAssembly/Proofs/Walk/Levels.lean
  =====================================
  **Which materials the levels of an element share.**

  A level is handed a duplicate of the material from above, so what is inherited
  is not shared between levels.  But what is kept is shared: two levels hold the
  same material exactly where both draw on the same description, or both on the
  fallback (`levels_share`).
-/
import SceneAssembly.Proofs.Walk.Instances
import SceneAssembly.Proofs.Walk.Sources
import SceneAssembly.Proofs.Walk.Surfaces

namespace SceneAssembly

open Relation (ReflTransGen)

variable {K : Type}

/-! ## 1. Levels that are apart -/

/-- A material is held somewhere below a level. -/
def HeldBelow (d : Document K) (chain : List String) (l : Level K (SceneNode K))
    (m : Shared (Material K)) : Prop :=
  ∃ place, ReflTransGen (Below d) ⟨l.node.name :: chain, l.node⟩ place ∧ m ∈ place.node.materials

/-- Two levels share no number but those of kept materials. -/
def Apart (d : Document K) (final : Progress K) (chain : List String)
    (l l' : Level K (SceneNode K)) : Prop :=
  ∀ m m', HeldBelow d chain l m → HeldBelow d chain l' m' → m.id = m'.id → final.Keeps m.id

theorem Apart.symm {d : Document K} {final : Progress K} {chain : List String}
    {l l' : Level K (SceneNode K)} (h : Apart d final chain l l') : Apart d final chain l' l := by
  intro m m' hm hm' heq
  rw [heq]
  exact h m' m hm' hm heq.symm

theorem pairwise_getElem? {α : Type} {R : α → α → Prop} {as : List α} {i j : Nat} {a b : α}
    (h : as.Pairwise R) (hsymm : ∀ {a b}, R a b → R b a) (hij : i ≠ j) (ha : as[i]? = some a)
    (hb : as[j]? = some b) : R a b := by
  obtain ⟨hi, rfl⟩ := List.getElem?_eq_some_iff.mp ha
  obtain ⟨hj, rfl⟩ := List.getElem?_eq_some_iff.mp hb
  rcases Nat.lt_or_gt_of_ne hij with hlt | hlt
  · exact List.pairwise_iff_getElem.mp h i j hi hj hlt
  · exact hsymm (List.pairwise_iff_getElem.mp h j i hj hi hlt)

variable [Scalar K]

/-- The materials at a place come from where they should, and the levels there are apart. -/
structure Furnished (d : Document K) (final : Progress K) (lo hi : Nat) (place : Place K) :
    Prop where
  surface : ∀ mesh, place.node.mesh = some mesh →
    final.Gives lo hi (d.source final.textures place.chain) mesh.material
  faces : ∀ mesh, place.node.mesh = some mesh → ∀ m ∈ mesh.groupMaterials, final.IsFresh lo hi m
  levels : place.node.levels.Pairwise (Apart d final place.chain)

namespace Furnished

variable {d : Document K} {final : Progress K} {lo hi lo' hi' mid : Nat} {place : Place K}

theorem mono (h : Furnished d final lo hi place) (hlo : lo' ≤ lo) (hhi : hi ≤ hi') :
    Furnished d final lo' hi' place where
  surface mesh hmesh := (h.surface mesh hmesh).mono hlo hhi
  faces mesh hmesh m hm := (h.faces mesh hmesh m hm).mono hlo hhi
  levels := h.levels

theorem empty (hmesh : place.node.mesh = none) (hlevels : place.node.levels = []) :
    Furnished d final lo hi place where
  surface mesh h := by rw [hmesh] at h; cases h
  faces mesh h := by rw [hmesh] at h; cases h
  levels := by rw [hlevels]; exact .nil

theorem material (h : Furnished d final lo hi place) {m : Shared (Material K)}
    (hm : m ∈ place.node.materials) : final.Keeps m.id ∨ final.IsFresh lo hi m := by
  obtain ⟨mesh, hmesh, hm⟩ := List.mem_flatMap.mp hm
  have hmesh := Option.mem_toList.mp hmesh
  rcases List.mem_cons.mp hm with rfl | hm
  · have hgives := h.surface mesh hmesh
    by_cases hs : d.source final.textures place.chain = .fresh
    · rw [hs] at hgives
      exact .inr hgives
    · exact .inl (hgives.keeps_iff.mpr hs)
  · exact .inr (h.faces mesh hmesh m hm)

/-- Levels with numbers from different intervals are apart. -/
theorem apart {chain : List String} {l l' : Level K (SceneNode K)} {id id' : String}
    (h : Holds d (Furnished d final lo mid) chain id (some l.node))
    (h' : Holds d (Furnished d final lo' hi') chain id' (some l'.node)) (hmid : mid ≤ lo') :
    Apart d final chain l l' := by
  rintro m m' ⟨place, hplace, hm⟩ ⟨place', hplace', hm'⟩ heq
  obtain ⟨rfl, hholds⟩ := h l.node rfl
  obtain ⟨rfl, hholds'⟩ := h' l'.node rfl
  rcases (hholds place hplace).material hm with hkept | hfresh
  · exact hkept
  · rcases (hholds' place' hplace').material hm' with hkept | hfresh'
    · rwa [heq]
    · have hhigh := hfresh.high
      have hlow := hfresh'.low
      omega

end Furnished

/-! ## 2. Visits -/

namespace Walk

omit [Scalar K] in
/-- Steps that end below a bound take their numbers from intervals that follow one another. -/
theorem Steps.spaced {α β : Type} {R : α → Progress K → β → Progress K → Prop}
    {B I : Progress K → Prop} {J : α → Nat → Nat → β → Prop} {as : List α} {bs : List β}
    {p q : Progress K} (hback : ∀ a p b q, R a p b q → B q → B p)
    (h : ∀ a p b q, R a p b q → B q → I p →
      I q ∧ p.arena.next ≤ q.arena.next ∧ J a p.arena.next q.arena.next b)
    (hs : Steps R as p bs q) (hq : B q) (hp : I p) :
    p.arena.next ≤ q.arena.next ∧
      List.Forall₂ (fun a b => ∃ lo hi, p.arena.next ≤ lo ∧ hi ≤ q.arena.next ∧ J a lo hi b) as bs ∧
      bs.Pairwise fun b b' => ∃ a a' lo mid lo' hi', mid ≤ lo' ∧ J a lo mid b ∧ J a' lo' hi' b' := by
  induction hs with
  | nil p => exact ⟨Nat.le_refl _, .nil, .nil⟩
  | @cons a as b bs p q r hstep hrest ih =>
    have hmid : B q := hrest.lift (G := fun p q => B q → B p) (fun _ h => h)
      (fun h h' hr => h (h' hr)) hback hq
    obtain ⟨hi, hle, hj⟩ := h _ _ _ _ hstep hmid hp
    obtain ⟨hle', hall, hpairs⟩ := ih hq hi
    refine ⟨Nat.le_trans hle hle', .cons ⟨_, _, Nat.le_refl _, hle', hj⟩ ?_, ?_⟩
    · exact hall.imp fun a b ⟨lo, hi, hlo, hhi, hj⟩ => ⟨lo, hi, Nat.le_trans hle hlo, hhi, hj⟩
    · refine List.pairwise_cons.mpr ⟨fun b' hb' => ?_, hpairs⟩
      obtain ⟨a', -, lo', hi', hlo', -, hj'⟩ := exists_of_mem_right hall hb'
      exact ⟨a, a', _, _, lo', hi', hlo', hj, hj'⟩

theorem attachMesh_furnished {c : Setting K} {final p q : Progress K} {lo : Nat}
    {scope : Inherited K} {chain : List String} {shape : ShapeSpec K} {n n' : SceneNode K}
    (h : attachMesh c scope shape n p = (n', q)) (hn : n.mesh = none) (hlevels : n.levels = [])
    (hq : q.Orders final) (hp : InOrder c final p) (hlo : lo ≤ p.arena.next)
    (hs : Supplies c.document final lo p.arena.next (c.document.held chain) chain scope) :
    Furnished c.document final lo q.arena.next ⟨chain, n'⟩ := by
  cases hbuild : shape.build c.settings with
  | error d =>
    obtain rfl := attachMesh_error hbuild h
    exact .empty hn hlevels
  | ok g =>
    obtain ⟨geometry, material, p', groups, rfl, hsurface, hgroups, rfl⟩ := attachMesh_ok hbuild h
    have hgeometry : p.Plain { p with arena := { p.arena with next := p.arena.next + 1 } } :=
      .arena (Nat.le_succ _)
    have hmade := orders_surfaceMaterial c scope
      { p with arena := { p.arena with next := p.arena.next + 1 } }
    rw [hsurface] at hmade
    have hfaces := plain_groupMaterials shape p'
    rw [hgroups] at hfaces
    have hp₁ := hp.orders hgeometry.orders (hp.sound.plain hgeometry)
    have hp' := hp₁.orders hmade (surfaceMaterial_sound hsurface hp₁.sound)
    have hnext₁ := hgeometry.numbers hp.numbers
    have hnext' := hmade.numbers hp₁.numbers
    have hgives := surfaceMaterial_gives hsurface (hfaces.orders.trans hq) hp₁
      (Nat.le_trans hlo hnext₁) (hs.mono hnext₁)
    have hfresh := groupMaterials_fresh hgroups hq hp'
    refine ⟨?_, ?_, ?_⟩
    · rintro _ ⟨⟩
      exact hgives.mono (Nat.le_refl _) (hfaces.numbers hp'.numbers)
    · rintro _ ⟨⟩ m hm
      exact (hfresh m hm).mono (Nat.le_trans hlo (Nat.le_trans hnext₁ hnext')) (Nat.le_refl _)
    · show n.levels.Pairwise _
      rw [hlevels]
      exact .nil

/-- **The places of a visit are furnished**, with numbers that the visit has taken or was handed. -/
theorem furnished_visit (c : Setting K) (final : Progress K) (parent : Shared (Affine K))
    (inherited : Inherited K) (path : List String) (id : String) (p : Progress K)
    (hfinal : (visit c parent inherited path id p).2.Orders final) (hp : InOrder c final p)
    (lo : Nat) (hlo : lo ≤ p.arena.next)
    (hs : Supplies c.document final lo p.arena.next (c.document.handedDown path) path inherited) :
    Holds c.document (Furnished c.document final lo (visit c parent inherited path id p).2.arena.next)
      path id (visit c parent inherited path id p).1 := by
  refine visit_induction (P := fun _ inherited path id p n q => q.Orders final →
      InOrder c final p → ∀ lo, lo ≤ p.arena.next →
      Supplies c.document final lo p.arena.next (c.document.handedDown path) path inherited →
      Holds c.document (Furnished c.document final lo q.arena.next) path id n)
    ?leftOut ?group ?primitive ?light ?lod parent inherited path id p hfinal hp lo hlo hs
  case leftOut =>
    intros
    exact .none
  case group =>
    intro _ inherited path id p e scope own q children built r hentered hkind hsteps hfinal hp lo
      hlo hs
    have hr : r.Orders final := hfinal.of_counting
    have hq : q.Orders final :=
      (hsteps.lift (G := Progress.Orders) .refl .trans fun _ _ _ _ h => orders_of_visit h.1).trans hr
    have hscope := hentered.supplies hq hp hs
    rw [← Document.handedDown_cons_group hentered.found hkind] at hscope
    have hloq : lo ≤ q.arena.next := Nat.le_trans hlo (hentered.works.numbers hp.numbers)
    obtain ⟨-, hbelow, -⟩ := hsteps.spaced (B := fun p => p.Orders final)
      (I := fun p => InOrder c final p ∧ q.arena.next ≤ p.arena.next)
      (J := fun id' _ hi n =>
        Holds c.document (Furnished c.document final lo hi) (id :: path) id' n)
      (fun _ _ _ _ h hq' => (orders_of_visit h.1).trans hq')
      (by
        rintro id' p' n q' ⟨hvisit, hholds⟩ hq' ⟨hp', hle⟩
        have hle' := (orders_of_visit hvisit).numbers hp'.numbers
        exact ⟨⟨hp'.visited hvisit hq', Nat.le_trans hle hle'⟩, hle',
          hholds hq' hp' lo (Nat.le_trans hloq hle) (hscope.mono hle)⟩)
      hr ⟨hentered.inOrder hq hp, Nat.le_refl _⟩
    have hbelow := hentered.branches_group (hbelow.imp fun id' n ⟨_, _, _, hhi, hholds⟩ =>
      hholds.mono fun _ h => h.mono (Nat.le_refl lo) hhi)
    exact .branches hentered.own_name (.empty hentered.own_mesh hentered.own_levels) hbelow
  case primitive =>
    intro _ inherited path id p e scope own q shape n r hentered hkind hattach hfinal hp lo hlo hs
    have hr : r.Orders final := hfinal.of_counting
    have hattached := orders_attachShape c scope shape own q
    rw [hattach] at hattached
    have hq := hattached.trans hr
    have hloq : lo ≤ q.arena.next := Nat.le_trans hlo (hentered.works.numbers hp.numbers)
    obtain ⟨hname, hleaf⟩ := hentered.attached hkind hattach
    by_cases hmodel : ∃ file, shape = .model file
    · obtain ⟨file, rfl⟩ := hmodel
      rcases attachModel_eq hattach with rfl | ⟨t, library, b, model, arena, -, -, rfl⟩
      · exact .single hname (.empty hentered.own_mesh hentered.own_levels) hleaf
      · exact .single hname (.empty hentered.own_mesh hentered.own_levels) hleaf
    · rw [attachShape_of_ne_model fun file h => hmodel ⟨file, h⟩] at hattach
      have hfurnished := attachMesh_furnished hattach hentered.own_mesh hentered.own_levels hr
        (hentered.inOrder hq hp) hloq (hentered.supplies hq hp hs)
      exact .single hname ⟨hfurnished.surface, hfurnished.faces, hfurnished.levels⟩ hleaf
  case light =>
    intro _ inherited path id p e scope own q spec n r hentered _ hattach _ _ lo _ _
    obtain ⟨light, rfl⟩ := attachLight_eq hattach
    exact .single hentered.own_name (.empty hentered.own_mesh hentered.own_levels)
      (.inl hentered.own_branches)
  case lod =>
    intro _ inherited path id p e scope own q levels built r hentered hkind hsteps hfinal hp lo
      hlo hs
    have hr : r.Orders final := hfinal.of_counting
    have horders : ∀ level p l q, LevelVisit (fun scope' id' p' n q' =>
        visit c own.world scope' (id :: path) id' p' = (n, q') ∧ (q'.Orders final →
          InOrder c final p' → ∀ lo, lo ≤ p'.arena.next →
          Supplies c.document final lo p'.arena.next (c.document.handedDown (id :: path))
            (id :: path) scope' →
          Holds c.document (Furnished c.document final lo q'.arena.next) (id :: path) id' n))
        scope level p l q → p.Orders q := by
      intro level p l q h
      obtain ⟨own', p', -, hplain, hvisit, -⟩ := h.parts
      exact hplain.orders.trans (orders_of_visit hvisit)
    have hq : q.Orders final := (hsteps.lift .refl .trans horders).trans hr
    have hscope := hentered.supplies hq hp hs
    have hloq : lo ≤ q.arena.next := Nat.le_trans hlo (hentered.works.numbers hp.numbers)
    obtain ⟨-, hbelow, hpairs⟩ := hsteps.spaced (B := fun p => p.Orders final)
      (I := fun p => InOrder c final p ∧ q.arena.next ≤ p.arena.next)
      (J := fun level lo hi l => Holds c.document (Furnished c.document final lo hi) (id :: path)
        level.target (l.map Level.node))
      (fun level p l q h hq' => (horders level p l q h).trans hq')
      (by
        rintro level p' l q' hlevel hq' ⟨hp', hle⟩
        obtain ⟨own', p'', hlevelScope, hplain, hvisit, hholds⟩ := hlevel.parts
        have hp'' := hp'.orders hplain.orders (hp'.sound.plain hplain)
        have hq'' := (orders_of_visit hvisit).trans hq'
        have hsupplied := levelScope_supplies hlevelScope hq'' hp' (hscope.mono hle)
        rw [← Document.handedDown_cons_lod hentered.found hkind] at hsupplied
        have hle' := hplain.numbers hp'.numbers
        have hle'' := (orders_of_visit hvisit).numbers hp''.numbers
        refine ⟨⟨hp''.visited hvisit hq', ?_⟩, Nat.le_trans hle' hle'',
          hholds hq' hp'' p'.arena.next hle' hsupplied⟩
        exact Nat.le_trans hle (Nat.le_trans hle' hle''))
      hr ⟨hentered.inOrder hq hp, Nat.le_refl _⟩
    have hbelow := hentered.branches_lod (hbelow.imp fun level l ⟨_, _, hlow, hhi, hholds⟩ =>
      hholds.mono fun _ h => h.mono (Nat.le_trans hloq hlow) hhi)
    have hown : Furnished c.document final lo r.arena.next ⟨id :: path, own⟩ :=
      .empty hentered.own_mesh hentered.own_levels
    refine .branches hentered.own_name ⟨hown.surface, hown.faces, ?_⟩ hbelow
    -- The levels are kept in the order of their distances, and built in that of the document.
    have hbuilt : built.reduceOption.Pairwise (Apart c.document final (id :: path)) := by
      refine List.pairwise_filterMap.mpr (hpairs.imp ?_)
      rintro _ _ ⟨level, level', lo, mid, lo', hi', hmid, h, h'⟩ l rfl l' rfl
      exact Furnished.apart h h' hmid
    exact ((Lod.levels_ofLevels_perm _).pairwise_iff Apart.symm).mpr hbuilt

end Walk

/-! ## 3. Assembled scenes -/

/-- A node of a document's own holds a material that comes from a source. -/
inductive Draws (d : Document K) (u : TextureRegistry K × Arena) (place : Place K) :
    Shared (Material K) → Source → Prop
  | surface {mesh : Mesh K} (hmesh : place.node.mesh = some mesh) :
    Draws d u place mesh.material (d.source u place.chain)
  | face {mesh : Mesh K} {m : Shared (Material K)} (hmesh : place.node.mesh = some mesh)
    (hm : m ∈ mesh.groupMaterials) : Draws d u place m .fresh

namespace Draws

variable {d : Document K} {final : Progress K} {u : TextureRegistry K × Arena} {place : Place K}
  {m : Shared (Material K)} {s : Source}

theorem mem_materials (h : Draws d u place m s) : m ∈ place.node.materials := by
  cases h with
  | surface hmesh =>
    exact List.mem_flatMap.mpr ⟨_, Option.mem_toList.mpr hmesh, List.mem_cons_self⟩
  | face hmesh hm =>
    exact List.mem_flatMap.mpr ⟨_, Option.mem_toList.mpr hmesh, List.mem_cons_of_mem _ hm⟩

/-- Every material that a place holds comes from some source. -/
theorem exists_of_mem (hm : m ∈ place.node.materials) : ∃ s, Draws d u place m s := by
  obtain ⟨mesh, hmesh, hm⟩ := List.mem_flatMap.mp hm
  have hmesh := Option.mem_toList.mp hmesh
  rcases List.mem_cons.mp hm with rfl | hm
  · exact ⟨_, .surface hmesh⟩
  · exact ⟨_, .face hmesh hm⟩

theorem gives (h : Draws d final.textures place m s) {lo hi : Nat}
    (hplace : Furnished d final lo hi place) : final.Gives lo hi s m := by
  cases h with
  | surface hmesh => exact hplace.surface _ hmesh
  | face hmesh hm => exact hplace.faces _ hmesh m hm

end Draws

omit [Scalar K] in
theorem SceneNode.addShadows_materials (n : SceneNode K) (cast receive : Bool) :
    (n.addShadows cast receive).materials = n.materials := by
  obtain ⟨name, placement, world, mesh, light, lod, children, c, r⟩ := n
  rcases mesh with _ | mesh <;> rcases lod with _ | ⟨levels⟩ <;> rw [addShadows] <;> rfl

theorem SceneNode.rebase_materials (n : SceneNode K) (parent : Shared (Affine K)) (a : Arena) :
    (n.rebase parent a).1.materials = n.materials := by
  obtain ⟨name, placement, world, mesh, light, lod, children, c, r⟩ := n
  rcases lod with _ | ⟨levels⟩ <;> rw [rebase] <;> rfl

section Scenes

variable {settings : Settings K} {d : Document K} {w w' : Workshop K} {scene : Scene K}

omit [Scalar K] in
theorem orderly_start (w : Workshop K) : w.start.Orderly where
  given k hk := by
    rcases hk with ⟨_, _, hm, -⟩ | ⟨_, hm, -⟩
    · cases hm
    · cases hm
  materials hm := by cases hm
  fallback hm := by cases hm

theorem furnished_scene (h : assemble settings d w = (.ok scene, w'))
    (hnumbers : w.library.KeepsNumbers) (hleft : leftOut? ⟨d, settings⟩ [] d.rootId = none) :
    ∃ final : Progress K, final.Orderly ∧ final.textures = (w'.registry, w'.arena) ∧
      ∃ lo hi, ∀ place, scene.HasPlace ⟨d, settings⟩ place → Furnished d final lo hi place := by
  obtain ⟨q, hvisit, -, hregistry, harena⟩ := visit_root h hleft
  have hstart : Walk.InOrder ⟨d, settings⟩ q w.start :=
    ⟨hnumbers, orderly_start w, sound_start ⟨d, settings⟩ q w⟩
  have hfurnished := Walk.furnished_visit ⟨d, settings⟩ q ⟨w.arena.next, Affine.identity⟩ .nothing
    [] d.rootId w.start
  rw [hvisit] at hfurnished
  refine ⟨q, (Walk.orders_of_visit hvisit).orderly hnumbers (orderly_start w), ?_,
    w.start.arena.next, q.arena.next, fun place hplace => ?_⟩
  · rw [hregistry, harena]
    rfl
  · exact (hfurnished (.refl q) hstart _ (Nat.le_refl _) ⟨rfl, rfl⟩ scene.root rfl).2 place hplace.2

/-- A level is a place below that of its element. -/
theorem Below.level {chain : List String} {n : SceneNode K} {l : Level K (SceneNode K)}
    (h : assemble settings d w = (.ok scene, w')) (hplace : scene.HasPlace ⟨d, settings⟩ ⟨chain, n⟩)
    (hl : l ∈ n.levels) : Below d ⟨chain, n⟩ ⟨l.node.name :: chain, l.node⟩ := by
  refine .intro (fun hmodel => ?_) (List.mem_append_right _ (List.mem_map_of_mem hl))
  have hlevels := ((built_scene h hplace).model hmodel).1
  have hlevels : n.levels = [] := hlevels
  rw [hlevels] at hl
  cases hl

/-- **Two levels share what is kept, and nothing else.** -/
theorem levels_scene (h : assemble settings d w = (.ok scene, w'))
    (hnumbers : w.library.KeepsNumbers) {chain : List String} {n : SceneNode K} {i j : Nat}
    {l l' : Level K (SceneNode K)} (hplace : scene.HasPlace ⟨d, settings⟩ ⟨chain, n⟩) (hij : i ≠ j)
    (hl : n.levels[i]? = some l) (hl' : n.levels[j]? = some l') {x x' : Place K}
    (hx : ReflTransGen (Below d) ⟨l.node.name :: chain, l.node⟩ x)
    (hx' : ReflTransGen (Below d) ⟨l'.node.name :: chain, l'.node⟩ x') {m m' : Shared (Material K)}
    {s s' : Source} (hm : Draws d (w'.registry, w'.arena) x m s)
    (hm' : Draws d (w'.registry, w'.arena) x' m' s') :
    m.id = m'.id ↔ s = s' ∧ s ≠ .fresh := by
  obtain ⟨final, hordered, htextures, lo, hi, hfurnished⟩ := furnished_scene h hnumbers hplace.1
  rw [← htextures] at hm hm'
  have hbelow := Below.level h hplace (List.mem_of_getElem? hl)
  have hbelow' := Below.level h hplace (List.mem_of_getElem? hl')
  have hgives := hm.gives (hfurnished x ⟨hplace.1, (hplace.2.tail hbelow).trans hx⟩)
  have hgives' := hm'.gives (hfurnished x' ⟨hplace.1, (hplace.2.tail hbelow').trans hx'⟩)
  have hapart : Apart d final chain l l' :=
    pairwise_getElem? (hfurnished _ hplace).levels Apart.symm hij hl hl'
  constructor
  · intro heq
    have hkept := hapart m m' ⟨x, hx, hm.mem_materials⟩ ⟨x', hx', hm'.mem_materials⟩ heq
    have hs : s ≠ .fresh := hgives.keeps_iff.mp hkept
    have hs' : s' ≠ .fresh := hgives'.keeps_iff.mp (heq ▸ hkept)
    exact ⟨(hgives.id_eq_iff hordered hgives' hs hs').mp heq, hs⟩
  · rintro ⟨rfl, hs⟩
    exact (hgives.id_eq_iff hordered hgives' hs hs).mpr rfl

/-- A node in a level stands at a place, or has the materials of a node of a model on offer. -/
theorem level_materials (h : assemble settings d w = (.ok scene, w')) {place : Place K}
    (hplace : scene.HasPlace ⟨d, settings⟩ place) {y : SceneNode K}
    (hy : y ∈ place.node.preorder) :
    (∃ x, ReflTransGen (Below d) place x ∧ x.node = y) ∨
      ∃ root, w.library.Offers root ∧ ∃ z ∈ root.preorder, y.materials = z.materials := by
  rcases place_or_instance h hplace hy with
    hplace | ⟨place', root, m, address, -, hroot, hinstance, hm, hat⟩
  · exact .inl hplace
  · obtain ⟨z, hz, hsame⟩ := hinstance.same SceneNode.rebase_materials
      SceneNode.addShadows_materials hm hat
    exact .inr ⟨root, hroot, z, SceneNode.mem_preorder_of_at? hz, hsame⟩

end Scenes

/-- **Which materials two levels of an element share.**  A material that is held below both is that
    of one description, or the fallback, that both draw on; one that comes from above or is made for
    a surface is held below one level only.  Each node below a level draws its materials from such
    sources, or is one of a model, with the materials that it has there. -/
theorem levels_share (settings : Settings K) (d : Document K) (w : Workshop K)
    (hroot : d.elements.contains d.rootId) (hnumbers : w.library.KeepsNumbers) :
    ∃ scene w', assemble settings d w = (.ok scene, w') ∧
      ∀ (chain : List String) (n : SceneNode K) (i j : Nat) (l l' : Level K (SceneNode K)),
        scene.HasPlace ⟨d, settings⟩ ⟨chain, n⟩ → i ≠ j →
        n.levels[i]? = some l → n.levels[j]? = some l' →
        (∀ x x' m m' s s', ReflTransGen (Below d) ⟨l.node.name :: chain, l.node⟩ x →
          ReflTransGen (Below d) ⟨l'.node.name :: chain, l'.node⟩ x' →
          Draws d (w'.registry, w'.arena) x m s → Draws d (w'.registry, w'.arena) x' m' s' →
          (m.id = m'.id ↔ s = s' ∧ s ≠ .fresh)) ∧
        ∀ y ∈ l.node.preorder,
          (∃ x, ReflTransGen (Below d) ⟨l.node.name :: chain, l.node⟩ x ∧ x.node = y ∧
            ∀ m ∈ y.materials, ∃ s, Draws d (w'.registry, w'.arena) x m s) ∨
          ∃ root, w.library.Offers root ∧ ∃ z ∈ root.preorder, y.materials = z.materials := by
  obtain ⟨scene, w', hscene⟩ := exists_scene settings w hroot
  refine ⟨scene, w', hscene, fun chain n i j l l' hplace hij hl hl' => ⟨?_, fun y hy => ?_⟩⟩
  · intro x x' m m' s s' hx hx' hm hm'
    exact levels_scene hscene hnumbers hplace hij hl hl' hx hx' hm hm'
  · have hbelow := Below.level hscene hplace (List.mem_of_getElem? hl)
    rcases level_materials hscene ⟨hplace.1, hplace.2.tail hbelow⟩ hy with
      ⟨x, hx, rfl⟩ | hmodel
    · exact .inl ⟨x, hx, rfl, fun m hm => Draws.exists_of_mem hm⟩
    · exact .inr hmodel

/-- Two spheres as levels of detail, with a material above them or one that both refer to. -/
def Document.paired (above below : Option String) : Document Float32 :=
  ((((Document.ofRoot "root").addElement
    { Element.ofKind "root" (.lod [⟨"near", 0⟩, ⟨"far", 10⟩]) with material := above }).addElement
    { Element.ofKind "near" (.primitive (.sphere .standard)) with material := below }).addElement
    { Element.ofKind "far" (.primitive (.sphere .standard)) with material := below }).addMaterial
    "red" .standard

theorem levels_paired (above below : Option String) {w w' : Workshop Float32}
    {scene : Scene Float32}
    (h : assemble .standard (Document.paired above below) w = (.ok scene, w')) :
    scene.HasPlace ⟨Document.paired above below, .standard⟩ ⟨["root"], scene.root⟩ ∧
      ∃ (i j : Nat) (near far : Level Float32 (SceneNode Float32)) (mesh mesh' : Mesh Float32),
        i ≠ j ∧ scene.root.levels[i]? = some near ∧ scene.root.levels[j]? = some far ∧
        near.node.name = "near" ∧ far.node.name = "far" ∧ near.node.mesh = some mesh ∧
        far.node.mesh = some mesh' := by
  have hplace : scene.HasPlace ⟨Document.paired above below, .standard⟩ ⟨["root"], scene.root⟩ :=
    ⟨rfl, .refl⟩
  -- The tree is known from the unfolding: a root with two levels.
  have hnear : unfold ⟨Document.paired above below, .standard⟩ ["root"] "near" = .leaf "near" :=
    unfold_kind (e := { Element.ofKind "near" (.primitive (.sphere .standard)) with
      material := below }) rfl rfl
  have hfar : unfold ⟨Document.paired above below, .standard⟩ ["root"] "far" = .leaf "far" :=
    unfold_kind (e := { Element.ofKind "far" (.primitive (.sphere .standard)) with
      material := below }) rfl rfl
  have hunfold : unfold ⟨Document.paired above below, .standard⟩ []
      (Document.paired above below).rootId =
        .lod "root" [⟨0, .leaf "near"⟩, ⟨10, .leaf "far"⟩] := by
    rw [← hnear, ← hfar]
    exact unfold_kind (e := { Element.ofKind "root" (.lod [⟨"near", 0⟩, ⟨"far", 10⟩]) with
      material := above }) rfl rfl
  have hrealizes := realizes_root h rfl
  rw [hunfold] at hrealizes
  obtain ⟨near, far, hnear, hfar, hmem, hmem'⟩ : ∃ near far : Level Float32 (SceneNode Float32),
      near.node.name = "near" ∧ far.node.name = "far" ∧ near ∈ scene.root.levels ∧
        far ∈ scene.root.levels := by
    cases hrealizes with
    | lod hname hlod hbelow hlevels hchildren =>
      cases hbelow with
      | cons hfirst hrest =>
        cases hrest with
        | cons hsecond hrest =>
          cases hrest
          cases hfirst with
          | leaf hnear _ _ =>
            cases hsecond with
            | leaf hfar _ _ =>
              rw [SceneNode.levels, hlod]
              exact ⟨_, _, hnear, hfar, hlevels.mem_iff.mpr List.mem_cons_self,
                hlevels.mem_iff.mpr (List.mem_cons_of_mem _ List.mem_cons_self)⟩
  -- Both spheres have a geometry, and so a mesh.
  obtain ⟨fallback, -, hdressed⟩ := dressed_scene h
  obtain ⟨mesh, hmesh, -⟩ := hdressed _ ⟨hplace.1, hplace.2.tail (Below.level h hplace hmem)⟩
    { Element.ofKind "near" (.primitive (.sphere .standard)) with material := below }
    (.sphere .standard) _ (by rw [hnear]; rfl) rfl (by simp) rfl
  obtain ⟨mesh', hmesh', -⟩ := hdressed _ ⟨hplace.1, hplace.2.tail (Below.level h hplace hmem')⟩
    { Element.ofKind "far" (.primitive (.sphere .standard)) with material := below }
    (.sphere .standard) _ (by rw [hfar]; rfl) rfl (by simp) rfl
  obtain ⟨i, hi⟩ := List.mem_iff_getElem?.mp hmem
  obtain ⟨j, hj⟩ := List.mem_iff_getElem?.mp hmem'
  refine ⟨hplace, i, j, near, far, mesh, mesh', ?_, hi, hj, hnear, hfar, hmesh, hmesh'⟩
  rintro rfl
  rw [hi] at hj
  rw [Option.some.inj hj, hfar] at hnear
  exact absurd hnear (by decide)

/-- A material from above is not shared. -/
theorem levels_share_paired :
    (Document.paired (some "red") none).elements.contains
      (Document.paired (some "red") none).rootId ∧
    (ModelLibrary.empty : ModelLibrary Float32).KeepsNumbers ∧
    ∃ (scene : Scene Float32) (w' : Workshop Float32) (i j : Nat)
        (near far : Level Float32 (SceneNode Float32)) (mesh mesh' : Mesh Float32),
      assemble .standard (Document.paired (some "red") none)
        ⟨.empty, .ofRecords .empty "." .placeholder, .empty⟩ = (.ok scene, w') ∧ i ≠ j ∧
      scene.root.levels[i]? = some near ∧ scene.root.levels[j]? = some far ∧
      near.node.mesh = some mesh ∧ far.node.mesh = some mesh' ∧
      mesh.material.id ≠ mesh'.material.id := by
  have hroot : (Document.paired (some "red") none).elements.contains
      (Document.paired (some "red") none).rootId := rfl
  have hnumbers : (ModelLibrary.empty : ModelLibrary Float32).KeepsNumbers := by
    intro load hload
    cases hload
  obtain ⟨scene, w', hscene, hshare⟩ := levels_share .standard (Document.paired (some "red") none)
    ⟨.empty, .ofRecords .empty "." .placeholder, .empty⟩ hroot hnumbers
  obtain ⟨hplace, i, j, near, far, mesh, mesh', hij, hi, hj, hnear, hfar, hmesh, hmesh'⟩ :=
    levels_paired (some "red") none hscene
  refine ⟨hroot, hnumbers, scene, w', i, j, near, far, mesh, mesh', hscene, hij, hi, hj, hmesh,
    hmesh', fun heq => ?_⟩
  have hiff := (hshare _ _ i j near far hplace hij hi hj).1 _ _ _ _ _ _ .refl .refl
    (.surface hmesh) (.surface hmesh')
  obtain ⟨-, hfresh⟩ := hiff.mp heq
  refine hfresh ?_
  rw [hnear]
  rfl

/-- A material that two levels refer to is one material. -/
theorem levels_not_apart :
    ∃ (scene : Scene Float32) (w' : Workshop Float32) (i j : Nat)
        (near far : Level Float32 (SceneNode Float32)) (mesh mesh' : Mesh Float32),
      assemble .standard (Document.paired none (some "red"))
        ⟨.empty, .ofRecords .empty "." .placeholder, .empty⟩ = (.ok scene, w') ∧ i ≠ j ∧
      scene.root.levels[i]? = some near ∧ scene.root.levels[j]? = some far ∧
      near.node.mesh = some mesh ∧ far.node.mesh = some mesh' ∧
      mesh.material.id = mesh'.material.id := by
  have hnumbers : (ModelLibrary.empty : ModelLibrary Float32).KeepsNumbers := by
    intro load hload
    cases hload
  obtain ⟨scene, w', hscene⟩ := exists_scene .standard
    ⟨.empty, .ofRecords .empty "." .placeholder, .empty⟩
    (d := Document.paired none (some "red")) rfl
  obtain ⟨hplace, i, j, near, far, mesh, mesh', hij, hi, hj, hnear, hfar, hmesh, hmesh'⟩ :=
    levels_paired none (some "red") hscene
  refine ⟨scene, w', i, j, near, far, mesh, mesh', hscene, hij, hi, hj, hmesh, hmesh', ?_⟩
  refine (levels_scene hscene hnumbers hplace hij hi hj .refl .refl (.surface hmesh)
    (.surface hmesh')).mpr ?_
  rw [hnear, hfar]
  exact ⟨rfl, Source.noConfusion⟩

end SceneAssembly
