/-
  SceneAssembly/Proofs/Walk/Sharing.lean
  ======================================
  **Surfaces share a material exactly if its origin is the same.**

  The tree of a visit is told apart by origins: whatever is held in it comes from
  where its origin says, and any two materials in it are one object exactly if
  their origins are equal (`Told`).  For a mesh this is seen from how its
  materials are made (`attachMesh_told`), for a node with branches it follows from
  the branches, which never make the same (`Branch.separate`).  At the root
  nothing is handed down, so in a scene every material is made for one origin or
  kept for it (`materials_told`).
-/
import SceneAssembly.Proofs.Walk.Origins

namespace SceneAssembly

open Relation (ReflTransGen)

variable {K : Type}

/-! ## 1. Trees -/

section Trees

variable [Scalar K] {d : Document K} {final : Progress K} {lo hi lo' hi' : Nat}
  {S S' : Origin → Prop} {given given' : Origin} {material material' : Option (Shared (Material K))}
  {address : List Nat} {chain : List String} {n : SceneNode K}

/-- The materials at a spot and below it come from where their origins say, and any two of them are
    one object exactly if their origins are equal. -/
structure Told (d : Document K) (final : Progress K) (lo hi : Nat) (S : Origin → Prop)
    (given : Origin) (material : Option (Shared (Material K))) (spot : Spot K) : Prop where
  comes : ∀ s, ReflTransGen (Under d) spot s → ∀ o m, Bears d final.textures s o m →
    Comes final lo hi S given material o m
  agree : ∀ s s', ReflTransGen (Under d) spot s → ReflTransGen (Under d) spot s' →
    ∀ o m o' m', Bears d final.textures s o m → Bears d final.textures s' o' m' → Agree o m o' m'

theorem Told.imp {spot : Spot K} (h : Told d final lo hi S given material spot)
    (hcomes : ∀ o m, Comes final lo hi S given material o m →
      Comes final lo' hi' S' given' material' o m) :
    Told d final lo' hi' S' given' material' spot :=
  ⟨fun s hs o m hm => hcomes o m (h.comes s hs o m hm), h.agree⟩

/-- No spot is below a leaf. -/
theorem Told.leaf (hleaf : n.branches = [] ∨ IsModel d n.name)
    (hcomes : ∀ o m, Bears d final.textures ⟨address, chain, n⟩ o m →
      Comes final lo hi S given material o m)
    (hagree : ∀ o m o' m', Bears d final.textures ⟨address, chain, n⟩ o m →
      Bears d final.textures ⟨address, chain, n⟩ o' m' → Agree o m o' m') :
    Told d final lo hi S given material ⟨address, chain, n⟩ := by
  have hself : ∀ s, ReflTransGen (Under d) ⟨address, chain, n⟩ s → s = ⟨address, chain, n⟩ := by
    intro s hs
    rcases hs.cases_head with heq | ⟨t, hunder, -⟩
    · exact heq.symm
    · cases hunder with
      | intro hmodel hm =>
        rcases hleaf with hnone | hleaf
        · simp [hnone] at hm
        · exact absurd hleaf hmodel
  constructor
  · intro s hs
    rw [hself s hs]
    exact hcomes
  · intro s s' hs hs'
    rw [hself s hs, hself s' hs']
    exact hagree

theorem not_bears {spot : Spot K} {u : TextureRegistry K × Arena} (h : spot.node.mesh = none)
    (o : Origin) (m : Shared (Material K)) : ¬ Bears d u spot o m := by
  intro hbears
  cases hbears with
  | surface hmesh => rw [h] at hmesh; cases hmesh
  | face hmesh => rw [h] at hmesh; cases hmesh

/-- A leaf without a mesh has no materials. -/
theorem Told.bare (hmesh : n.mesh = none) (hleaf : n.branches = [] ∨ IsModel d n.name) :
    Told d final lo hi S given material ⟨address, chain, n⟩ := by
  have hnone : ∀ o m, ¬ Bears d final.textures ⟨address, chain, n⟩ o m := not_bears hmesh
  exact .leaf hleaf (fun o m hm => absurd hm (hnone o m)) fun o m _ _ hm => absurd hm (hnone o m)

/-- A leaf with a mesh has the material of its surface and those of its groups. -/
theorem Told.mesh {mesh : Mesh K} (hmesh : n.mesh = some mesh)
    (hleaf : n.branches = [] ∨ IsModel d n.name)
    (hsurface : Comes final lo hi S given material (d.originAt final.textures chain address)
      mesh.material)
    (hface : ∀ k m, mesh.groupMaterials[k]? = some m →
      Comes final lo hi S given material (.face address k) m ∧
        Agree (d.originAt final.textures chain address) mesh.material (.face address k) m)
    (hpairs : mesh.groupMaterials.Pairwise fun m m' => m.id ≠ m'.id) :
    Told d final lo hi S given material ⟨address, chain, n⟩ := by
  have hbears : ∀ o m, Bears d final.textures ⟨address, chain, n⟩ o m →
      (o = d.originAt final.textures chain address ∧ m = mesh.material) ∨
        ∃ k, o = .face address k ∧ mesh.groupMaterials[k]? = some m := by
    intro o m hm
    cases hm with
    | surface hmesh' =>
      obtain rfl := Option.some.inj (hmesh.symm.trans hmesh')
      exact .inl ⟨rfl, rfl⟩
    | face hmesh' hm =>
      obtain rfl := Option.some.inj (hmesh.symm.trans hmesh')
      exact .inr ⟨_, rfl, hm⟩
  refine .leaf hleaf (fun o m hm => ?_) fun o m o' m' hm hm' => ?_
  · rcases hbears o m hm with ⟨rfl, rfl⟩ | ⟨k, rfl, hk⟩
    · exact hsurface
    · exact (hface k m hk).1
  · rcases hbears o m hm with ⟨rfl, rfl⟩ | ⟨k, rfl, hk⟩
    · rcases hbears o' m' hm' with ⟨rfl, rfl⟩ | ⟨k', rfl, hk'⟩
      · exact .refl _ _
      · exact (hface k' m' hk').2
    · rcases hbears o' m' hm' with ⟨rfl, rfl⟩ | ⟨k', rfl, hk'⟩
      · exact (hface k m hk).2.symm
      · by_cases heq : k = k'
        · subst heq
          obtain rfl := Option.some.inj (hk.symm.trans hk')
          exact .refl _ _
        · have hne := pairwise_getElem? hpairs (fun h => h.symm) heq hk hk'
          exact .of_ne hne fun h => heq (Origin.face.inj h).2

/-- The materials below two siblings are one object exactly if their origins are equal. -/
def Separate (d : Document K) (u : TextureRegistry K × Arena) (address : List Nat)
    (chain : List String) (n n' : SceneNode K) : Prop :=
  ∀ i j, i ≠ j → ∀ s s', ReflTransGen (Under d) ⟨i :: address, n.name :: chain, n⟩ s →
    ReflTransGen (Under d) ⟨j :: address, n'.name :: chain, n'⟩ s' →
    ∀ o m o' m', Bears d u s o m → Bears d u s' o' m' → Agree o m o' m'

theorem Separate.symm {u : TextureRegistry K × Arena} {n' : SceneNode K}
    (h : Separate d u address chain n n') : Separate d u address chain n' n :=
  fun i j hij s s' hs hs' o m o' m' hm hm' =>
    (h j i hij.symm s' s hs' hs o' m' o m hm' hm).symm

/-- A node without a mesh has the materials of its branches. -/
theorem Told.branches (hmesh : n.mesh = none)
    (hbelow : ∀ m ∈ n.branches, ∀ i,
      Told d final lo hi S given material ⟨i :: address, m.name :: chain, m⟩)
    (hapart : n.branches.Pairwise (Separate d final.textures address chain)) :
    Told d final lo hi S given material ⟨address, chain, n⟩ := by
  have hspots : ∀ s, ReflTransGen (Under d) ⟨address, chain, n⟩ s →
      s = ⟨address, chain, n⟩ ∨ ∃ i m, n.branches[i]? = some m ∧
        ReflTransGen (Under d) ⟨i :: address, m.name :: chain, m⟩ s := by
    intro s hs
    rcases hs.cases_head with heq | ⟨t, hunder, hrest⟩
    · exact .inl heq.symm
    · cases hunder with
      | intro _ hm => exact .inr ⟨_, _, hm, hrest⟩
  constructor
  · intro s hs o m hbears
    rcases hspots s hs with rfl | ⟨i, n', hn', hs⟩
    · exact absurd hbears (not_bears hmesh o m)
    · exact (hbelow n' (List.mem_of_getElem? hn') i).comes s hs o m hbears
  · intro s s' hs hs' o m o' m' hbears hbears'
    rcases hspots s hs with rfl | ⟨i, n₁, hn₁, hs⟩
    · exact absurd hbears (not_bears hmesh o m)
    rcases hspots s' hs' with rfl | ⟨j, n₂, hn₂, hs'⟩
    · exact absurd hbears' (not_bears hmesh o' m')
    by_cases hij : i = j
    · subst hij
      rw [hn₁] at hn₂
      cases hn₂
      exact (hbelow n₁ (List.mem_of_getElem? hn₁) i).agree s s' hs hs' o m o' m' hbears hbears'
    · exact pairwise_getElem? hapart Separate.symm hij hn₁ hn₂ i j hij s s' hs hs' o m o' m' hbears
        hbears'

/-- What is handed down is of a record, the fallback, or was made for a level that was entered. -/
structure GivenAt (final : Progress K) (lo : Nat) (address : List Nat) (given : Origin)
    (material : Option (Shared (Material K))) : Prop where
  above : given.source ≠ .fresh ∨ ∃ a, given = .level a ∧ a <:+ address
  older : ∀ a m, given = .level a → material = some m → ¬ final.Keeps m.id ∧ m.id < lo

omit [Scalar K] in
theorem GivenAt.handedFirst (h : GivenAt final lo address given material) (hle : lo ≤ lo')
    (hS : ∀ o, S o → o.IsAt address ∧ o ≠ .level address) :
    HandedFirst final lo' S given material where
  elsewhere o ho := by
    obtain ⟨hat, hne⟩ := hS o ho
    have hsource : o.source = .fresh := by cases o <;> first | rfl | exact hat.elim
    refine ⟨hsource, ?_⟩
    rintro rfl
    rcases h.above with habove | ⟨a, rfl, ha⟩
    · exact habove hsource
    · have hat : address <:+ a := hat
      exact hne (by rw [hat.eq_of_length (Nat.le_antisymm hat.length_le ha.length_le)])
  older a m ha hm := by
    obtain ⟨hkept, hlow⟩ := h.older a m ha hm
    exact ⟨hkept, Nat.lt_of_lt_of_le hlow hle⟩

omit [Scalar K] in
theorem GivenAt.of_hands (h : final.Hands lo hi given.source material)
    (habove : given.source ≠ .fresh ∨ ∃ a, given = .level a ∧ a <:+ address) :
    GivenAt final hi address given material where
  above := habove
  older a m ha hm := by
    rw [ha] at h
    obtain ⟨m', hm', hfresh⟩ := h
    rw [hm] at hm'
    cases hm'
    exact ⟨hfresh.notKept, hfresh.high⟩

omit [Scalar K] in
theorem GivenAt.held (h : final.Hands lo hi (d.held chain) material) :
    GivenAt final hi address (d.heldAt chain address) material := by
  rw [← Document.source_heldAt chain address] at h
  refine .of_hands h ?_
  rcases d.heldAt_cases chain address with hheld | ⟨key, hheld⟩ | hlevel
  · exact .inl (by rw [hheld]; exact Source.noConfusion)
  · exact .inl (by rw [hheld]; exact Source.noConfusion)
  · exact .inr hlevel

/-- A branch of a node at an address, wherever it stands among the branches. -/
structure Branch (d : Document K) (final : Progress K) (base lo hi : Nat) (given : Origin)
    (material : Option (Shared (Material K))) (address : List Nat) (chain : List String)
    (id : String) (n : SceneNode K) : Prop where
  name : n.name = id
  base : base ≤ lo
  told : ∀ i, Told d final lo hi (Origin.IsAt (i :: address)) given material
    ⟨i :: address, id :: chain, n⟩

/-- Branches with numbers from different intervals are separate. -/
theorem Branch.separate {base mid : Nat} {id id' : String} {n' : SceneNode K}
    (h : Branch d final base lo mid given material address chain id n)
    (h' : Branch d final base lo' hi' given material address chain id' n') (hmid : mid ≤ lo')
    (hordered : final.Orderly) (hgiven : GivenAt final base address given material) :
    Separate d final.textures address chain n n' := by
  obtain ⟨rfl, hbase, htold⟩ := h
  obtain ⟨rfl, hbase', htold'⟩ := h'
  intro i j hij s s' hs hs' o m o' m' hm hm'
  refine ((htold i).comes s hs o m hm).agree hordered ((htold' j).comes s' hs' o' m' hm')
    (hgiven.handedFirst hbase fun _ ho => ho.up) (hgiven.handedFirst hbase' fun _ ho => ho.up) ?_
  intro ho ho' hfresh hfresh'
  have hhigh := hfresh.high
  have hlow := hfresh'.low
  exact Agree.of_ne (by omega) (ho.apart ho' hij)

/-- The branches of a node, out of visits one after the other. -/
theorem Told.of_branches {base : Nat} {ids : List String} {built : List (Option (SceneNode K))}
    (hmesh : n.mesh = none) (hordered : final.Orderly)
    (hgiven : GivenAt final base address given material)
    (hbelow : List.Forall₂ (fun id b => ∃ lo' hi', lo ≤ lo' ∧ hi' ≤ hi ∧ ∀ m, b = some m →
      Branch d final base lo' hi' given material address chain id m) ids built)
    (hpairs : built.Pairwise fun b b' => ∃ id id' lo mid lo' hi', mid ≤ lo' ∧
      (∀ m, b = some m → Branch d final base lo mid given material address chain id m) ∧
      ∀ m, b' = some m → Branch d final base lo' hi' given material address chain id' m)
    (hbranches : n.branches.Perm built.reduceOption) :
    Told d final lo hi (fun o => o.IsAt address ∧ o ≠ .level address) given material
      ⟨address, chain, n⟩ := by
  refine .branches hmesh (fun m hm i => ?_) ?_
  · obtain ⟨id, -, lo', hi', hlo, hhi, hbranch⟩ :=
      exists_of_mem_reduceOption hbelow (hbranches.mem_iff.mp hm)
    obtain ⟨rfl, -, htold⟩ := hbranch m rfl
    exact (htold i).imp fun o m hm => hm.mono hlo hhi fun o ho => ho.up
  · refine (hbranches.pairwise_iff Separate.symm).mpr (List.pairwise_filterMap.mpr (hpairs.imp ?_))
    rintro _ _ ⟨id, id', lo, mid, lo', hi', hmid, h, h'⟩ m rfl m' rfl
    exact (h m rfl).separate (h' m' rfl) hmid hordered hgiven

end Trees

/-! ## 2. Meshes -/

namespace Walk

variable [Scalar K] {c : Setting K} {final p q : Progress K} {scope : Inherited K}
  {chain : List String} {address : List Nat} {m : Shared (Material K)} {lo : Nat}

theorem surfaceMaterial_comes (address : List Nat) (h : surfaceMaterial c scope p = (m, q))
    (hq : q.Orders final) (hp : InOrder c final p)
    (hs : Supplies c.document final lo p.arena.next (c.document.held chain) chain scope) :
    Comes final p.arena.next q.arena.next (· = .surface address) (c.document.heldAt chain address)
      scope.material (c.document.originAt final.textures chain address) m := by
  have hsource := Document.source_heldAt (d := c.document) chain address
  obtain ⟨material, texture, cast, receive⟩ := scope
  obtain ⟨hmaterial, htexture⟩ := hs
  unfold Document.originAt
  rw [← htexture]
  rw [← hsource] at hmaterial
  rcases c.document.heldAt_cases chain address with hheld | ⟨key, hheld⟩ | ⟨a, hheld, -⟩
  · rw [hheld] at hmaterial ⊢
    obtain rfl : material = none := hmaterial
    obtain ⟨-, hkept, -⟩ := fallbackMaterial_eq h hp.sound
    exact .fallback (hq.fallback hkept)
  · rw [hheld] at hmaterial ⊢
    obtain ⟨m', rfl, hkept⟩ := hmaterial
    cases texture with
    | some t => exact .made (surfaceMaterial_fresh h rfl rfl hq hp) rfl
    | none => cases h; exact .record hkept
  · rw [hheld] at hmaterial ⊢
    obtain ⟨m', rfl, -⟩ := hmaterial
    cases texture with
    | some t => exact .made (surfaceMaterial_fresh h rfl rfl hq hp) rfl
    | none => cases h; exact .handed rfl rfl

/-- The materials of a mesh: that of its surface first, then those of its groups. -/
theorem attachMesh_told {shape : ShapeSpec K} {n n' : SceneNode K}
    (h : attachMesh c scope shape n p = (n', q)) (hn : n.mesh = none) (hq : q.Orders final)
    (hp : InOrder c final p) (hordered : final.Orderly)
    (hs : Supplies c.document final lo p.arena.next (c.document.held chain) chain scope)
    (hgiven : GivenAt final p.arena.next address (c.document.heldAt chain address) scope.material)
    (hleaf : n'.branches = [] ∨ IsModel c.document n'.name) :
    Told c.document final p.arena.next q.arena.next
      (fun o => o.IsAt address ∧ o ≠ .level address) (c.document.heldAt chain address)
      scope.material ⟨address, chain, n'.gatherShadows⟩ := by
  cases hbuild : shape.build c.settings with
  | error d =>
    obtain rfl := attachMesh_error hbuild h
    exact .bare hn hleaf
  | ok g =>
    obtain ⟨geometry, material, p', groups, rfl, hsurface, hgroups, rfl⟩ := attachMesh_ok hbuild h
    have hgeometry : p.Plain { p with arena := { p.arena with next := p.arena.next + 1 } } :=
      .arena (Nat.le_succ _)
    have hmade := orders_surfaceMaterial c scope
      { p with arena := { p.arena with next := p.arena.next + 1 } }
    rw [hsurface] at hmade
    have hfaces := plain_groupMaterials shape p'
    rw [hgroups] at hfaces
    have hp₁ := hp.orders hgeometry.orders (hp.sound.plain hgeometry)
    have hp' := hp₁.orders hmade (surfaceMaterial_sound hsurface hp₁.sound)
    have hnext₁ := hgeometry.numbers hp.numbers
    have hnext' := hmade.numbers hp₁.numbers
    have hnext := hfaces.numbers hp'.numbers
    have hown := surfaceMaterial_comes address hsurface (hfaces.orders.trans hq) hp₁
      (hs.mono hnext₁)
    have hfresh := groupMaterials_fresh hgroups hq hp'
    have hpairs := groupMaterials_pairwise hgroups hp'.numbers
    have hface : ∀ k m, groups[k]? = some m → Comes final p'.arena.next q.arena.next
        (fun o => ∃ k, o = .face address k) (c.document.heldAt chain address) scope.material
        (.face address k) m := fun k m hm =>
      .made (hfresh m (List.mem_of_getElem? hm)) ⟨k, rfl⟩
    have hsurfaceAt : ∀ o : Origin, o = .surface address → o.IsAt address ∧ o ≠ .level address := by
      rintro _ rfl
      exact ⟨List.suffix_refl address, Origin.noConfusion⟩
    have hfaceAt : ∀ o : Origin, (∃ k, o = .face address k) →
        o.IsAt address ∧ o ≠ .level address := by
      rintro _ ⟨k, rfl⟩
      exact ⟨List.suffix_refl address, Origin.noConfusion⟩
    have happart : ∀ k m, groups[k]? = some m → Agree
        (c.document.originAt final.textures chain address) material (.face address k) m := by
      intro k m hm
      refine hown.agree hordered (hface k m hm) (hgiven.handedFirst hnext₁ hsurfaceAt)
        (hgiven.handedFirst (Nat.le_trans hnext₁ hnext') hfaceAt) ?_
      rintro hsurface - hfresh hfresh'
      have hhigh := hfresh.high
      have hlow := hfresh'.low
      exact Agree.of_ne (by omega) (by rw [hsurface]; exact Origin.noConfusion)
    exact .mesh rfl hleaf (hown.mono hnext₁ hnext hsurfaceAt)
      (fun k m hm => ⟨(hface k m hm).mono (Nat.le_trans hnext₁ hnext') (Nat.le_refl _) hfaceAt,
        happart k m hm⟩)
      (hpairs.imp fun hlt => Nat.ne_of_lt hlt)

/-! ## 3. Visits -/

section Visits

variable {parent : Shared (Affine K)} {inherited : Inherited K} {path : List String} {id : String}
  {e : Element K} {own : SceneNode K}

theorem Entered.scope_inherits (h : Entered c parent inherited path id p e scope own q)
    (hp : Sound c final p) (hkey : c.document.recordKey? id = none) :
    scope.material = inherited.material := by
  obtain ⟨p₂, a, hscope, -, -⟩ := h.scope_made
  obtain ⟨p₁, hmaterial, -⟩ := scopeOf_parts hscope
  exact materialOf_inherits hmaterial hp h.found hkey

end Visits

omit [Scalar K] in
theorem LevelVisit.orders {R : Inherited K → String → Progress K → Option (SceneNode K) →
      Progress K → Prop} {level : LevelSpec K} {l : Option (Level K (SceneNode K))}
    (hR : ∀ own id p n q, R own id p n q → p.Orders q) (h : LevelVisit R scope level p l q) :
    p.Orders q := by
  obtain ⟨own, p', -, hplain, hvisit⟩ := h.parts
  exact hplain.orders.trans (hR _ _ _ _ _ hvisit)

/-- The materials of what a visit makes are told apart by their origins, at whatever address it
    stands. -/
def Tells (c : Setting K) (final : Progress K) (inherited : Inherited K) (path : List String)
    (id : String) (p : Progress K) (n : Option (SceneNode K)) (q : Progress K) : Prop :=
  q.Orders final → InOrder c final p →
    ∀ lo, Supplies c.document final lo p.arena.next (c.document.handedDown path) path inherited →
    ∀ address m, n = some m → m.name = id ∧ Told c.document final p.arena.next q.arena.next
      (fun o => o.IsAt address ∧ o ≠ .level address) (c.document.handedAt path address)
      inherited.material ⟨address, id :: path, m⟩

section Entering

variable {parent : Shared (Affine K)} {inherited : Inherited K} {path : List String} {id : String}
  {e : Element K} {own n : SceneNode K} {r : Progress K}

/-- What is told apart in terms of what an element holds is told apart in terms of what is handed to
    it. -/
theorem Entered.tells (h : Entered c parent inherited path id p e scope own q) (hqr : q.Orders r)
    (hname : n.name = id)
    (hown : r.Orders final → InOrder c final q → ∀ lo,
      Supplies c.document final lo q.arena.next (c.document.held (id :: path)) (id :: path) scope →
      ∀ address, Told c.document final q.arena.next r.arena.next
        (fun o => o.IsAt address ∧ o ≠ .level address) (c.document.heldAt (id :: path) address)
        scope.material ⟨address, id :: path, n.gatherShadows⟩) :
    Tells c final inherited path id p (some n.gatherShadows) r.counting := by
  intro hfinal hp lo hs address m hm
  obtain rfl := Option.some.inj hm
  have hr : r.Orders final := hfinal.of_counting
  have hq : q.Orders final := hqr.trans hr
  have hle := h.works.numbers hp.numbers
  have htold := hown hr (h.inOrder hq hp) lo (h.supplies hq hp hs) address
  exact ⟨hname, htold.imp fun o m hm =>
    (hm.mono hle (Nat.le_refl _) fun o ho => ho).of_held (h.scope_inherits hp.sound)⟩

/-- A child of a group is a branch of it. -/
theorem Tells.branch_group {n : Option (SceneNode K)} {base : Nat} {children : List String}
    {id' : String} (h : Tells c final scope (id :: path) id' p n q)
    (hid : c.document.elements.find? id = some e) (hkind : e.kind = .group children)
    (hq : q.Orders final) (hp : InOrder c final p) (hbase : base ≤ p.arena.next)
    (hs : Supplies c.document final lo p.arena.next (c.document.held (id :: path)) (id :: path)
      scope) (m : SceneNode K) (hm : n = some m) :
    Branch c.document final base p.arena.next q.arena.next
      (c.document.heldAt (id :: path) address) scope.material address (id :: path) id' m := by
  rw [← Document.handedDown_cons_group hid hkind] at hs
  have htold := h hq hp lo hs
  refine ⟨(htold [] m hm).1, hbase, fun i => ?_⟩
  have hchild := (htold (i :: address) m hm).2
  rw [Document.handedAt_group hid hkind] at hchild
  exact hchild.imp fun o m hm => hm.mono (Nat.le_refl _) (Nat.le_refl _) fun o ho => ho.1

theorem Entered.tells_group {children : List String} {built : List (Option (SceneNode K))}
    (h : Entered c parent inherited path id p e scope own q) (hordered : final.Orderly)
    (hkind : e.kind = .group children)
    (hsteps : Steps (fun id' p' n q' => visit c own.world scope (id :: path) id' p' = (n, q') ∧
      Tells c final scope (id :: path) id' p' n q') children q built r) :
    Tells c final inherited path id p
      (some { own with children := built.reduceOption }.gatherShadows) r.counting := by
  refine h.tells (hsteps.lift (G := Progress.Orders) .refl .trans fun _ _ _ _ h =>
    orders_of_visit h.1) h.own_name fun hr hq lo hscope address => ?_
  obtain ⟨-, hbelow, hpairs⟩ := hsteps.spaced (B := fun p => p.Orders final)
    (I := fun p => InOrder c final p ∧ q.arena.next ≤ p.arena.next)
    (J := fun id' lo' hi' b => ∀ m, b = some m → Branch c.document final q.arena.next lo' hi'
      (c.document.heldAt (id :: path) address) scope.material address (id :: path) id' m)
    (fun _ _ _ _ h hq' => (orders_of_visit h.1).trans hq')
    (by
      rintro id' p' n q' ⟨hvisit, htells⟩ hq' ⟨hp', hle⟩
      have hnext := (orders_of_visit hvisit).numbers hp'.numbers
      exact ⟨⟨hp'.visited hvisit hq', Nat.le_trans hle hnext⟩, hnext,
        htells.branch_group h.found hkind hq' hp' hle (hscope.mono hle)⟩)
    hr ⟨hq, Nat.le_refl _⟩
  have hbranches : { own with children := built.reduceOption }.gatherShadows.branches =
      built.reduceOption := by
    simp [SceneNode.gatherShadows, SceneNode.branches, SceneNode.levels, h.own_lod]
  exact .of_branches h.own_mesh hordered (.held hscope.material) hbelow hpairs (.of_eq hbranches)

theorem Entered.tells_shape {shape : ShapeSpec K}
    (h : Entered c parent inherited path id p e scope own q) (hordered : final.Orderly)
    (hkind : e.kind = .primitive shape) (hattach : attachShape c scope shape own q = (n, r)) :
    Tells c final inherited path id p (some n.gatherShadows) r.counting := by
  have hattached := orders_attachShape c scope shape own q
  rw [hattach] at hattached
  obtain ⟨hname, hleaf⟩ := h.attached hkind hattach
  have hleaf : n.branches = [] ∨ IsModel c.document n.name := hleaf.imp_right fun h => hname ▸ h
  refine h.tells hattached hname fun hr hq lo hscope address => ?_
  by_cases hmodel : ∃ file, shape = .model file
  · obtain ⟨file, rfl⟩ := hmodel
    have hmesh : n.mesh = none := by
      rcases attachModel_eq hattach with rfl | ⟨t, library, b, model, arena, -, -, rfl⟩
      · exact h.own_mesh
      · exact h.own_mesh
    exact .bare hmesh hleaf
  · rw [attachShape_of_ne_model fun file h => hmodel ⟨file, h⟩] at hattach
    exact attachMesh_told hattach h.own_mesh hr hq hordered hscope (.held hscope.material) hleaf

theorem Entered.tells_light {spec : LightSpec K}
    (h : Entered c parent inherited path id p e scope own q)
    (hattach : attachLight spec own q = (n, r)) :
    Tells c final inherited path id p (some n.gatherShadows) r.counting := by
  have hattached := plain_attachLight spec own q
  rw [hattach] at hattached
  obtain ⟨light, rfl⟩ := attachLight_eq hattach
  exact h.tells hattached.orders h.own_name fun _ _ _ _ _ => .bare h.own_mesh (.inl h.own_branches)

/-- A level is a branch, with a copy of the material that is held. -/
theorem LevelVisit.branch {base : Nat} {levels : List (LevelSpec K)} {level : LevelSpec K}
    {world : Shared (Affine K)} {l : Option (Level K (SceneNode K))}
    (h : LevelVisit (fun own id' p' n q' => visit c world own (id :: path) id' p' = (n, q') ∧
      Tells c final own (id :: path) id' p' n q') scope level p l q)
    (hid : c.document.elements.find? id = some e) (hkind : e.kind = .lod levels)
    (hq : q.Orders final) (hp : InOrder c final p) (hbase : base ≤ p.arena.next)
    (hs : Supplies c.document final lo p.arena.next (c.document.held (id :: path)) (id :: path)
      scope) :
    InOrder c final q ∧ p.arena.next ≤ q.arena.next ∧ ∀ m, l.map Level.node = some m →
      Branch c.document final base p.arena.next q.arena.next
        (c.document.heldAt (id :: path) address) scope.material address (id :: path) level.target
        m := by
  obtain ⟨own', p'', hlevelScope, hplain, hvisit, htells⟩ := h.parts
  have hp'' := hp.orders hplain.orders (hp.sound.plain hplain)
  have hq'' := (orders_of_visit hvisit).trans hq
  have hsupplied := levelScope_supplies hlevelScope hq'' hp hs
  have hnext := hplain.numbers hp.numbers
  have hnext' := (orders_of_visit hvisit).numbers hp''.numbers
  refine ⟨hp''.visited hvisit hq, Nat.le_trans hnext hnext', fun m hm => ?_⟩
  have hduplicate := hsupplied.material
  rw [← Document.handedDown_cons_lod hid hkind] at hsupplied
  have htold := htells hq hp'' _ hsupplied
  refine ⟨(htold [] m hm).1, hbase, fun i => ?_⟩
  have hchild := (htold (i :: address) m hm).2
  rw [Document.handedAt_lod hid hkind] at hchild
  rw [← Document.source_heldAt (id :: path) address] at hduplicate
  exact hchild.imp fun o m hm => hm.of_entering hduplicate hnext hnext'

theorem Entered.tells_lod {levels : List (LevelSpec K)}
    {built : List (Option (Level K (SceneNode K)))}
    (h : Entered c parent inherited path id p e scope own q) (hordered : final.Orderly)
    (hkind : e.kind = .lod levels)
    (hsteps : Steps (LevelVisit (fun scope' id' p' n q' =>
      visit c own.world scope' (id :: path) id' p' = (n, q') ∧
        Tells c final scope' (id :: path) id' p' n q') scope) levels q built r) :
    Tells c final inherited path id p
      (some { own with lod := some (.ofLevels built.reduceOption) }.gatherShadows) r.counting := by
  refine h.tells (hsteps.lift (G := Progress.Orders) .refl .trans fun _ _ _ _ h =>
    h.orders fun _ _ _ _ _ h => orders_of_visit h.1) h.own_name fun hr hq lo hscope address => ?_
  obtain ⟨-, hbelow, hpairs⟩ := hsteps.spaced (B := fun p => p.Orders final)
    (I := fun p => InOrder c final p ∧ q.arena.next ≤ p.arena.next)
    (J := fun level lo' hi' l => ∀ m, l.map Level.node = some m →
      Branch c.document final q.arena.next lo' hi' (c.document.heldAt (id :: path) address)
        scope.material address (id :: path) level.target m)
    (fun _ _ _ _ h hq' => (h.orders fun _ _ _ _ _ h => orders_of_visit h.1).trans hq')
    (by
      rintro level p' l q' hlevel hq' ⟨hp', hle⟩
      obtain ⟨hq'', hnext, hbranch⟩ := hlevel.branch h.found hkind hq' hp' hle (hscope.mono hle)
      exact ⟨⟨hq'', Nat.le_trans hle hnext⟩, hnext, hbranch⟩)
    hr ⟨hq, Nat.le_refl _⟩
  have hbranches : { own with lod := some (.ofLevels built.reduceOption) }.gatherShadows.branches =
      (Lod.ofLevels built.reduceOption).levels.map Level.node := by
    simp [SceneNode.gatherShadows, SceneNode.branches, SceneNode.levels, h.own_children]
  have hperm : { own with lod := some (.ofLevels built.reduceOption) }.gatherShadows.branches.Perm
      (built.map (Option.map Level.node)).reduceOption := by
    rw [hbranches, List.reduceOption_map]
    exact (Lod.levels_ofLevels_perm _).map _
  refine .of_branches h.own_mesh hordered (.held hscope.material)
    (List.forall₂_map_left_iff.mpr (List.forall₂_map_right_iff.mpr hbelow))
    (List.pairwise_map.mpr (hpairs.imp ?_)) hperm
  rintro l l' ⟨level, level', lo, mid, lo', hi', hmid, h, h'⟩
  exact ⟨level.target, level'.target, lo, mid, lo', hi', hmid, h, h'⟩

end Entering

/-- **The materials of a visit are told apart by their origins.** -/
theorem told_visit (c : Setting K) (final : Progress K) (hordered : final.Orderly)
    (parent : Shared (Affine K)) (inherited : Inherited K) (path : List String) (id : String)
    (p : Progress K) :
    Tells c final inherited path id p (visit c parent inherited path id p).1
      (visit c parent inherited path id p).2 := by
  refine visit_induction (P := fun _ => Tells c final) ?leftOut ?group ?primitive ?light ?lod parent
    inherited path id p
  case leftOut =>
    intro _ _ _ _ _ _ _ _ _ _ _ _ _ _ m hm
    cases hm
  case group =>
    intro _ _ path id p e scope own q children built r hentered hkind hsteps
    exact hentered.tells_group hordered hkind hsteps
  case primitive =>
    intro _ _ path id p e scope own q shape n r hentered hkind hattach
    exact hentered.tells_shape hordered hkind hattach
  case light =>
    intro _ _ path id p e scope own q spec n r hentered _ hattach
    exact hentered.tells_light hattach
  case lod =>
    intro _ _ path id p e scope own q levels built r hentered hkind hsteps
    exact hentered.tells_lod hordered hkind hsteps

end Walk

/-! ## 4. Assembled scenes -/

section Scenes

variable [Scalar K] {settings : Settings K} {d : Document K} {w w' : Workshop K} {scene : Scene K}

/-- A surface without a texture of its own holds what its element holds. -/
theorem Document.originAt_untextured {u : TextureRegistry K × Arena} {chain : List String}
    (h : d.effectiveTexture? u chain = none) (address : List Nat) :
    d.originAt u chain address = d.heldAt chain address := by
  unfold originAt
  rw [h]
  cases d.heldAt chain address <;> rfl

/-- A surface with a record and a texture holds a duplicate. -/
theorem Document.originAt_textured {u : TextureRegistry K × Arena} {chain : List String}
    (h : d.effectiveTexture? u chain ≠ none) (hrecord : d.effectiveRecord? chain ≠ none)
    (address : List Nat) : d.originAt u chain address = .surface address := by
  have hheld := mt (d.heldAt_eq_fallback_iff chain address).mp hrecord
  have hsome : (d.effectiveTexture? u chain).isSome = true := Option.isSome_iff_ne_none.mpr h
  unfold originAt
  rw [hsome]
  cases hcases : d.heldAt chain address with
  | fallback => exact absurd hcases hheld
  | _ => rfl

theorem told_scene (h : assemble settings d w = (.ok scene, w'))
    (hnumbers : w.library.KeepsNumbers) (hleft : leftOut? ⟨d, settings⟩ [] d.rootId = none) :
    ∃ q, Walk.visit ⟨d, settings⟩ ⟨w.arena.next, Affine.identity⟩ .nothing [] d.rootId w.start =
        (some scene.root, q) ∧ q.textures = (w'.registry, w'.arena) ∧
      ∃ lo hi, Told d q lo hi (fun o => o.IsAt [] ∧ o ≠ .level []) .fallback none
        ⟨[], [d.rootId], scene.root⟩ := by
  obtain ⟨q, hvisit, -, hregistry, harena⟩ := visit_root h hleft
  have hordered := (Walk.orders_of_visit hvisit).orderly hnumbers (orderly_start w)
  have hstart : Walk.InOrder ⟨d, settings⟩ q w.start :=
    ⟨hnumbers, orderly_start w, sound_start ⟨d, settings⟩ q w⟩
  have htold := Walk.told_visit ⟨d, settings⟩ q hordered ⟨w.arena.next, Affine.identity⟩ .nothing
    [] d.rootId w.start
  rw [hvisit] at htold
  refine ⟨q, hvisit, ?_, _, _, (htold (.refl q) hstart 0 ⟨rfl, rfl⟩ [] scene.root rfl).2⟩
  rw [hregistry, harena]
  rfl

end Scenes

/-- **Surfaces share a material exactly if its origin is the same.**  Two surfaces without textures
    hold one object exactly if both hold the fallback, or that of one record, or what was handed to
    one level.  A surface with a texture and a record holds an object that is held nowhere else.  So
    for each record there is at most one material that is kept. -/
theorem materials_told [Scalar K] (settings : Settings K) (d : Document K) (w : Workshop K)
    (hroot : d.elements.contains d.rootId) (hnumbers : w.library.KeepsNumbers) :
    ∃ scene w', assemble settings d w = (.ok scene, w') ∧
      ∀ s s' : Spot K, scene.HasSpot ⟨d, settings⟩ s → scene.HasSpot ⟨d, settings⟩ s' →
        ∀ mesh mesh', s.node.mesh = some mesh → s'.node.mesh = some mesh' →
        (d.effectiveTexture? (w'.registry, w'.arena) s.chain = none →
          d.effectiveTexture? (w'.registry, w'.arena) s'.chain = none →
          (mesh.material.id = mesh'.material.id ↔
            d.heldAt s.chain s.address = d.heldAt s'.chain s'.address)) ∧
        (d.effectiveTexture? (w'.registry, w'.arena) s.chain ≠ none →
          d.effectiveRecord? s.chain ≠ none → s.address ≠ s'.address →
          ∀ m ∈ mesh'.material :: mesh'.groupMaterials, mesh.material.id ≠ m.id) ∧
        ∀ key, d.effectiveTexture? (w'.registry, w'.arena) s.chain = none →
          d.heldAt s.chain s.address = .record key →
          (Walk.visit ⟨d, settings⟩ ⟨w.arena.next, Affine.identity⟩ .nothing [] d.rootId
            w.start).2.materials.find? key = some mesh.material := by
  obtain ⟨scene, w', hscene⟩ := exists_scene settings w hroot
  refine ⟨scene, w', hscene, fun s s' hs hs' mesh mesh' hmesh hmesh' => ?_⟩
  obtain ⟨q, hvisit, htextures, lo, hi, htold⟩ := told_scene hscene hnumbers hs.1
  rw [hvisit, ← htextures]
  have hsurface : Bears d q.textures s _ mesh.material := .surface hmesh
  have hsurface' : Bears d q.textures s' _ mesh'.material := .surface hmesh'
  refine ⟨fun hplain hplain' => ?_, fun htexture hrecord haddress m hm => ?_,
    fun key hplain hheld => ?_⟩
  · have hagree := (htold.agree s s' hs.2 hs'.2 _ _ _ _ hsurface hsurface').1
    rwa [Document.originAt_untextured hplain, Document.originAt_untextured hplain'] at hagree
  · rw [Document.originAt_textured htexture hrecord] at hsurface
    have hother : ∀ o m', Bears d q.textures s' o m' → o ≠ .surface s.address →
        mesh.material.id ≠ m'.id := fun o m' hm' hne heq =>
      hne ((htold.agree s s' hs.2 hs'.2 _ _ _ _ hsurface hm').1.mp heq).symm
    rcases List.mem_cons.mp hm with rfl | hm
    · refine hother _ _ hsurface' fun heq => ?_
      unfold Document.originAt at heq
      rcases d.heldAt_cases s'.chain s'.address with hheld | ⟨key, hheld⟩ | ⟨a, hheld, -⟩
      · rw [hheld] at heq
        cases heq
      · rw [hheld] at heq
        simp only at heq
        split at heq
        · exact haddress (Origin.surface.inj heq).symm
        · cases heq
      · rw [hheld] at heq
        simp only at heq
        split at heq
        · exact haddress (Origin.surface.inj heq).symm
        · cases heq
    · obtain ⟨k, hk⟩ := List.mem_iff_getElem?.mp hm
      exact hother _ _ (.face hmesh' hk) Origin.noConfusion
  · rw [Document.originAt_untextured hplain, hheld] at hsurface
    have hcomes := htold.comes s hs.2 _ _ hsurface
    cases hcomes with
    | record hm => exact hm
    | made _ ho => exact absurd ho.1 id

/-- Two spheres that are painted by the group around them, and one that has a texture as well. -/
def Document.beaded : Document Float32 :=
  (((((Document.ofRoot "string").addElement
    { Element.ofKind "string" (.group ["bead", "bead", "pearl"]) with
      material := some "paint" }).addElement
    (Element.ofKind "bead" (.primitive (.sphere .standard)))).addElement
    { Element.ofKind "pearl" (.primitive (.sphere .standard)) with
      texture := some "shine" }).addMaterial "paint" .standard).addTexture
    { TextureSpec.standard with id := "shine", path := "shine.png" }

theorem materials_told_beaded :
    Document.beaded.elements.contains Document.beaded.rootId ∧
    (ModelLibrary.empty : ModelLibrary Float32).KeepsNumbers ∧
    ∃ (scene : Scene Float32) (w' : Workshop Float32) (left right pearl : Mesh Float32),
      assemble .standard Document.beaded
        ⟨.empty, .ofRecords Document.beaded.textures "." .placeholder, .empty⟩ = (.ok scene, w') ∧
      scene.root.children.map SceneNode.mesh = [some left, some right, some pearl] ∧
      left.material.id = right.material.id ∧ pearl.material.id ≠ left.material.id := by
  have hroot : Document.beaded.elements.contains Document.beaded.rootId := rfl
  have hnumbers : (ModelLibrary.empty : ModelLibrary Float32).KeepsNumbers := by
    intro load hload
    cases hload
  obtain ⟨scene, w', hscene, htold⟩ := materials_told .standard Document.beaded
    ⟨.empty, .ofRecords Document.beaded.textures "." .placeholder, .empty⟩ hroot hnumbers
  refine ⟨hroot, hnumbers, scene, w', ?_⟩
  -- The tree is known from the unfolding: a root with three children.
  have hbead : unfold ⟨Document.beaded, .standard⟩ ["string"] "bead" = .leaf "bead" :=
    unfold_kind (e := Element.ofKind "bead" (.primitive (.sphere .standard))) rfl rfl
  have hpearl : unfold ⟨Document.beaded, .standard⟩ ["string"] "pearl" = .leaf "pearl" :=
    unfold_kind (e := { Element.ofKind "pearl" (.primitive (.sphere .standard)) with
      texture := some "shine" }) rfl rfl
  have hunfold : unfold ⟨Document.beaded, .standard⟩ [] Document.beaded.rootId =
      .group "string" [.leaf "bead", .leaf "bead", .leaf "pearl"] := by
    rw [← hbead, ← hpearl]
    exact unfold_kind (e := { Element.ofKind "string" (.group ["bead", "bead", "pearl"]) with
      material := some "paint" }) rfl rfl
  have hrealizes := realizes_root hscene rfl
  rw [hunfold] at hrealizes
  obtain ⟨a, b, c, hname, hchildren, hlod, ha, hb, hc⟩ : ∃ a b c : SceneNode Float32,
      scene.root.name = "string" ∧ scene.root.children = [a, b, c] ∧ scene.root.lod = none ∧
        a.name = "bead" ∧ b.name = "bead" ∧ c.name = "pearl" := by
    cases hrealizes with
    | group hname hlod hbelow hchildren =>
      cases hbelow with
      | cons hfirst hrest =>
        cases hrest with
        | cons hsecond hrest =>
          cases hrest with
          | cons hthird hrest =>
            cases hrest
            cases hfirst with
            | leaf ha _ _ =>
              cases hsecond with
              | leaf hb _ _ =>
                cases hthird with
                | leaf hc _ _ => exact ⟨_, _, _, hname, hchildren, hlod, ha, hb, hc⟩
  have hbranches : scene.root.branches = [a, b, c] := by
    simp [SceneNode.branches, SceneNode.levels, hchildren, hlod]
  have hspot : ∀ {i n}, scene.root.branches[i]? = some n →
      scene.HasSpot ⟨Document.beaded, .standard⟩ ⟨[i], [n.name, "string"], n⟩ := by
    intro i n hn
    refine ⟨rfl, .single (.intro ?_ hn)⟩
    rw [hname]
    exact not_isModel (e := { Element.ofKind "string" (.group ["bead", "bead", "pearl"]) with
      material := some "paint" }) rfl (by simp [Element.ofKind])
  have hspotA := hspot (i := 0) (n := a) (by rw [hbranches]; rfl)
  have hspotB := hspot (i := 1) (n := b) (by rw [hbranches]; rfl)
  have hspotC := hspot (i := 2) (n := c) (by rw [hbranches]; rfl)
  -- Each sphere has a geometry, and so a mesh.
  obtain ⟨fallback, -, hdressed⟩ := dressed_scene hscene
  obtain ⟨left, hleft, -⟩ := hdressed _ hspotA.place
    (Element.ofKind "bead" (.primitive (.sphere .standard))) (.sphere .standard) _
    (by rw [ha]; rfl) rfl (by simp) rfl
  obtain ⟨right, hright, -⟩ := hdressed _ hspotB.place
    (Element.ofKind "bead" (.primitive (.sphere .standard))) (.sphere .standard) _
    (by rw [hb]; rfl) rfl (by simp) rfl
  obtain ⟨pearl, hpearl, -⟩ := hdressed _ hspotC.place
    { Element.ofKind "pearl" (.primitive (.sphere .standard)) with texture := some "shine" }
    (.sphere .standard) _ (by rw [hc]; rfl) rfl (by simp) rfl
  have hmeshes : scene.root.children.map SceneNode.mesh = [some left, some right, some pearl] := by
    rw [hchildren, ← hleft, ← hright, ← hpearl]
    rfl
  refine ⟨left, right, pearl, hscene, hmeshes, ?_, ?_⟩
  · have hplain : Document.beaded.effectiveTexture? (w'.registry, w'.arena) ["bead", "string"] =
        none := rfl
    rw [← ha] at hplain
    refine ((htold _ _ hspotA hspotB _ _ hleft hright).1 hplain ?_).mpr ?_
    · rw [hb, ← ha]
      exact hplain
    · simp only [ha, hb]
      rfl
  · obtain ⟨shine, hshine⟩ : ∃ shine, resolved? (w'.registry, w'.arena) "shine" = some shine := by
      rw [← Option.isSome_iff_exists]
      have hknown := TextureRegistry.isSome_resolve (s := (w'.registry, w'.arena)) "shine"
      rw [(extends_registry hscene).knows_eq] at hknown
      exact hknown
    refine (htold _ _ hspotC hspotA _ _ hpearl hleft).2.1 ?_ ?_ (by simp) _ List.mem_cons_self
    · rw [hc, Document.effectiveTexture?_cons rfl, Option.bind_some, hshine]
      exact Option.some_ne_none _
    · rw [hc]
      exact Option.some_ne_none _

end SceneAssembly
