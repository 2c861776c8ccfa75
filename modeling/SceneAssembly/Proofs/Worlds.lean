/-
  SceneAssembly/Proofs/Worlds.lean
  ================================
  **The worlds of a tree, and who shares them.**

  A tree hangs below a world if every node has either the world object of the
  node above or, with a placement, a new one with the product (`Hangs`).  From
  this law of single steps follow the world of any node, as the product of the
  placements on the way to it (`Hangs.world_value`), and which nodes share one
  object: those with the same nearest placed node, provided that no two placed
  nodes were given the same number (`Hangs.world_id_eq_iff`).
-/
import Mathlib.Data.List.Nodup
import SceneAssembly.Proofs.Branches

namespace SceneAssembly

variable {K : Type}

/-! ## 1. New numbers -/

/-- Different numbers, all given out between two moments. -/
structure NewNumbers (lo hi : Nat) (ks : List Nat) : Prop where
  le : lo ≤ hi
  nodup : ks.Nodup
  within : ∀ k ∈ ks, lo ≤ k ∧ k < hi

namespace NewNumbers

variable {lo mid hi : Nat} {ks ls : List Nat}

theorem nil (h : lo ≤ hi) : NewNumbers lo hi [] := ⟨h, List.nodup_nil, by simp⟩

theorem append (h : NewNumbers lo mid ks) (h' : NewNumbers mid hi ls) :
    NewNumbers lo hi (ks ++ ls) where
  le := Nat.le_trans h.le h'.le
  nodup := by
    refine List.nodup_append.mpr ⟨h.nodup, h'.nodup, ?_⟩
    rintro k hk l hl rfl
    have hlow := (h.within k hk).2
    have hhigh := (h'.within k hl).1
    omega
  within k hk := by
    have hle := h.le
    have hle' := h'.le
    rcases List.mem_append.mp hk with hk | hk
    · have := h.within k hk
      omega
    · have := h'.within k hk
      omega

theorem perm (h : NewNumbers lo hi ks) (hperm : ks.Perm ls) : NewNumbers lo hi ls :=
  ⟨h.le, hperm.nodup h.nodup, fun k hk => h.within k (hperm.mem_iff.mpr hk)⟩

theorem widen (h : NewNumbers mid hi ks) (hlo : lo ≤ mid) : NewNumbers lo hi ks :=
  (NewNumbers.nil hlo).append h

end NewNumbers

namespace SceneNode

/-! ## 2. The nearest placed node -/

/-- The placements of the nodes on the way to an address, the topmost one first. -/
def placementsTo (n : SceneNode K) : List Nat → List (Affine K)
  | [] => n.placement.toList
  | i :: rest => n.placement.toList ++ (n.branches[i]?.elim [] fun m => m.placementsTo rest)

/-- The address of the last node on the way to an address that has a placement. -/
def anchor? (n : SceneNode K) : List Nat → Option (List Nat)
  | [] => if n.placement.isSome then some [] else none
  | i :: rest =>
    match n.branches[i]?.bind fun m => m.anchor? rest with
    | some below => some (i :: below)
    | none => if n.placement.isSome then some [] else none

theorem anchor?_isPrefix {n : SceneNode K} {address p : List Nat} (h : n.anchor? address = some p) :
    p <+: address := by
  induction address generalizing n p with
  | nil =>
    unfold anchor? at h
    split at h
    · cases h
      exact List.prefix_refl []
    · cases h
  | cons i rest ih =>
    unfold anchor? at h
    split at h
    next below hbelow =>
      cases h
      obtain ⟨m, -, hanchor⟩ := Option.bind_eq_some_iff.mp hbelow
      exact List.cons_prefix_cons.mpr ⟨rfl, ih hanchor⟩
    next =>
      split at h
      · cases h
        exact List.nil_prefix
      · cases h

/-- The numbers of the worlds that the placed nodes of a tree have. -/
def numbers (n : SceneNode K) : List Nat :=
  n.preorder.filterMap fun m => m.placement.map fun _ => m.world.id

theorem numbers_eq (n : SceneNode K) :
    n.numbers = (n.placement.map fun _ => n.world.id).toList ++ n.branches.flatMap numbers := by
  have hbelow : (n.branches.flatMap preorder).filterMap
      (fun m => m.placement.map fun _ => m.world.id) = n.branches.flatMap numbers := by
    rw [List.filterMap_flatMap]
    rfl
  rw [numbers, preorder_eq, List.filterMap_cons, hbelow]
  cases n.placement with
  | none => rfl
  | some m => rfl

section Numbers

variable {n m x : SceneNode K} {i : Nat} {address : List Nat}

theorem nodup_of_branch (hm : n.branches[i]? = some m) (h : n.numbers.Nodup) :
    m.numbers.Nodup := by
  rw [numbers_eq] at h
  exact (List.nodup_flatMap.mp (List.nodup_append.mp h).2.1).1 m (List.mem_of_getElem? hm)

theorem mem_numbers_of_at? (hx : n.at? address = some x) (hplaced : x.placement.isSome) :
    x.world.id ∈ n.numbers := by
  obtain ⟨placement, hplacement⟩ := Option.isSome_iff_exists.mp hplaced
  exact List.mem_filterMap.mpr ⟨x, mem_preorder_of_at? hx, by rw [hplacement]; rfl⟩

/-- Numbers below two branches of one node differ. -/
theorem disjoint_branches (h : n.numbers.Nodup) {j k k' : Nat} {m' : SceneNode K}
    (hm : n.branches[i]? = some m) (hm' : n.branches[j]? = some m') (hij : i ≠ j)
    (hk : k ∈ m.numbers) (hk' : k' ∈ m'.numbers) : k ≠ k' := by
  rw [numbers_eq] at h
  have hpairwise := (List.nodup_flatMap.mp (List.nodup_append.mp h).2.1).2
  obtain ⟨hi, rfl⟩ := List.getElem?_eq_some_iff.mp hm
  obtain ⟨hj, rfl⟩ := List.getElem?_eq_some_iff.mp hm'
  rintro rfl
  rcases Nat.lt_or_gt_of_ne hij with hlt | hlt
  · exact List.pairwise_iff_getElem.mp hpairwise i j hi hj hlt hk hk'
  · exact List.pairwise_iff_getElem.mp hpairwise j i hj hi hlt hk' hk

theorem ne_of_branch (h : n.numbers.Nodup) (hplaced : n.placement.isSome)
    (hm : n.branches[i]? = some m) {k : Nat} (hk : k ∈ m.numbers) : n.world.id ≠ k := by
  obtain ⟨placement, hplacement⟩ := Option.isSome_iff_exists.mp hplaced
  rw [numbers_eq, hplacement] at h
  refine (List.nodup_append.mp h).2.2 n.world.id (by simp) k ?_
  exact List.mem_flatMap.mpr ⟨m, List.mem_of_getElem? hm, hk⟩

/-- Two placed nodes with one number are one occurrence. -/
theorem eq_of_world_id (h : n.numbers.Nodup) {address' : List Nat} {y : SceneNode K}
    (hx : n.at? address = some x) (hy : n.at? address' = some y)
    (hxplaced : x.placement.isSome) (hyplaced : y.placement.isSome)
    (hid : x.world.id = y.world.id) : address = address' := by
  induction address generalizing n address' with
  | nil =>
    obtain rfl := Option.some.inj hx
    cases address' with
    | nil => rfl
    | cons j rest =>
      obtain ⟨m, hm, hy⟩ := at?_cons_eq_some_iff.mp hy
      exact absurd hid (ne_of_branch h hxplaced hm (mem_numbers_of_at? hy hyplaced))
  | cons i rest ih =>
    obtain ⟨m, hm, hx⟩ := at?_cons_eq_some_iff.mp hx
    have hk := mem_numbers_of_at? hx hxplaced
    cases address' with
    | nil =>
      obtain rfl := Option.some.inj hy
      exact absurd hid.symm (ne_of_branch h hyplaced hm hk)
    | cons j rest' =>
      obtain ⟨m', hm', hy⟩ := at?_cons_eq_some_iff.mp hy
      by_cases hij : i = j
      · subst hij
        obtain rfl := Option.some.inj (hm.symm.trans hm')
        rw [ih (nodup_of_branch hm h) hx hy]
      · exact absurd hid (disjoint_branches h hm hm' hij hk (mem_numbers_of_at? hy hyplaced))

end Numbers

/-! ## 3. Hanging below a world -/

variable [Scalar K]

/-- The world of a node below another world: the same object, or the product with its placement. -/
def HangsFrom (world : Shared (Affine K)) (n : SceneNode K) : Prop :=
  match n.placement with
  | none => n.world = world
  | some m => n.world.value = world.value * m

/-- Every node of a tree hangs from the one above, the topmost one from a given world. -/
structure Hangs (parent : Shared (Affine K)) (n : SceneNode K) : Prop where
  own : n.HangsFrom parent
  below : ∀ x ∈ n.preorder, ∀ m ∈ x.branches, m.HangsFrom x.world

namespace Hangs

variable {parent : Shared (Affine K)} {n m x y : SceneNode K} {address address' : List Nat}

theorem of_branches (hn : n.HangsFrom parent) (hbranches : ∀ m ∈ n.branches, m.Hangs n.world) :
    n.Hangs parent where
  own := hn
  below x hx m hm := by
    rcases mem_preorder_iff.mp hx with rfl | ⟨b, hb, hx⟩
    · exact (hbranches m hm).own
    · exact (hbranches b hb).below x hx m hm

theorem branch (h : n.Hangs parent) (hm : m ∈ n.branches) : m.Hangs n.world where
  own := h.below n (mem_preorder_self n) m hm
  below x hx := h.below x (mem_preorder_of_branch hm hx)

/-- **The world of a node** is the product of the placements on the way to it. -/
theorem world_value (h : n.Hangs parent) (hx : n.at? address = some x) :
    x.world.value = (n.placementsTo address).foldl (· * ·) parent.value := by
  induction address generalizing n parent with
  | nil =>
    obtain rfl := Option.some.inj hx
    have hown := h.own
    unfold HangsFrom at hown
    unfold placementsTo
    cases hplacement : n.placement with
    | none => rw [hplacement] at hown; rw [hown]; rfl
    | some placement => rw [hplacement] at hown; exact hown
  | cons i rest ih =>
    obtain ⟨m, hm, hx⟩ := at?_cons_eq_some_iff.mp hx
    have hvalue := ih (h.branch (List.mem_of_getElem? hm)) hx
    have hown := h.own
    unfold HangsFrom at hown
    rw [placementsTo, hm, Option.elim_some, List.foldl_append, hvalue]
    cases hplacement : n.placement with
    | none => rw [hplacement] at hown; rw [hown]; rfl
    | some placement => rw [hplacement] at hown; rw [hown]; rfl

/-- A node has the world object of its nearest placed node, or that from above. -/
theorem world_eq_of_anchor? (h : n.Hangs parent) (hx : n.at? address = some x) :
    (n.anchor? address = none ∧ x.world = parent) ∨
      ∃ p z, n.anchor? address = some p ∧ n.at? p = some z ∧ z.placement.isSome ∧
        x.world = z.world := by
  induction address generalizing n parent with
  | nil =>
    obtain rfl := Option.some.inj hx
    have hown := h.own
    unfold HangsFrom at hown
    cases hplacement : n.placement with
    | none =>
      rw [hplacement] at hown
      exact .inl ⟨by simp [anchor?, hplacement], hown⟩
    | some placement =>
      exact .inr ⟨[], n, by simp [anchor?, hplacement], rfl, by simp [hplacement], rfl⟩
  | cons i rest ih =>
    obtain ⟨m, hm, hx⟩ := at?_cons_eq_some_iff.mp hx
    rcases ih (h.branch (List.mem_of_getElem? hm)) hx with ⟨hnone, hworld⟩ | ⟨p, z, hp, hz, hrest⟩
    · have hown := h.own
      unfold HangsFrom at hown
      cases hplacement : n.placement with
      | none =>
        rw [hplacement] at hown
        exact .inl ⟨by simp [anchor?, hm, hnone, hplacement], hworld.trans hown⟩
      | some placement =>
        exact .inr ⟨[], n, by simp [anchor?, hm, hnone, hplacement], rfl, by simp [hplacement],
          hworld⟩
    · refine .inr ⟨i :: p, z, by simp [anchor?, hm, hp], ?_, hrest⟩
      exact at?_cons_eq_some_iff.mpr ⟨m, hm, hz⟩

/-- **Two nodes share a world** exactly if they have the same nearest placed node, or both none. -/
theorem world_id_eq_iff (h : n.Hangs parent) (hnodup : n.numbers.Nodup)
    (hparent : parent.id ∉ n.numbers) (hx : n.at? address = some x)
    (hy : n.at? address' = some y) :
    x.world.id = y.world.id ↔ n.anchor? address = n.anchor? address' := by
  rcases h.world_eq_of_anchor? hx with ⟨hanchor, hworld⟩ | ⟨p, z, hanchor, hz, hplaced, hworld⟩
  · rcases h.world_eq_of_anchor? hy with
      ⟨hanchor', hworld'⟩ | ⟨p', z', hanchor', hz', hplaced', hworld'⟩
    · simp [hanchor, hanchor', hworld, hworld']
    · have hne : parent.id ≠ z'.world.id := fun hid =>
        hparent (hid ▸ mem_numbers_of_at? hz' hplaced')
      simp [hanchor, hanchor', hworld, hworld', hne]
  · rcases h.world_eq_of_anchor? hy with
      ⟨hanchor', hworld'⟩ | ⟨p', z', hanchor', hz', hplaced', hworld'⟩
    · have hne : z.world.id ≠ parent.id := fun hid =>
        hparent (hid ▸ mem_numbers_of_at? hz hplaced)
      simp [hanchor, hanchor', hworld, hworld', hne]
    · rw [hanchor, hanchor', hworld, hworld', Option.some.injEq]
      constructor
      · exact fun hid => eq_of_world_id hnodup hz hz' hplaced hplaced' hid
      · rintro rfl
        rw [Option.some.inj (hz.symm.trans hz')]

/-- A branch without a placement has the world object of its node, one with a placement never. -/
theorem world_branch (h : n.Hangs parent) (hnodup : n.numbers.Nodup)
    (hparent : parent.id ∉ n.numbers) (hx : x ∈ n.preorder) (hm : m ∈ x.branches) :
    (m.placement = none → m.world = x.world) ∧
      (m.placement.isSome → m.world.id ≠ x.world.id) := by
  constructor
  · intro hplacement
    have hown := h.below x hx m hm
    unfold HangsFrom at hown
    rwa [hplacement] at hown
  · intro hplaced hid
    obtain ⟨address, hat⟩ := exists_at?_of_mem_preorder hx
    obtain ⟨i, hi⟩ := List.mem_iff_getElem?.mp hm
    have hatm : n.at? (address ++ [i]) = some m := by
      rw [at?_append, hat]
      exact at?_cons_eq_some_iff.mpr ⟨m, hi, rfl⟩
    rcases h.world_eq_of_anchor? hat with ⟨-, hworld⟩ | ⟨p, z, hanchor, hz, hzplaced, hworld⟩
    · rw [hworld] at hid
      exact hparent (hid ▸ mem_numbers_of_at? hatm hplaced)
    · rw [hworld] at hid
      -- The nearest placed node of the one above is not further down than that one.
      have hlength := (anchor?_isPrefix hanchor).length_le
      have haddress := eq_of_world_id hnodup hatm hz hplaced hzplaced hid
      rw [← haddress, List.length_append, List.length_singleton] at hlength
      omega

end Hangs

/-! ## 4. Trees with new worlds -/

/-- Trees side by side below one world, all their numbers new. -/
structure HangAll (parent : Shared (Affine K)) (lo hi : Nat) (ns : List (SceneNode K)) : Prop where
  each : ∀ n ∈ ns, n.Hangs parent
  numbers : NewNumbers lo hi (ns.flatMap SceneNode.numbers)

namespace HangAll

variable {parent : Shared (Affine K)} {lo mid hi : Nat} {n : SceneNode K}
  {ns ms : List (SceneNode K)}

theorem nil (h : lo ≤ hi) : HangAll parent lo hi [] := ⟨by simp, .nil h⟩

theorem append (h : HangAll parent lo mid ns) (h' : HangAll parent mid hi ms) :
    HangAll parent lo hi (ns ++ ms) where
  each n hn := by
    rcases List.mem_append.mp hn with hn | hn
    · exact h.each n hn
    · exact h'.each n hn
  numbers := by
    rw [List.flatMap_append]
    exact h.numbers.append h'.numbers

theorem perm (h : HangAll parent lo hi ns) (hperm : ns.Perm ms) : HangAll parent lo hi ms where
  each n hn := h.each n (hperm.mem_iff.mpr hn)
  numbers := h.numbers.perm (hperm.flatMap_right _)

theorem widen (h : HangAll parent mid hi ns) (hlo : lo ≤ mid) : HangAll parent lo hi ns :=
  ⟨h.each, h.numbers.widen hlo⟩

/-- A node whose branches hang below its own world. -/
theorem node {a b : Arena}
    (hworld : placeIn parent n.placement a = (n.world, b))
    (hbranches : HangAll n.world b.next hi n.branches) : HangAll parent a.next hi [n] where
  each m hm := by
    rw [List.mem_singleton.mp hm]
    refine .of_branches ?_ hbranches.each
    unfold HangsFrom
    cases hplacement : n.placement with
    | none => rw [hplacement] at hworld; exact (congrArg Prod.fst hworld).symm
    | some m =>
      rw [hplacement] at hworld
      exact congrArg (Shared.value ∘ Prod.fst) hworld.symm
  numbers := by
    rw [List.flatMap_singleton, numbers_eq]
    refine NewNumbers.append ?_ hbranches.numbers
    cases hplacement : n.placement with
    | none =>
      rw [hplacement] at hworld
      have harena : a = b := congrArg Prod.snd hworld
      exact .nil (Nat.le_of_eq (congrArg Arena.next harena))
    | some m =>
      rw [hplacement] at hworld
      have hid : n.world.id = a.next := congrArg (Shared.id ∘ Prod.fst) hworld.symm
      have hnext : b.next = a.next + 1 := congrArg (Arena.next ∘ Prod.snd) hworld.symm
      refine ⟨by omega, List.nodup_singleton _, fun k hk => ?_⟩
      have hk : k = n.world.id := List.mem_singleton.mp hk
      omega

end HangAll

/-! ## 5. Placing anew -/

/-- **Placing a tree anew hangs it below the new world**, with new numbers. -/
theorem hangAll_rebase (n : SceneNode K) (parent : Shared (Affine K)) (a : Arena) :
    HangAll parent a.next (n.rebase parent a).2.next [(n.rebase parent a).1] := by
  induction n using branches_induction generalizing parent a with
  | h n ih =>
    obtain ⟨world, b, hworld, hown, hbranches, harena⟩ := rebase_branches parent n a
    have hall : ∀ (ns : List (SceneNode K)) (b : Arena), (∀ m ∈ ns, m ∈ n.branches) →
        HangAll world b.next (rebaseAll world ns b).2.next (rebaseAll world ns b).1 := by
      intro ns
      induction ns with
      | nil => exact fun b _ => .nil (Nat.le_refl _)
      | cons m rest ihrest =>
        intro b hsub
        rw [rebaseAll_cons]
        have hfirst := ih m (hsub m List.mem_cons_self) world b
        exact hfirst.append (ihrest (m.rebase world b).2 fun m' hm' =>
          hsub m' (List.mem_cons_of_mem m hm'))
    refine HangAll.node (b := b) ?_ ?_
    · rw [rebase_placement, hown, hworld]
    · rw [hown, hbranches, harena]
      exact hall n.branches b fun m hm => hm

/-! ## 6. Adding shadow flags -/

section Adding

variable (cast receive : Bool)

theorem numbers_addShadows {K : Type} (cast receive : Bool) (n : SceneNode K) :
    (n.addShadows cast receive).numbers = n.numbers := by
  induction n using branches_induction with
  | h n ih =>
    rw [numbers_eq, numbers_eq, addShadows_placement, addShadows_world, addShadows_branches,
      List.flatMap_map, List.flatMap_congr ih]

theorem hangs_addShadows {parent : Shared (Affine K)} {n : SceneNode K} (h : n.Hangs parent) :
    (n.addShadows cast receive).Hangs parent := by
  induction n using branches_induction generalizing parent with
  | h n ih =>
    refine .of_branches ?_ fun m hm => ?_
    · have hown := h.own
      unfold HangsFrom at hown ⊢
      rwa [addShadows_placement, addShadows_world]
    · rw [addShadows_branches] at hm
      obtain ⟨b, hb, rfl⟩ := List.mem_map.mp hm
      rw [addShadows_world]
      exact ih b hb (h.branch hb)

theorem HangAll.addShadows {parent : Shared (Affine K)} {lo hi : Nat} {n : SceneNode K}
    (h : HangAll parent lo hi [n]) : HangAll parent lo hi [n.addShadows cast receive] where
  each m hm := by
    rw [List.mem_singleton.mp hm]
    exact hangs_addShadows cast receive (h.each n (List.mem_singleton_self n))
  numbers := by
    have hnumbers := h.numbers
    rw [List.flatMap_singleton] at hnumbers ⊢
    rwa [numbers_addShadows]

end Adding

end SceneNode

end SceneAssembly
