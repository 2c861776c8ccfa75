/-
  SceneAssembly/Proofs/Branches.lean
  ==================================
  **Trees seen through their branches.**

  Children and levels are both branches: a walk through a tree takes a node and
  then its branches (`preorder_eq`), placing a subtree anew or adding flags to it
  does the same to each branch (`rebase_branches`, `addShadows_branches`), and
  what holds of a node if it holds of its branches holds of every node
  (`branches_induction`).  An address tells the occurrences of a node in a tree
  apart: it gives the position of each branch on the way down (`at?`).
-/
import SceneAssembly.Proofs.Nodes
import SceneAssembly.SceneNode.Traversal

namespace SceneAssembly.SceneNode

variable {K : Type}

/-! ## 1. Induction -/

section Induction

variable {P : SceneNode K → Prop}

mutual

theorem branches_induction (h : ∀ n, (∀ m ∈ n.branches, P m) → P n) : ∀ n, P n
  | ⟨name, placement, world, mesh, light, none, children, cast, receive⟩ => by
    refine h _ fun m hm => ?_
    have hmem : m ∈ children := by simpa [branches, levels] using hm
    exact branches_inductionAll h children m hmem
  | ⟨name, placement, world, mesh, light, some ⟨levels⟩, children, cast, receive⟩ => by
    refine h _ fun m hm => ?_
    rcases List.mem_append.mp hm with hm | hm
    · exact branches_inductionAll h children m hm
    · obtain ⟨level, hlevel, rfl⟩ := List.mem_map.mp hm
      exact branches_inductionLevels h levels level hlevel

theorem branches_inductionAll (h : ∀ n, (∀ m ∈ n.branches, P m) → P n) :
    ∀ ns : List (SceneNode K), ∀ m ∈ ns, P m
  | [] => by simp
  | n :: rest => List.forall_mem_cons.mpr
      ⟨branches_induction h n, branches_inductionAll h rest⟩

theorem branches_inductionLevels (h : ∀ n, (∀ m ∈ n.branches, P m) → P n) :
    ∀ ls : List (Level K (SceneNode K)), ∀ l ∈ ls, P l.node
  | [] => by simp
  | ⟨distance, n⟩ :: rest => List.forall_mem_cons.mpr
      ⟨branches_induction h n, branches_inductionLevels h rest⟩

end

end Induction

/-! ## 2. Walking -/

theorem preorderAll_eq (ns : List (SceneNode K)) : preorderAll ns = ns.flatMap preorder := by
  induction ns with
  | nil => rfl
  | cons n rest ih => rw [preorderAll, ih, List.flatMap_cons]

theorem preorderLevels_eq (ls : List (Level K (SceneNode K))) :
    preorderLevels ls = (ls.map Level.node).flatMap preorder := by
  induction ls with
  | nil => rfl
  | cons l rest ih => rw [preorderLevels, ih, List.map_cons, List.flatMap_cons]

theorem preorder_eq (n : SceneNode K) : n.preorder = n :: n.branches.flatMap preorder := by
  obtain ⟨name, placement, world, mesh, light, lod, children, cast, receive⟩ := n
  rcases lod with _ | ⟨⟨levels⟩⟩
  · simp [preorder, preorderAll_eq, branches, SceneNode.levels]
  · simp [preorder, preorderAll_eq, preorderLevels_eq, branches, SceneNode.levels]

section Members

variable {n x y : SceneNode K}

theorem mem_preorder_iff : x ∈ n.preorder ↔ x = n ∨ ∃ m ∈ n.branches, x ∈ m.preorder := by
  rw [preorder_eq, List.mem_cons, List.mem_flatMap]

theorem mem_preorder_self (n : SceneNode K) : n ∈ n.preorder := mem_preorder_iff.mpr (.inl rfl)

theorem mem_preorder_of_branch {m : SceneNode K} (hm : m ∈ n.branches) (hx : x ∈ m.preorder) :
    x ∈ n.preorder :=
  mem_preorder_iff.mpr (.inr ⟨m, hm, hx⟩)

theorem mem_preorder_trans (hy : y ∈ n.preorder) (hx : x ∈ y.preorder) : x ∈ n.preorder := by
  induction n using branches_induction with
  | h n ih =>
    rcases mem_preorder_iff.mp hy with rfl | ⟨m, hm, hy⟩
    · exact hx
    · exact mem_preorder_of_branch hm (ih m hm hy)

end Members

/-! ## 3. Addresses -/

/-- The node at an address, which gives the position of each branch to follow. -/
def at? (n : SceneNode K) : List Nat → Option (SceneNode K)
  | [] => some n
  | i :: rest => n.branches[i]?.bind fun m => m.at? rest

theorem at?_cons_eq_some_iff {n x : SceneNode K} {i : Nat} {rest : List Nat} :
    n.at? (i :: rest) = some x ↔ ∃ m, n.branches[i]? = some m ∧ m.at? rest = some x :=
  Option.bind_eq_some_iff

theorem mem_preorder_of_at? {n x : SceneNode K} {address : List Nat}
    (h : n.at? address = some x) : x ∈ n.preorder := by
  induction address generalizing n with
  | nil =>
    obtain rfl := Option.some.inj h
    exact mem_preorder_self n
  | cons i rest ih =>
    obtain ⟨m, hm, hx⟩ := at?_cons_eq_some_iff.mp h
    exact mem_preorder_of_branch (List.mem_of_getElem? hm) (ih hx)

/-- Every node of a tree is at some address. -/
theorem exists_at?_of_mem_preorder {n x : SceneNode K} (h : x ∈ n.preorder) :
    ∃ address, n.at? address = some x := by
  induction n using branches_induction with
  | h n ih =>
    rcases mem_preorder_iff.mp h with rfl | ⟨m, hm, hx⟩
    · exact ⟨[], rfl⟩
    · obtain ⟨i, hi⟩ := List.mem_iff_getElem?.mp hm
      obtain ⟨address, haddress⟩ := ih m hm hx
      exact ⟨i :: address, at?_cons_eq_some_iff.mpr ⟨m, hi, haddress⟩⟩

theorem at?_append {n : SceneNode K} (address rest : List Nat) :
    n.at? (address ++ rest) = (n.at? address).bind fun m => m.at? rest := by
  induction address generalizing n with
  | nil => rfl
  | cons i address ih =>
    rw [List.cons_append, at?, at?]
    cases n.branches[i]? with
    | none => rfl
    | some m => exact ih

/-! ## 4. Adding shadow flags -/

section Adding

variable (cast receive : Bool)

theorem addShadowsAll_eq (ns : List (SceneNode K)) :
    addShadowsAll cast receive ns = ns.map (addShadows cast receive) := by
  induction ns with
  | nil => rfl
  | cons n rest ih => rw [addShadowsAll, ih, List.map_cons]

theorem addShadowsLevels_eq (ls : List (Level K (SceneNode K))) :
    (addShadowsLevels cast receive ls).map Level.node =
      (ls.map Level.node).map (addShadows cast receive) := by
  induction ls with
  | nil => rfl
  | cons l rest ih => rw [addShadowsLevels, List.map_cons, ih, List.map_cons, List.map_cons]

@[simp] theorem addShadows_branches (n : SceneNode K) :
    (n.addShadows cast receive).branches = n.branches.map (addShadows cast receive) := by
  obtain ⟨name, placement, world, mesh, light, lod, children, c, r⟩ := n
  rcases lod with _ | ⟨⟨levels⟩⟩
  · simp [addShadows, branches, SceneNode.levels, addShadowsAll_eq]
  · simp [addShadows, branches, SceneNode.levels, addShadowsAll_eq, addShadowsLevels_eq]

@[simp] theorem addShadows_placement (n : SceneNode K) :
    (n.addShadows cast receive).placement = n.placement := by
  obtain ⟨name, placement, world, mesh, light, lod, children, c, r⟩ := n
  rcases lod with _ | ⟨levels⟩ <;> rw [addShadows]

@[simp] theorem addShadows_world (n : SceneNode K) :
    (n.addShadows cast receive).world = n.world := by
  obtain ⟨name, placement, world, mesh, light, lod, children, c, r⟩ := n
  rcases lod with _ | ⟨levels⟩ <;> rw [addShadows]

theorem addShadows_at? (n : SceneNode K) (address : List Nat) :
    (n.addShadows cast receive).at? address = (n.at? address).map (addShadows cast receive) := by
  induction address generalizing n with
  | nil => rfl
  | cons i rest ih =>
    rw [at?, at?, addShadows_branches, List.getElem?_map]
    cases n.branches[i]? with
    | none => rfl
    | some m => exact ih m

end Adding

/-! ## 5. Placing anew -/

section Rebasing

variable [Scalar K] (parent : Shared (Affine K))

theorem rebaseAll_cons (n : SceneNode K) (rest : List (SceneNode K)) (a : Arena) :
    rebaseAll parent (n :: rest) a =
      ((n.rebase parent a).1 :: (rebaseAll parent rest (n.rebase parent a).2).1,
        (rebaseAll parent rest (n.rebase parent a).2).2) :=
  rfl

theorem rebaseAll_append (ns ms : List (SceneNode K)) (a : Arena) :
    rebaseAll parent (ns ++ ms) a =
      ((rebaseAll parent ns a).1 ++ (rebaseAll parent ms (rebaseAll parent ns a).2).1,
        (rebaseAll parent ms (rebaseAll parent ns a).2).2) := by
  induction ns generalizing a with
  | nil => rfl
  | cons n rest ih =>
    rw [List.cons_append, rebaseAll_cons, rebaseAll_cons, ih]
    rfl

theorem rebaseLevels_eq (ls : List (Level K (SceneNode K))) (a : Arena) :
    (rebaseLevels parent ls a).1.map Level.node = (rebaseAll parent (ls.map Level.node) a).1 ∧
      (rebaseLevels parent ls a).2 = (rebaseAll parent (ls.map Level.node) a).2 := by
  induction ls generalizing a with
  | nil => exact ⟨rfl, rfl⟩
  | cons l rest ih =>
    obtain ⟨hnodes, harena⟩ := ih (l.node.rebase parent a).2
    exact ⟨congrArg (List.cons _) hnodes, harena⟩

/-- Placing a node anew: it gets a world, and then its branches are placed below that world, one
    after the other. -/
theorem rebase_branches (n : SceneNode K) (a : Arena) :
    ∃ world b, placeIn parent n.placement a = (world, b) ∧
      (n.rebase parent a).1.world = world ∧
      (n.rebase parent a).1.branches = (rebaseAll world n.branches b).1 ∧
      (n.rebase parent a).2 = (rebaseAll world n.branches b).2 := by
  obtain ⟨name, placement, world, mesh, light, lod, children, c, r⟩ := n
  refine ⟨_, _, rfl, ?_⟩
  rcases lod with _ | ⟨⟨levels⟩⟩
  · rw [rebase]
    simp only [branches, SceneNode.levels, List.map_nil, List.append_nil]
    exact ⟨rfl, List.append_nil _, rfl⟩
  · rw [rebase]
    simp only [branches, SceneNode.levels, rebaseAll_append]
    obtain ⟨hnodes, harena⟩ := rebaseLevels_eq (placeIn parent placement a).1 levels
      (rebaseAll (placeIn parent placement a).1 children (placeIn parent placement a).2).2
    exact ⟨rfl, congrArg (List.append _) hnodes, harena⟩

@[simp] theorem rebase_placement (n : SceneNode K) (a : Arena) :
    (n.rebase parent a).1.placement = n.placement := by
  obtain ⟨name, placement, world, mesh, light, lod, children, c, r⟩ := n
  rcases lod with _ | ⟨levels⟩ <;> rw [rebase] <;> rfl

/-- Each node placed anew comes from the node at its position. -/
theorem rebaseAll_getElem? (ns : List (SceneNode K)) (a : Arena) (i : Nat) :
    ∃ b, (rebaseAll parent ns a).1[i]? = ns[i]?.map fun n => (n.rebase parent b).1 := by
  induction ns generalizing a i with
  | nil => exact ⟨a, by rw [rebaseAll]; rfl⟩
  | cons n rest ih =>
    cases i with
    | zero => exact ⟨a, rfl⟩
    | succ i => exact ih (n.rebase parent a).2 i

/-- What placing anew leaves alone at each node is the same at all addresses. -/
theorem rebase_at?_map {β : Type} {f : SceneNode K → β}
    (hf : ∀ (n : SceneNode K) parent a, f (n.rebase parent a).1 = f n) (n : SceneNode K)
    (parent : Shared (Affine K)) (a : Arena) (address : List Nat) :
    ((n.rebase parent a).1.at? address).map f = (n.at? address).map f := by
  induction address generalizing n parent a with
  | nil => exact congrArg some (hf n parent a)
  | cons i rest ih =>
    obtain ⟨world, b, -, -, hbranches, -⟩ := rebase_branches parent n a
    obtain ⟨c, hi⟩ := rebaseAll_getElem? world n.branches b i
    rw [at?, at?, hbranches, hi]
    cases n.branches[i]? with
    | none => rfl
    | some m => exact ih m world c

end Rebasing

end SceneAssembly.SceneNode
