/-
  SceneAssembly/Proofs/Search.lean
  ================================
  **One order for walking, searching, changing and printing.**

  A node can occur in a tree many times, so the walk is told apart by addresses:
  `occurrences` lists each address of the tree with its node, in ascending order
  of the addresses, which is the order of the walk (`map_snd_occurrences`,
  `occurrences_ordered`).  A search finds the first occurrence of a name
  (`find?_eq_occurrence`), a change puts another subtree in the place of just that
  occurrence (`modify?_eq_put`, `isPutAt_put`), and an outline has a line for each
  occurrence, with the length of its address for depth (`outline_eq`).
-/
import Mathlib.Data.List.Basic
import SceneAssembly.Outline
import SceneAssembly.Proofs.Branches

namespace SceneAssembly.SceneNode

variable {K : Type}

/-! ## 1. Occurrences -/

/-- What an occurrence in a branch is in the node above. -/
def fromAbove (i : Nat) (o : List Nat × SceneNode K) : List Nat × SceneNode K := (i :: o.1, o.2)

mutual

/-- The addresses of a subtree with their nodes, in the order of the walk. -/
def occurrences : SceneNode K → List (List Nat × SceneNode K)
  | n@⟨_, _, _, _, _, none, children, _, _⟩ => ([], n) :: occurrencesAll 0 children
  | n@⟨_, _, _, _, _, some ⟨levels⟩, children, _, _⟩ =>
    ([], n) :: (occurrencesAll 0 children ++ occurrencesLevels children.length levels)

/-- The same for branches, given the position of the first one. -/
def occurrencesAll (i : Nat) : List (SceneNode K) → List (List Nat × SceneNode K)
  | [] => []
  | n :: rest => (occurrences n).map (fromAbove i) ++ occurrencesAll (i + 1) rest

def occurrencesLevels (i : Nat) : List (Level K (SceneNode K)) → List (List Nat × SceneNode K)
  | [] => []
  | ⟨_, n⟩ :: rest => (occurrences n).map (fromAbove i) ++ occurrencesLevels (i + 1) rest

end

theorem occurrencesAll_eq (i : Nat) (ns : List (SceneNode K)) : occurrencesAll i ns =
    (ns.zipIdx i).flatMap fun b => b.1.occurrences.map (fromAbove b.2) := by
  induction ns generalizing i with
  | nil => rfl
  | cons n rest ih => rw [occurrencesAll, ih, List.zipIdx_cons, List.flatMap_cons]

theorem occurrencesLevels_eq (i : Nat) (ls : List (Level K (SceneNode K))) :
    occurrencesLevels i ls = occurrencesAll i (ls.map Level.node) := by
  induction ls generalizing i with
  | nil => rfl
  | cons l rest ih => rw [occurrencesLevels, ih, List.map_cons, occurrencesAll]

theorem occurrences_eq (n : SceneNode K) : n.occurrences =
    ([], n) :: n.branches.zipIdx.flatMap fun b => b.1.occurrences.map (fromAbove b.2) := by
  obtain ⟨name, placement, world, mesh, light, lod, children, cast, receive⟩ := n
  rcases lod with _ | ⟨⟨levels⟩⟩
  · simp [occurrences, occurrencesAll_eq, branches, SceneNode.levels]
  · simp [occurrences, occurrencesLevels_eq, occurrencesAll_eq, branches, SceneNode.levels,
      List.zipIdx_append]

theorem flatMap_zipIdx {α β : Type} (l : List α) (f : α → List β) :
    (l.zipIdx.flatMap fun b => f b.1) = l.flatMap f := by
  have h := congrArg (·.flatMap f) (List.zipIdx_map_fst 0 l)
  exact (List.flatMap_map _ _ _).symm.trans h

theorem mem_branches_of_zipIdx {n : SceneNode K} {b : SceneNode K × Nat}
    (hb : b ∈ n.branches.zipIdx) : b.1 ∈ n.branches :=
  List.mem_of_getElem? (List.mem_zipIdx_iff_getElem?.mp hb)

/-- The walk takes the nodes in the order of their occurrences. -/
theorem map_snd_occurrences (n : SceneNode K) : n.occurrences.map Prod.snd = n.preorder := by
  induction n using branches_induction with
  | h n ih =>
    rw [occurrences_eq, preorder_eq, List.map_cons, List.map_flatMap,
      ← flatMap_zipIdx n.branches preorder]
    refine congrArg (List.cons n) (List.flatMap_congr fun b hb => ?_)
    rw [← ih b.1 (mem_branches_of_zipIdx hb), List.map_map]
    rfl

theorem mem_occurrences_iff {n m : SceneNode K} {address : List Nat} :
    (address, m) ∈ n.occurrences ↔ n.at? address = some m := by
  induction n using branches_induction generalizing address with
  | h n ih =>
    rw [occurrences_eq, List.mem_cons, List.mem_flatMap]
    cases address with
    | nil => simp [fromAbove, at?, eq_comm]
    | cons i rest =>
      rw [at?_cons_eq_some_iff]
      constructor
      · rintro (h | ⟨b, hb, h⟩)
        · cases h
        · obtain ⟨o, ho, heq⟩ := List.mem_map.mp h
          obtain ⟨⟨rfl, rfl⟩, rfl⟩ : (b.2 = i ∧ o.1 = rest) ∧ o.2 = m := by
            simpa [fromAbove] using heq
          exact ⟨b.1, List.mem_zipIdx_iff_getElem?.mp hb,
            (ih b.1 (mem_branches_of_zipIdx hb)).mp ho⟩
      · rintro ⟨b, hb, hm⟩
        have ho := (ih b (List.mem_of_getElem? hb)).mpr hm
        exact .inr ⟨(b, i), List.mem_zipIdx_iff_getElem?.mpr hb, List.mem_map.mpr ⟨_, ho, rfl⟩⟩

theorem zipIdx_ordered {α : Type} (l : List α) (i : Nat) :
    (l.zipIdx i).Pairwise fun a b => a.2 < b.2 := by
  induction l generalizing i with
  | nil => exact .nil
  | cons a rest ih =>
    exact List.pairwise_cons.mpr ⟨fun b hb => List.le_snd_of_mem_zipIdx hb, ih (i + 1)⟩

/-- The addresses come in ascending order, a node before those below it and each branch before the
    next one. -/
theorem occurrences_ordered (n : SceneNode K) :
    n.occurrences.Pairwise fun o o' => o.1 < o'.1 := by
  induction n using branches_induction with
  | h n ih =>
    rw [occurrences_eq, List.pairwise_cons, List.pairwise_flatMap]
    refine ⟨fun o ho => ?_, fun b hb => ?_,
      (zipIdx_ordered n.branches 0).imp fun hlt o ho o' ho' => ?_⟩
    · obtain ⟨b, -, ho⟩ := List.mem_flatMap.mp ho
      obtain ⟨o, -, rfl⟩ := List.mem_map.mp ho
      exact List.nil_lt_cons b.2 o.1
    · rw [List.pairwise_map]
      refine (ih b.1 (mem_branches_of_zipIdx hb)).imp fun hlt => ?_
      exact List.cons_lt_cons_iff.mpr (.inr ⟨rfl, hlt⟩)
    · obtain ⟨o, -, rfl⟩ := List.mem_map.mp ho
      obtain ⟨o', -, rfl⟩ := List.mem_map.mp ho'
      exact List.cons_lt_cons_iff.mpr (.inl hlt)

/-! ## 2. Searching -/

theorem findAll?_eq (name : String) (ns : List (SceneNode K)) :
    findAll? name ns = ns.findSome? (find? name) := by
  induction ns with
  | nil => rfl
  | cons n rest ih =>
    rw [findAll?, List.findSome?_cons, ih]
    cases find? name n <;> rfl

theorem findLevels?_eq (name : String) (ls : List (Level K (SceneNode K))) :
    findLevels? name ls = (ls.map Level.node).findSome? (find? name) := by
  induction ls with
  | nil => rfl
  | cons l rest ih =>
    rw [findLevels?, List.map_cons, List.findSome?_cons, ih]
    cases find? name l.node <;> rfl

theorem find?_eq_branches (name : String) (n : SceneNode K) : n.find? name =
    if n.name = name then some n else n.branches.findSome? (find? name) := by
  obtain ⟨own, placement, world, mesh, light, lod, children, cast, receive⟩ := n
  rcases lod with _ | ⟨⟨levels⟩⟩
  · simp [find?, findAll?_eq, branches, SceneNode.levels]
  · rw [find?, findAll?_eq, findLevels?_eq, branches, List.findSome?_append]
    cases children.findSome? (find? name) <;> rfl

theorem findSome?_congr {α β : Type} {f g : α → Option β} {l : List α} (h : ∀ a ∈ l, f a = g a) :
    l.findSome? f = l.findSome? g := by
  induction l with
  | nil => rfl
  | cons a rest ih =>
    rw [List.forall_mem_cons] at h
    rw [List.findSome?_cons, List.findSome?_cons, h.1, ih h.2]

/-- A search finds the first node of the walk that has the name. -/
theorem find?_eq_preorder (name : String) (n : SceneNode K) :
    n.find? name = n.preorder.find? fun m => m.name = name := by
  induction n using branches_induction with
  | h n ih =>
    rw [find?_eq_branches, preorder_eq, List.find?_cons, List.find?_flatMap, findSome?_congr ih]
    by_cases hname : n.name = name <;> simp [hname]

/-- The first occurrence of a name. -/
def firstOccurrence? (name : String) (n : SceneNode K) : Option (List Nat × SceneNode K) :=
  n.occurrences.find? fun o => o.2.name = name

theorem find?_eq_occurrence (name : String) (n : SceneNode K) :
    n.find? name = (n.firstOccurrence? name).map Prod.snd := by
  rw [find?_eq_preorder, ← map_snd_occurrences, List.find?_map]
  rfl

theorem find?_eq_none_iff {name : String} {n : SceneNode K} :
    n.find? name = none ↔ ∀ m ∈ n.preorder, m.name ≠ name := by
  simp [find?_eq_preorder]

/-! ## 3. Putting a subtree in the place of another -/

/-- The node with another node for a branch. -/
def setBranch (n : SceneNode K) (i : Nat) (m : SceneNode K) : SceneNode K :=
  if i < n.children.length then { n with children := n.children.set i m }
  else { n with lod := n.lod.map fun lod =>
    ⟨lod.levels.modify (i - n.children.length) fun l => { l with node := m }⟩ }

/-- The tree with another subtree at an address of it. -/
def put (n : SceneNode K) (m : SceneNode K) : List Nat → SceneNode K
  | [] => m
  | i :: rest =>
    match n.branches[i]? with
    | some b => n.setBranch i (b.put m rest)
    | none => n

/-- A node without what is below it, the number of its children, and the distances of its levels. -/
def trunk (n : SceneNode K) : SceneNode K × Nat × Option (List K) :=
  ({ n with lod := none, children := [] }, n.children.length,
    n.lod.map fun lod => lod.levels.map Level.minDistance)

section Putting

variable {n m : SceneNode K} {i : Nat} {address other : List Nat}

@[simp] theorem trunk_setBranch (n : SceneNode K) (i : Nat) (m : SceneNode K) :
    (n.setBranch i m).trunk = n.trunk := by
  unfold setBranch
  split
  · simp [trunk]
  · simp only [trunk, Option.map_map]
    refine congrArg (fun distances => (_, n.children.length, distances))
      (congrFun (congrArg _ ?_) _)
    funext lod
    refine List.ext_getElem? fun j => ?_
    simp only [Function.comp_apply, List.getElem?_map, List.getElem?_modify]
    cases lod.levels[j]? with
    | none => rfl
    | some l => by_cases hj : i - n.children.length = j <;> simp [hj]

theorem map_node_modify (ls : List (Level K (SceneNode K))) (j : Nat) (m : SceneNode K) :
    (ls.modify j fun l => { l with node := m }).map Level.node = (ls.map Level.node).set j m := by
  refine List.ext_getElem? fun k => ?_
  rw [List.getElem?_map, List.getElem?_modify, List.getElem?_set', List.getElem?_map]
  cases ls[k]? with
  | none => by_cases hk : j = k <;> simp [hk]
  | some l => by_cases hk : j = k <;> simp [hk]

@[simp] theorem branches_setBranch (n : SceneNode K) (i : Nat) (m : SceneNode K) :
    (n.setBranch i m).branches = n.branches.set i m := by
  have hset : n.branches.set i m = if i < n.children.length
      then n.children.set i m ++ n.levels.map Level.node
      else n.children ++ (n.levels.map Level.node).set (i - n.children.length) m := List.set_append
  rw [hset, setBranch]
  split
  · rfl
  · obtain ⟨name, placement, world, mesh, light, lod, children, cast, receive⟩ := n
    rcases lod with _ | ⟨⟨levels⟩⟩
    · rfl
    · exact congrArg (children ++ ·) (map_node_modify levels (i - children.length) m)

theorem at?_cons_of_branch {b : SceneNode K} (hb : n.branches[i]? = some b) (rest : List Nat) :
    n.at? (i :: rest) = b.at? rest := by
  rw [at?, hb, Option.bind_some]

theorem at?_setBranch_self {b : SceneNode K} (hb : n.branches[i]? = some b) (m : SceneNode K)
    (rest : List Nat) : (n.setBranch i m).at? (i :: rest) = m.at? rest := by
  obtain ⟨hi, -⟩ := List.getElem?_eq_some_iff.mp hb
  apply at?_cons_of_branch
  rw [branches_setBranch, List.getElem?_set_self hi]

theorem at?_setBranch_ne {j : Nat} (hij : i ≠ j) (rest : List Nat) :
    (n.setBranch i m).at? (j :: rest) = n.at? (j :: rest) := by
  rw [at?, at?, branches_setBranch, List.getElem?_set_ne hij]

/-- Where the new subtree is put, it is found with all that is below it. -/
theorem at?_put_below {x : SceneNode K} (h : n.at? address = some x) (rest : List Nat) :
    (n.put m address).at? (address ++ rest) = m.at? rest := by
  induction address generalizing n with
  | nil => rfl
  | cons i address ih =>
    obtain ⟨b, hb, hx⟩ := at?_cons_eq_some_iff.mp h
    rw [put, hb, List.cons_append, at?_setBranch_self hb, ih hx]

/-- Other subtrees, which neither hold the address nor lie below it, are as they were. -/
theorem at?_put_apart (hbelow : ¬ address <+: other) (habove : ¬ other <+: address) :
    (n.put m address).at? other = n.at? other := by
  induction address generalizing n other with
  | nil => exact absurd List.nil_prefix hbelow
  | cons i address ih =>
    cases other with
    | nil => exact absurd List.nil_prefix habove
    | cons j other =>
      rw [put]
      split
      next b hb =>
        by_cases hij : i = j
        · subst hij
          simp only [List.cons_prefix_cons, true_and] at hbelow habove
          rw [at?_setBranch_self hb, at?_cons_of_branch hb, ih hbelow habove]
        · exact at?_setBranch_ne hij other
      next => rfl

/-- Nodes that do not lie below the address are as they were, but for what is below them. -/
theorem trunk_at?_put (hbelow : ¬ address <+: other) :
    ((n.put m address).at? other).map trunk = (n.at? other).map trunk := by
  induction address generalizing n other with
  | nil => exact absurd List.nil_prefix hbelow
  | cons i address ih =>
    rw [put]
    split
    next b hb =>
      cases other with
      | nil => exact congrArg some (trunk_setBranch _ _ _)
      | cons j other =>
        by_cases hij : i = j
        · subst hij
          simp only [List.cons_prefix_cons, true_and] at hbelow
          rw [at?_setBranch_self hb, at?_cons_of_branch hb, ih hbelow]
        · rw [at?_setBranch_ne hij]
    next => rfl

end Putting

/-- In a tree `n` the subtree `m` at an address has been exchanged for `m'`. -/
structure IsPutAt (n n' : SceneNode K) (address : List Nat) (m m' : SceneNode K) : Prop where
  before : n.at? address = some m
  after : ∀ rest, n'.at? (address ++ rest) = m'.at? rest
  /-- Subtrees that neither hold the address nor lie below it are the same. -/
  apart : ∀ other, ¬ address <+: other → ¬ other <+: address → n'.at? other = n.at? other
  /-- Nodes above it are the same, but for what is below them. -/
  above : ∀ other, ¬ address <+: other → (n'.at? other).map trunk = (n.at? other).map trunk
  /-- If the exchange keeps what is below the address, no other node is changed at all. -/
  alone : m'.branches = m.branches →
    ∀ other ≠ address, (n'.at? other).map trunk = (n.at? other).map trunk

theorem isPutAt_put {n m : SceneNode K} {address : List Nat} (h : n.at? address = some m)
    (m' : SceneNode K) : n.IsPutAt (n.put m' address) address m m' where
  before := h
  after := at?_put_below h
  apart _ := at?_put_apart
  above _ := trunk_at?_put
  alone hbranches other hother := by
    by_cases hbelow : address <+: other
    · obtain ⟨rest, rfl⟩ := hbelow
      rw [at?_put_below h, at?_append, h, Option.bind_some]
      cases rest with
      | nil => exact absurd (List.append_nil address) hother
      | cons i rest => rw [at?, at?, hbranches]
    · exact trunk_at?_put hbelow

/-! ## 4. Changing the node that is found -/

theorem findSome?_zipIdx_cons {α β : Type} (a : α) (l : List α) (F : α × Nat → Option β) :
    (a :: l).zipIdx.findSome? F =
      (F (a, 0)).or (l.zipIdx.findSome? fun b => F (b.1, b.2 + 1)) := by
  rw [List.zipIdx_cons, List.findSome?_cons, List.zipIdx_succ, List.findSome?_map]
  cases F (a, 0) <;> rfl

section Changing

variable (name : String) (f : SceneNode K → SceneNode K)

theorem modifyAll?_eq (ns : List (SceneNode K)) : modifyAll? name f ns =
    ns.zipIdx.findSome? fun b => (b.1.modify? name f).map fun m => ns.set b.2 m := by
  induction ns with
  | nil => rfl
  | cons n rest ih =>
    have hrest : (rest.zipIdx.findSome? fun b =>
        (b.1.modify? name f).map fun m => (n :: rest).set (b.2 + 1) m) =
          (modifyAll? name f rest).map (n :: ·) := by
      rw [ih, List.map_findSome?]
      exact findSome?_congr fun b _ => (Option.map_map ..).symm
    rw [modifyAll?, findSome?_zipIdx_cons, hrest]
    cases n.modify? name f with
    | some m => rfl
    | none => cases modifyAll? name f rest <;> rfl

theorem modifyLevels?_eq (ls : List (Level K (SceneNode K))) : modifyLevels? name f ls =
    (ls.map Level.node).zipIdx.findSome? fun b => (b.1.modify? name f).map fun m =>
      ls.modify b.2 fun l => { l with node := m } := by
  induction ls with
  | nil => rfl
  | cons l rest ih =>
    have hrest : ((rest.map Level.node).zipIdx.findSome? fun b => (b.1.modify? name f).map fun m =>
        (l :: rest).modify (b.2 + 1) fun l => { l with node := m }) =
          (modifyLevels? name f rest).map (l :: ·) := by
      rw [ih, List.map_findSome?]
      refine findSome?_congr fun b _ => ?_
      rw [Function.comp_apply, Option.map_map]
      exact congrFun (congrArg _ (funext fun m => List.modify_succ_cons ..)) _
    rw [modifyLevels?, List.map_cons, findSome?_zipIdx_cons, hrest]
    cases l.node.modify? name f with
    | some m => rfl
    | none => cases modifyLevels? name f rest <;> rfl

variable (n : SceneNode K)

theorem modify_children : (n.children.zipIdx.findSome? fun b =>
    (b.1.modify? name f).map (n.setBranch b.2)) =
      (modifyAll? name f n.children).map fun children => { n with children := children } := by
  rw [modifyAll?_eq, List.map_findSome?]
  refine findSome?_congr fun b hb => ?_
  have hi : b.2 < n.children.length :=
    (List.getElem?_eq_some_iff.mp (List.mem_zipIdx_iff_getElem?.mp hb)).1
  rw [Function.comp_apply, Option.map_map]
  refine congrFun (congrArg _ (funext fun m => ?_)) _
  exact if_pos hi

theorem modify_levels {levels : List (Level K (SceneNode K))} (hlod : n.lod = some ⟨levels⟩) :
    (((levels.map Level.node).zipIdx n.children.length).findSome? fun b =>
      (b.1.modify? name f).map (n.setBranch b.2)) =
        (modifyLevels? name f levels).map fun levels => { n with lod := some ⟨levels⟩ } := by
  rw [modifyLevels?_eq, List.map_findSome?, List.zipIdx_eq_map_add, List.findSome?_map]
  refine findSome?_congr fun b _ => ?_
  rw [Function.comp_apply, Function.comp_apply, Option.map_map]
  refine congrFun (congrArg _ (funext fun m => ?_)) _
  have hi : ¬ n.children.length + b.2 < n.children.length := Nat.not_lt.mpr (Nat.le_add_right _ _)
  rw [setBranch, if_neg hi, hlod, Nat.add_sub_cancel_left]
  rfl

/-- A node without the name is changed in the first of its branches that can be changed. -/
theorem modify?_eq_branches : n.modify? name f = if n.name = name then some (f n)
    else n.branches.zipIdx.findSome? fun b => (b.1.modify? name f).map (n.setBranch b.2) := by
  have hchildren := modify_children name f n
  obtain ⟨own, placement, world, mesh, light, lod, children, cast, receive⟩ := n
  rcases lod with _ | ⟨⟨levels⟩⟩
  · have hbranches : (⟨own, placement, world, mesh, light, none, children, cast, receive⟩ :
        SceneNode K).branches = children := List.append_nil children
    rw [hbranches, hchildren, modify?]
    cases modifyAll? name f children <;> rfl
  · have hlevels := modify_levels name f
      ⟨own, placement, world, mesh, light, some ⟨levels⟩, children, cast, receive⟩ rfl
    rw [branches, List.zipIdx_append, List.findSome?_append, hchildren, Nat.zero_add]
    refine Eq.trans ?_ (congrArg (fun changed => if own = name then _ else Option.or _ changed)
      hlevels.symm)
    rw [modify?]
    cases modifyAll? name f children with
    | some children => rfl
    | none => cases modifyLevels? name f levels <;> rfl

/-- A change puts the changed node in the place of the first occurrence of the name. -/
theorem modify?_eq_put : n.modify? name f =
    (n.firstOccurrence? name).map fun o => n.put (f o.2) o.1 := by
  induction n using branches_induction with
  | h n ih =>
    rw [modify?_eq_branches, firstOccurrence?, occurrences_eq, List.find?_cons, List.find?_flatMap]
    by_cases hname : n.name = name
    · simp [hname, put]
    · simp only [hname, if_false, decide_false, List.map_findSome?]
      refine findSome?_congr fun b hb => ?_
      have hbranch := List.mem_zipIdx_iff_getElem?.mp hb
      rw [Function.comp_apply, ih b.1 (mem_branches_of_zipIdx hb), List.find?_map, Option.map_map,
        Option.map_map]
      refine congrFun (congrArg _ (funext fun o => ?_)) _
      simp only [Function.comp_apply, fromAbove, put, hbranch]

end Changing

/-! ## 5. Printing -/

theorem outlineAll_eq (depth : Nat) (ns : List (SceneNode K)) :
    outlineAll depth ns = ns.flatMap (outline depth) := by
  induction ns with
  | nil => rfl
  | cons n rest ih => rw [outlineAll, ih, List.flatMap_cons]

theorem outlineLevels_eq (depth : Nat) (ls : List (Level K (SceneNode K))) :
    outlineLevels depth ls = (ls.map Level.node).flatMap (outline depth) := by
  induction ls with
  | nil => rfl
  | cons l rest ih => rw [outlineLevels, ih, List.map_cons, List.flatMap_cons]

theorem outline_eq_branches (depth : Nat) (n : SceneNode K) :
    n.outline depth = n.line depth :: n.branches.flatMap (outline (depth + 1)) := by
  obtain ⟨name, placement, world, mesh, light, lod, children, cast, receive⟩ := n
  rcases lod with _ | ⟨⟨levels⟩⟩
  · simp [outline, outlineAll_eq, branches, SceneNode.levels]
  · simp [outline, outlineAll_eq, outlineLevels_eq, branches, SceneNode.levels]

/-- An outline has a line for each occurrence, at the depth that its address says. -/
theorem outline_eq (depth : Nat) (n : SceneNode K) :
    n.outline depth = n.occurrences.map fun o => o.2.line (depth + o.1.length) := by
  induction n using branches_induction generalizing depth with
  | h n ih =>
    rw [outline_eq_branches, occurrences_eq, List.map_cons, List.map_flatMap,
      ← flatMap_zipIdx n.branches (outline (depth + 1))]
    refine congrArg (List.cons _) (List.flatMap_congr fun b hb => ?_)
    rw [ih b.1 (mem_branches_of_zipIdx hb), List.map_map]
    refine List.map_congr_left fun o _ => ?_
    simp only [Function.comp_apply, fromAbove, List.length_cons]
    rw [Nat.add_assoc, Nat.add_comm 1]

/-! ## 6. All four together -/

/-- The walk through a tree takes each occurrence of a node once, in order. -/
structure IsWalked (n : SceneNode K) : Prop where
  nodes : n.preorder = n.occurrences.map Prod.snd
  mem_iff : ∀ address m, (address, m) ∈ n.occurrences ↔ n.at? address = some m
  ordered : n.occurrences.Pairwise fun o o' => o.1 < o'.1
  size : n.size = n.occurrences.length
  /-- A line for each node, indented by two blanks for each step of its depth. -/
  outline : ∀ depth, n.outline depth = n.occurrences.map fun o =>
    "".pushn ' ' (2 * (depth + o.1.length)) ++ o.2.name ++ " " ++ " ".intercalate o.2.tags

theorem isWalked (n : SceneNode K) : n.IsWalked where
  nodes := (map_snd_occurrences n).symm
  mem_iff _ _ := mem_occurrences_iff
  ordered := occurrences_ordered n
  size := by rw [SceneNode.size, ← map_snd_occurrences, List.length_map]
  outline depth := outline_eq depth n

/-- **Walking, searching, changing and printing take the nodes of a tree in one order**: a node, its
    children and then its levels, each with all that is below it.  A search finds the first node of
    the walk that has the name, if there is one at all.  A change is made to the same occurrence of
    it and to no other node.  The size of a tree is the length of the walk, and its outline has a
    line for each node in this order, indented by its depth. -/
theorem walks_agree (n : SceneNode K) : n.IsWalked ∧ ∀ name : String,
    (n.find? name = n.preorder.find? fun m => m.name = name) ∧
    (n.find? name = none ↔ ∀ m ∈ n.preorder, m.name ≠ name) ∧
    ∀ f : SceneNode K → SceneNode K,
      (n.find? name = none → n.modify? name f = none) ∧
      ∀ m, n.find? name = some m → ∃ address n',
        n.occurrences.find? (fun o => o.2.name = name) = some (address, m) ∧
        n.modify? name f = some n' ∧ n.IsPutAt n' address m (f m) := by
  refine ⟨isWalked n, fun name => ⟨find?_eq_preorder name n, find?_eq_none_iff, fun f => ?_⟩⟩
  rw [find?_eq_occurrence, modify?_eq_put]
  constructor
  · intro hnone
    rw [Option.map_eq_none_iff] at hnone ⊢
    exact hnone
  · intro m hm
    obtain ⟨⟨address, _⟩, hfirst, rfl⟩ := Option.map_eq_some_iff.mp hm
    have hat := mem_occurrences_iff.mp (List.mem_of_find?_eq_some hfirst)
    exact ⟨address, _, hfirst, congrArg (Option.map _) hfirst, isPutAt_put hat (f _)⟩

end SceneAssembly.SceneNode
