/-
  SceneAssembly/Proofs/Walk/Stack.lean
  ====================================
  **The walk ends, and keeps its stack.**

  The walk can be run with one stack of the elements that it is inside of, which
  it changes in place, and with a limit to how often it may be inside of itself
  (`visitWithin`).  Such a run could give up, or come back with another stack
  than it was given.  It does neither: what it returns is what `Walk.visit`
  returns, with the stack as it was, and it returns if the limit is above the
  depth that is left (`mirrors_visit`).

  The stacks at which references are met are the paths from the root (`met`), so
  they hold pairwise different elements.  The chains of an assembled tree are
  such paths too, which bounds how deep the tree is.
-/
import SceneAssembly.Proofs.Walk.Cycles
import SceneAssembly.Proofs.Walk.Places

namespace SceneAssembly

open Relation (ReflTransGen)

variable {K : Type}

/-! ## 1. References that are met -/

/-- The references that a visit meets, in order, each with the path to it. -/
def met (c : Setting K) (path : List String) (id : String) : List (List String × String) :=
  match _hout : leftOut? c path id with
  | some _ => [(path, id)]
  | none =>
    match c.document.elements.find? id with
    | none => [(path, id)]
    | some e => (path, id) :: e.kind.references.flatMap (met c (id :: path))
termination_by (Walk.remaining c path).length
decreasing_by
  obtain ⟨e', hid, hpath, -⟩ := leftOut?_eq_none_iff.mp _hout
  exact Walk.remaining_lt c hid (mt List.contains_iff_mem.mp hpath)

section Met

variable {c : Setting K} {path : List String} {id : String}

theorem met_leftOut {d : Diagnostic K} (h : leftOut? c path id = some d) :
    met c path id = [(path, id)] := by
  rw [met]
  split
  next => rfl
  next hnone => rw [h] at hnone; cases hnone

theorem met_entered {e : Element K} (h : leftOut? c path id = none)
    (hid : c.document.elements.find? id = some e) :
    met c path id = (path, id) :: e.kind.references.flatMap (met c (id :: path)) := by
  rw [met]
  split
  next reason hreason => rw [h] at hreason; cases hreason
  next => rw [hid]

/-- An element of an unknown kind refers to nothing, so it need not be set apart. -/
theorem met_inside {e : Element K} (hid : c.document.elements.find? id = some e) (hpath : id ∉ path)
    (hdepth : ¬ c.settings.maxDepth ≤ path.length) :
    met c path id = (path, id) :: e.kind.references.flatMap (met c (id :: path)) := by
  cases hleft : leftOut? c path id with
  | none => exact met_entered hleft hid
  | some d =>
    rw [met_leftOut hleft]
    cases hkind : e.kind <;> simp [leftOut?, hid, hpath, hdepth, hkind] at hleft
    rfl

/-- Those are the references that can be followed from it. -/
theorem mem_met_iff {s : List String × String} :
    s ∈ met c path id ↔ ReflTransGen (Follows c) (path, id) s := by
  induction hn : (Walk.remaining c path).length using Nat.strongRecOn generalizing path id with
  | _ n ih =>
    subst hn
    cases hleft : leftOut? c path id with
    | some d =>
      rw [met_leftOut hleft, List.mem_singleton]
      constructor
      · rintro rfl
        exact .refl
      · intro hs
        rcases hs.cases_head with rfl | ⟨t, hfollows, -⟩
        · rfl
        · have hnone : leftOut? c path id = none := hfollows.entered
          rw [hleft] at hnone
          cases hnone
    | none =>
      obtain ⟨e, hid, hpath, -, -⟩ := leftOut?_eq_none_iff.mp hleft
      have below : ∀ id', s ∈ met c (id :: path) id' ↔
          ReflTransGen (Follows c) (id :: path, id') s := fun id' =>
        ih _ (Walk.remaining_lt c hid (mt List.contains_iff_mem.mp hpath)) rfl
      rw [met_entered hleft hid, List.mem_cons, List.mem_flatMap]
      constructor
      · rintro (rfl | ⟨id', hid', hs⟩)
        · exact .refl
        · exact .head ⟨hleft, ⟨e, hid, hid'⟩, rfl⟩ ((below id').mp hs)
      · intro hs
        rcases hs.cases_head with rfl | ⟨⟨path', id'⟩, hfollows, hrest⟩
        · exact .inl rfl
        · obtain ⟨e', he', hid'⟩ := hfollows.refers
          obtain rfl : e = e' := Option.some.inj (hid.symm.trans he')
          obtain rfl : path' = id :: path := hfollows.path
          exact .inr ⟨id', hid', (below id').mpr hrest⟩

end Met

/-! ## 2. A walk with a stack -/

/-- What a walk with a stack works on: the elements that it is inside of, and the references that it
    has met, each with the stack as it was then. -/
structure Machine (K : Type) where
  stack : List String
  calls : List (List String × String)
  progress : Progress K

/-- A walk that gives up when it is inside of itself too often. -/
abbrev StackWalk (K : Type) := StateT (Machine K) Option

namespace StackWalk

/-- A step of a walk that has no use for the stack. -/
def lift {α : Type} (step : Walk K α) : StackWalk K α := fun s =>
  let (x, progress) := step s.progress
  some (x, { s with progress })

def giveUp {α : Type} : StackWalk K α := fun _ => none

/-- Meets a reference, and gives the stack. -/
def call (id : String) : StackWalk K (List String) := fun s =>
  some (s.stack, { s with calls := s.calls ++ [(s.stack, id)] })

def push (id : String) : StackWalk K Unit := fun s => some ((), { s with stack := id :: s.stack })

def pop : StackWalk K Unit := fun s => some ((), { s with stack := s.stack.tail })

/-- The nodes of the children of a group, given how one is visited. -/
def children (visitOne : String → StackWalk K (Option (SceneNode K))) :
    List String → StackWalk K (List (SceneNode K))
  | [] => return []
  | id :: rest => do
    let child ← visitOne id
    let nodes ← children visitOne rest
    return child.toList ++ nodes

/-- The levels of an element, added to those there are, given how one is visited. -/
def levels [Scalar K] (visitOne : Inherited K → String → StackWalk K (Option (SceneNode K)))
    (scope : Inherited K) (lod : Lod K (SceneNode K)) :
    List (LevelSpec K) → StackWalk K (Lod K (SceneNode K))
  | [] => return lod
  | level :: rest => do
    let own ← lift (Walk.levelScope scope)
    match ← visitOne own level.target with
    | some n => levels visitOne scope (lod.add level.minDistance n) rest
    | none => levels visitOne scope lod rest

/-- What is put into the node of an element that is on top of the stack, given how one reference is
    visited.  The element is taken off on every way out. -/
def fillWithin [Scalar K] (c : Setting K)
    (visitOne : Shared (Affine K) → Inherited K → String → StackWalk K (Option (SceneNode K)))
    (scope : Inherited K) (id : String) (own : SceneNode K) :
    ElementKind K → StackWalk K (Option (SceneNode K))
  | .group ids => do
    let nodes ← children (visitOne own.world scope) ids
    pop
    lift (Walk.finish { own with children := nodes })
  | .primitive shape => do
    let n ← lift (Walk.attachShape c scope shape own)
    pop
    lift (Walk.finish n)
  | .light spec => do
    let n ← lift (Walk.attachLight spec own)
    pop
    lift (Walk.finish n)
  | .lod specs => do
    let lod ← levels (visitOne own.world) scope .empty specs
    pop
    lift (Walk.finish { own with lod := some lod })
  | .unsupported kind => do
    pop
    lift (Walk.report (.unsupportedKind id kind))
    return none

/-- A visit that may be inside of itself as often as the limit says.  The element of a reference is
    on the stack while the references below it are visited. -/
def visitWithin [Scalar K] (c : Setting K) :
    Nat → Shared (Affine K) → Inherited K → String → StackWalk K (Option (SceneNode K))
  | 0, _, _, _ => giveUp
  | limit + 1, parent, inherited, id => do
    let path ← call id
    match c.document.elements.find? id with
    | none =>
      lift (Walk.report (.missingElement id))
      return none
    | some e =>
      if path.contains id then
        lift (Walk.report (.cycle id))
        return none
      else if c.settings.maxDepth ≤ path.length then
        lift (Walk.report (.tooDeep id c.settings.maxDepth))
        return none
      else
        let (scope, own) ← lift (Walk.enter c parent inherited id e)
        push id
        fillWithin c (visitWithin c limit) scope id own e.kind

/-! ## 3. Walks with a stack that do what walks do -/

/-- From one stack to another one, a walk with a stack ends as a walk does and meets the given
    references, or gives up for the given reason. -/
def Mirrors {α : Type} (m : StackWalk K α) (walk : Walk K α) (before after : List String)
    (calls : List (List String × String)) (reason : Prop) : Prop :=
  ∀ s, s.stack = before →
    m s = some ((walk s.progress).1, ⟨after, s.calls ++ calls, (walk s.progress).2⟩) ∨
      m s = none ∧ reason

namespace Mirrors

variable {α β : Type} {m : StackWalk K α} {g : α → StackWalk K β} {walk : Walk K α}
  {f : α → Walk K β} {stack stack' stack'' : List String}
  {calls calls' : List (List String × String)} {reason reason' : Prop}

theorem pure (x : α) (stack : List String) (reason : Prop) :
    Mirrors (K := K) (Pure.pure x) (Pure.pure x) stack stack [] reason := by
  rintro s rfl
  refine .inl ?_
  rw [List.append_nil]
  rfl

theorem lift (walk : Walk K α) (stack : List String) (reason : Prop) :
    Mirrors (StackWalk.lift walk) walk stack stack [] reason := by
  rintro s rfl
  refine .inl ?_
  rw [List.append_nil]
  rfl

theorem giveUp (walk : Walk K α) (hreason : reason) :
    Mirrors StackWalk.giveUp walk stack stack' calls reason :=
  fun _ _ => .inr ⟨rfl, hreason⟩

theorem bind (hm : Mirrors m walk stack stack' calls reason)
    (hg : ∀ x, Mirrors (g x) (f x) stack' stack'' calls' reason) :
    Mirrors (m >>= g) (walk >>= f) stack stack'' (calls ++ calls') reason := by
  intro s hs
  rcases hm s hs with hfirst | ⟨hfirst, hreason⟩
  · have hrun : (m >>= g) s = g (walk s.progress).1
        ⟨stack', s.calls ++ calls, (walk s.progress).2⟩ := by
      simp only [Bind.bind, StateT.bind, hfirst, Option.bind_some]
    rcases hg _ ⟨stack', s.calls ++ calls, (walk s.progress).2⟩ rfl with hrest | ⟨hrest, hreason⟩
    · refine .inl ?_
      rw [hrun, hrest, List.append_assoc]
      rfl
    · exact .inr ⟨hrun.trans hrest, hreason⟩
  · refine .inr ⟨?_, hreason⟩
    simp only [Bind.bind, StateT.bind, hfirst, Option.bind_none]

theorem call {id : String} {g : List String → StackWalk K α}
    (hg : Mirrors (g stack) walk stack stack' calls reason) :
    Mirrors (StackWalk.call id >>= g) walk stack stack' ((stack, id) :: calls) reason := by
  rintro s rfl
  rcases hg { s with calls := s.calls ++ [(s.stack, id)] } rfl with hrest | hnone
  · refine .inl (hrest.trans ?_)
    rw [List.append_assoc, List.singleton_append]
  · exact .inr hnone

theorem push {id : String} (hm : Mirrors m walk (id :: stack) stack' calls reason) :
    Mirrors (do StackWalk.push id; m) walk stack stack' calls reason := by
  rintro s rfl
  exact hm { s with stack := id :: s.stack } rfl

theorem pop {id : String} (hm : Mirrors m walk stack stack' calls reason) :
    Mirrors (do StackWalk.pop; m) walk (id :: stack) stack' calls reason := by
  intro s hs
  exact hm { s with stack := s.stack.tail } (by rw [hs, List.tail_cons])

theorem mono (hm : Mirrors m walk stack stack' calls reason) (h : reason → reason') :
    Mirrors m walk stack stack' calls reason' :=
  fun s hs => (hm s hs).imp_right fun hnone => ⟨hnone.1, h hnone.2⟩

end Mirrors

/-! ## 4. Visits -/

/-- A reference that is left out is reported, and that is all. -/
theorem mirrors_leftOut (d : Diagnostic K) (path : List String) (reason : Prop) :
    Mirrors (do lift (Walk.report d); return (none : Option (SceneNode K)))
      (fun p => (none, p.noting [d])) path path [] reason := by
  have hnone := Mirrors.pure (K := K) (none : Option (SceneNode K)) path reason
  have hreport := (Mirrors.lift (Walk.report d) path reason).bind fun _ => hnone
  exact hreport

/-- How often a walk may still go further inside: as often as the path may grow, and never twice
    into one element. -/
def depthLeft (c : Setting K) (path : List String) : Nat :=
  min (c.settings.maxDepth - path.length) (Walk.remaining c path).length

theorem depthLeft_lt {c : Setting K} {path : List String} {id : String} {e : Element K}
    (hid : c.document.elements.find? id = some e) (hpath : id ∉ path)
    (hdepth : path.length < c.settings.maxDepth) :
    depthLeft c (id :: path) < depthLeft c path := by
  have hfewer := Walk.remaining_lt c hid (mt List.contains_iff_mem.mp hpath)
  simp only [depthLeft, List.length_cons]
  omega

theorem depthLeft_nil (c : Setting K) :
    depthLeft c [] = min c.settings.maxDepth c.document.elements.size := by
  have hall : Walk.remaining c [] = c.document.elements.keys :=
    List.filter_eq_self.mpr fun _ _ => rfl
  have hsize : c.document.elements.keys.length = c.document.elements.size := List.length_map _
  rw [depthLeft, hall, hsize, List.length_nil, Nat.sub_zero]

variable [Scalar K] {c : Setting K} {parent : Shared (Affine K)} {path : List String}
  {reason : Prop}

theorem mirrors_children {visitOne : String → StackWalk K (Option (SceneNode K))}
    {scope : Inherited K}
    (h : ∀ id, Mirrors (visitOne id) (Walk.visit c parent scope path id) path path
      (met c path id) reason) (ids : List String) :
    Mirrors (children visitOne ids) (Walk.visitChildren c parent scope path ids) path path
      (ids.flatMap (met c path)) reason := by
  induction ids with
  | nil =>
    rw [Walk.visitChildren]
    exact Mirrors.pure [] path reason
  | cons id rest ih =>
    rw [Walk.visitChildren, List.flatMap_cons, ← List.append_nil (rest.flatMap _)]
    exact (h id).bind fun child => ih.bind fun nodes => Mirrors.pure _ path reason

theorem mirrors_levels {visitOne : Inherited K → String → StackWalk K (Option (SceneNode K))}
    (h : ∀ own id, Mirrors (visitOne own id) (Walk.visit c parent own path id) path path
      (met c path id) reason) (scope : Inherited K) (specs : List (LevelSpec K))
    (lod : Lod K (SceneNode K)) :
    Mirrors (levels visitOne scope lod specs) (Walk.visitLevels c parent scope path lod specs)
      path path (specs.flatMap fun l => met c path l.target) reason := by
  induction specs generalizing lod with
  | nil =>
    rw [Walk.visitLevels]
    exact Mirrors.pure lod path reason
  | cons level rest ih =>
    rw [Walk.visitLevels, List.flatMap_cons, ← List.nil_append (met c path level.target ++ _)]
    refine (Mirrors.lift (Walk.levelScope scope) path reason).bind fun own =>
      (h own level.target).bind fun n => ?_
    cases n with
    | none => exact ih lod
    | some n => exact ih _

/-- An element is on top of the stack before it is filled, and not on it afterwards. -/
theorem mirrors_fill
    {visitOne : Shared (Affine K) → Inherited K → String → StackWalk K (Option (SceneNode K))}
    {id : String}
    (h : ∀ world own id', Mirrors (visitOne world own id') (Walk.visit c world own (id :: path) id')
      (id :: path) (id :: path) (met c (id :: path) id') reason)
    (scope : Inherited K) (own : SceneNode K) (kind : ElementKind K) :
    Mirrors (fillWithin c visitOne scope id own kind) (Walk.fill c scope path id own kind)
      (id :: path) path (kind.references.flatMap (met c (id :: path))) reason := by
  rw [← List.append_nil (kind.references.flatMap _)]
  cases kind with
  | group ids =>
    exact (mirrors_children (h own.world scope) ids).bind fun nodes =>
      Mirrors.pop (Mirrors.lift _ path reason)
  | primitive shape =>
    exact (Mirrors.lift (Walk.attachShape c scope shape own) _ reason).bind fun n =>
      Mirrors.pop (Mirrors.lift _ path reason)
  | light spec =>
    exact (Mirrors.lift (Walk.attachLight spec own) _ reason).bind fun n =>
      Mirrors.pop (Mirrors.lift _ path reason)
  | lod specs =>
    have hlevels := mirrors_levels (h own.world) scope specs .empty
    rw [← List.flatMap_map] at hlevels
    exact hlevels.bind fun lod => Mirrors.pop (Mirrors.lift _ path reason)
  | unsupported kind =>
    exact Mirrors.pop (mirrors_leftOut (.unsupportedKind id kind) path reason)

/-- **Whatever a visit with a stack returns is what the walk returns, with the stack as it was.**
    It gives up only if the limit is not above the depth that is left. -/
theorem mirrors_visit (c : Setting K) (limit : Nat) (parent : Shared (Affine K))
    (inherited : Inherited K) (path : List String) (id : String) :
    Mirrors (visitWithin c limit parent inherited id) (Walk.visit c parent inherited path id)
      path path (met c path id) (limit ≤ depthLeft c path) := by
  induction limit generalizing parent inherited path id with
  | zero => exact Mirrors.giveUp _ (Nat.zero_le _)
  | succ limit ih =>
    rw [visitWithin]
    cases hid : c.document.elements.find? id with
    | none =>
      rw [Walk.visit_missing _ _ hid,
        met_leftOut (d := .missingElement id) (by simp [leftOut?, hid])]
      exact Mirrors.call (mirrors_leftOut _ _ _)
    | some e =>
      by_cases hpath : id ∈ path
      · rw [Walk.visit_cycle _ _ hid hpath,
          met_leftOut (d := .cycle id) (by simp [leftOut?, hid, hpath])]
        refine Mirrors.call ?_
        simp only [List.contains_iff_mem.mpr hpath, if_true]
        exact mirrors_leftOut _ _ _
      by_cases hdepth : c.settings.maxDepth ≤ path.length
      · rw [Walk.visit_tooDeep _ _ hid hpath hdepth,
          met_leftOut (d := .tooDeep id c.settings.maxDepth)
            (by simp [leftOut?, hid, hpath, hdepth])]
        refine Mirrors.call ?_
        simp only [mt List.contains_iff_mem.mp hpath, hdepth, if_true]
        exact mirrors_leftOut _ _ _
      rw [Walk.visit_eq_fill _ _ hid hpath hdepth, met_inside hid hpath hdepth]
      refine Mirrors.call ?_
      simp only [mt List.contains_iff_mem.mp hpath, hdepth, if_false]
      refine (Mirrors.lift (Walk.enter c parent inherited id e) path _).bind fun x => ?_
      have hdeeper := depthLeft_lt hid hpath (Nat.lt_of_not_le hdepth)
      exact Mirrors.push (mirrors_fill (fun world own id' =>
        (ih world own (id :: path) id').mono fun hlimit => by omega) x.1 x.2 e.kind)

/-- Every call of a visit leaves the stack as it found it, on whatever way it comes out. -/
theorem visitWithin_stack {limit : Nat} {inherited : Inherited K} {id : String} {s t : Machine K}
    {n : Option (SceneNode K)} (h : visitWithin c limit parent inherited id s = some (n, t)) :
    t.stack = s.stack := by
  rcases mirrors_visit c limit parent inherited s.stack id s rfl with hsome | ⟨hnone, -⟩
  · rw [h] at hsome
    cases hsome
    rfl
  · rw [h] at hnone
    cases hnone

end StackWalk

/-! ## 5. Scenes -/

namespace StackWalk

/-- The root of a scene, built with a stack and a limit. -/
def rootWithin [Scalar K] (limit : Nat) (settings : Settings K) (d : Document K) :
    StackWalk K (SceneNode K) := do
  let world ← lift (Walk.onArena (Arena.share Affine.identity))
  match ← visitWithin ⟨d, settings⟩ limit world .nothing d.rootId with
  | some root => return root
  | none => lift (Walk.onArena (SceneNode.atOrigin d.rootId))

theorem mirrors_root [Scalar K] (limit : Nat) (settings : Settings K) (d : Document K) :
    Mirrors (rootWithin limit settings d)
      (do
        let world ← Walk.onArena (Arena.share Affine.identity)
        match ← Walk.visit ⟨d, settings⟩ world .nothing [] d.rootId with
        | some root => return root
        | none => Walk.onArena (SceneNode.atOrigin d.rootId))
      [] [] (met ⟨d, settings⟩ [] d.rootId) (limit ≤ min settings.maxDepth d.elements.size) := by
  rw [← depthLeft_nil ⟨d, settings⟩, ← List.append_nil (met _ _ _),
    ← List.nil_append (met _ _ _ ++ _)]
  refine (Mirrors.lift _ [] _).bind fun world =>
    (mirrors_visit ⟨d, settings⟩ limit world .nothing [] d.rootId).bind fun n => ?_
  cases n with
  | none => exact Mirrors.lift _ [] _
  | some root => exact Mirrors.pure root [] _

end StackWalk

/-- The scene of a document, assembled with a stack and a limit, and the references that are met. -/
def assembleWithin [Scalar K] (limit : Nat) (settings : Settings K) (d : Document K)
    (w : Workshop K) : Option ((Except (Diagnostic K) (Scene K) × Workshop K) ×
      List (List String × String)) :=
  if d.elements.contains d.rootId then
    (StackWalk.rootWithin limit settings d
      ⟨[], [], ⟨w.arena, w.registry, w.library, .empty, none, .empty⟩⟩).map fun (root, s) =>
        ((.ok (.ofRoot d root s.progress.report),
          ⟨s.progress.arena, s.progress.registry, s.progress.library⟩), s.calls)
  else some ((.error (.missingRoot d.rootId), w), [])

/-- A path from the root to a reference is no longer than it may be, and than there are elements. -/
theorem length_le_of_follows {c : Setting K} {root : String} {s : List String × String}
    (h : ReflTransGen (Follows c) ([], root) s) :
    s.1.length ≤ min c.settings.maxDepth c.document.elements.size := by
  obtain ⟨hnodup, hkeys⟩ := nodup_of_follows h
  have hsize : c.document.elements.keys.length = c.document.elements.size := List.length_map _
  have hfew : s.1.length ≤ c.document.elements.keys.length := (hnodup.subperm hkeys).length_le
  have hshort : s.1.length ≤ c.settings.maxDepth := by
    rcases h.cases_tail with hroot | ⟨t, -, hfollows⟩
    · simp [hroot]
    · obtain ⟨-, -, -, hdepth, -⟩ := leftOut?_eq_none_iff.mp hfollows.entered
      rw [hfollows.path, List.length_cons]
      exact hdepth
  omega

/-- The chain of a place is a path that the walk follows from the root, with the element at its end,
    which is not left out. -/
def IsFollowed (c : Setting K) (root : String) (place : Place K) : Prop :=
  ∃ path id, ReflTransGen (Follows c) ([], root) (path, id) ∧ leftOut? c path id = none ∧
    place.chain = id :: path

theorem IsFollowed.bounded {c : Setting K} {root : String} {place : Place K}
    (h : IsFollowed c root place) :
    place.chain.Nodup ∧ (∀ id ∈ place.chain, c.document.elements.contains id) ∧
      place.chain.tail.length < min c.settings.maxDepth c.document.elements.size := by
  obtain ⟨path, id, hfollowed, hleft, hchain⟩ := h
  obtain ⟨e, hid, hpath, hdepth, -⟩ := leftOut?_eq_none_iff.mp hleft
  obtain ⟨hnodup, hkeys⟩ := nodup_of_follows hfollowed
  have hchainNodup : (id :: path).Nodup := List.nodup_cons.mpr ⟨hpath, hnodup⟩
  have hchainKeys : (id :: path) ⊆ c.document.elements.keys :=
    List.cons_subset.mpr ⟨Table.mem_keys_of_find? hid, hkeys⟩
  have hfew : (id :: path).length ≤ c.document.elements.keys.length :=
    (hchainNodup.subperm hchainKeys).length_le
  have hsize : c.document.elements.keys.length = c.document.elements.size := List.length_map _
  rw [hchain, List.tail_cons]
  rw [List.length_cons] at hfew
  exact ⟨hchainNodup, fun v hv => Table.mem_keys_iff.mp (hchainKeys hv), by omega⟩

namespace Walk

/-- Each step is one with an item of the list. -/
theorem Steps.mem {α β : Type} {R : α → Progress K → β → Progress K → Prop} {as : List α}
    {bs : List β} {p q : Progress K} (hs : Steps R as p bs q) :
    Steps (fun a p b q => a ∈ as ∧ R a p b q) as p bs q := by
  induction hs with
  | nil p => exact .nil p
  | cons hstep _ ih =>
    exact .cons ⟨List.mem_cons_self, hstep⟩
      (ih.mono fun _ _ _ _ h => ⟨List.mem_cons_of_mem _ h.1, h.2⟩)

theorem followed_visit [Scalar K] (c : Setting K) (root : String) (parent : Shared (Affine K))
    (inherited : Inherited K) (path : List String) (id : String) (p : Progress K)
    (hfollowed : ReflTransGen (Follows c) ([], root) (path, id)) :
    Holds c.document (IsFollowed c root) path id (visit c parent inherited path id p).1 := by
  refine visit_induction (P := fun _ _ path id _ n _ =>
      ReflTransGen (Follows c) ([], root) (path, id) →
      Holds c.document (IsFollowed c root) path id n)
    ?leftOut ?group ?primitive ?light ?lod parent inherited path id p hfollowed
  case leftOut =>
    intros
    exact .none
  case group =>
    intro _ _ path id p e scope own q children built r hentered hkind hsteps hfollowed
    have hleft := hentered.leftOut?_eq_none (by simp [hkind])
    have hbelow := (hsteps.mem.invariant (I := fun _ => True)
      (J := Holds c.document (IsFollowed c root) (id :: path)) ?_ trivial).2
    · exact .branches hentered.own_name ⟨path, id, hfollowed, hleft, rfl⟩
        (hentered.branches_group hbelow)
    · rintro id' p' n q' ⟨hid', -, hholds⟩ -
      have hrefers : id' ∈ e.kind.references := by rw [hkind]; exact hid'
      exact ⟨trivial, hholds (hfollowed.tail ⟨hleft, ⟨e, hentered.found, hrefers⟩, rfl⟩)⟩
  case primitive =>
    intro _ _ path id p e scope own q shape n r hentered hkind hattach hfollowed
    have hleft := hentered.leftOut?_eq_none (by simp [hkind])
    obtain ⟨hname, hleaf⟩ := hentered.attached hkind hattach
    exact .single hname ⟨path, id, hfollowed, hleft, rfl⟩ hleaf
  case light =>
    intro _ _ path id p e scope own q spec n r hentered hkind hattach hfollowed
    have hleft := hentered.leftOut?_eq_none (by simp [hkind])
    obtain ⟨light, rfl⟩ := attachLight_eq hattach
    exact .single hentered.own_name ⟨path, id, hfollowed, hleft, rfl⟩
      (.inl hentered.own_branches)
  case lod =>
    intro _ _ path id p e scope own q levels built r hentered hkind hsteps hfollowed
    have hleft := hentered.leftOut?_eq_none (by simp [hkind])
    have hbelow := (hsteps.mem.invariant (I := fun _ => True)
      (J := fun level l => Holds c.document (IsFollowed c root) (id :: path) level.target
        (l.map Level.node)) ?_ trivial).2
    · exact .branches hentered.own_name ⟨path, id, hfollowed, hleft, rfl⟩
        (hentered.branches_lod hbelow)
    · rintro level p' l q' ⟨hlevel, hvisited⟩ -
      obtain ⟨own', p'', -, -, -, hholds⟩ := hvisited.parts
      have hrefers : level.target ∈ e.kind.references := by
        rw [hkind]
        exact List.mem_map_of_mem hlevel
      exact ⟨trivial, hholds (hfollowed.tail ⟨hleft, ⟨e, hentered.found, hrefers⟩, rfl⟩)⟩

end Walk

section Scenes

variable [Scalar K] {settings : Settings K} {d : Document K} {w w' : Workshop K} {scene : Scene K}

theorem assembleWithin_eq (settings : Settings K) (d : Document K) (w : Workshop K) {limit : Nat}
    (hlimit : min settings.maxDepth d.elements.size < limit) :
    assembleWithin limit settings d w = some (assemble settings d w,
      if d.elements.contains d.rootId then met ⟨d, settings⟩ [] d.rootId else []) := by
  by_cases hroot : d.elements.contains d.rootId
  · rcases StackWalk.mirrors_root limit settings d
      ⟨[], [], ⟨w.arena, w.registry, w.library, .empty, none, .empty⟩⟩ rfl with hsome | ⟨-, hshort⟩
    · rw [assembleWithin, if_pos hroot, hsome, assemble, if_pos hroot, if_pos hroot]
      rfl
    · exact absurd hlimit (Nat.not_lt.mpr hshort)
  · rw [assembleWithin, if_neg hroot, assemble_missing hroot, if_neg hroot]

theorem followed_scene (h : assemble settings d w = (.ok scene, w')) {place : Place K}
    (hplace : scene.HasPlace ⟨d, settings⟩ place) : IsFollowed ⟨d, settings⟩ d.rootId place := by
  have hholds := Walk.followed_visit ⟨d, settings⟩ d.rootId ⟨w.arena.next, Affine.identity⟩
    .nothing [] d.rootId w.start .refl
  obtain ⟨q, hvisit, -⟩ := visit_root h hplace.1
  exact (hholds scene.root (congrArg Prod.fst hvisit)).2 place hplace.2

end Scenes

/-- **The walk ends, whatever the document and however deep it may go.**  With a limit above the
    number of elements, or above the depth that is allowed, the walk with a stack gives the scene
    that it should; it meets each reference with pairwise different elements of the document on the
    stack, and each of its calls leaves the stack as it found it.  So there are fewer elements above
    a place of the scene than the document has, and than may be nested, and none of them twice. -/
theorem assemble_ends [Scalar K] (settings : Settings K) (d : Document K) (w : Workshop K) :
    (∀ limit, min settings.maxDepth d.elements.size < limit →
      ∃ calls, assembleWithin limit settings d w = some (assemble settings d w, calls) ∧
        ∀ path id, (path, id) ∈ calls → path.Nodup ∧ (∀ id' ∈ path, d.elements.contains id') ∧
          path.length ≤ min settings.maxDepth d.elements.size) ∧
    (∀ limit parent inherited id (s t : Machine K) n,
      StackWalk.visitWithin ⟨d, settings⟩ limit parent inherited id s = some (n, t) →
      t.stack = s.stack) ∧
    ∀ scene w', assemble settings d w = (.ok scene, w') →
      ∀ place, scene.HasPlace ⟨d, settings⟩ place →
        place.chain.Nodup ∧ (∀ id ∈ place.chain, d.elements.contains id) ∧
          place.chain.tail.length < min settings.maxDepth d.elements.size := by
  refine ⟨fun limit hlimit => ⟨_, assembleWithin_eq settings d w hlimit, fun path id hcall => ?_⟩,
    fun limit parent inherited id s t n h => StackWalk.visitWithin_stack h,
    fun scene w' h place hplace => (followed_scene h hplace).bounded⟩
  by_cases hroot : d.elements.contains d.rootId
  · rw [if_pos hroot] at hcall
    have hfollowed := mem_met_iff.mp hcall
    obtain ⟨hnodup, hkeys⟩ := nodup_of_follows hfollowed
    exact ⟨hnodup, fun id' hid' => Table.mem_keys_iff.mp (hkeys id' hid'),
      length_le_of_follows hfollowed⟩
  · rw [if_neg hroot] at hcall
    cases hcall

theorem assemble_ends_knotted :
    min (Settings.standard : Settings Float32).maxDepth Document.knotted.elements.size < 4 ∧
    ∃ (scene : Scene Float32) (w' : Workshop Float32) (calls : List (List String × String)),
      assemble .standard Document.knotted
        ⟨.empty, .ofRecords .empty "." .placeholder, .empty⟩ = (.ok scene, w') ∧
      assembleWithin 4 .standard Document.knotted
        ⟨.empty, .ofRecords .empty "." .placeholder, .empty⟩ = some ((.ok scene, w'), calls) ∧
      scene.HasPlace ⟨Document.knotted, .standard⟩ ⟨["root"], scene.root⟩ ∧
      (["root"] : List String).tail.length <
        min (Settings.standard : Settings Float32).maxDepth Document.knotted.elements.size ∧
      ∃ t : Machine Float32,
        StackWalk.visitWithin ⟨Document.knotted, .standard⟩ 1 ⟨0, .identity⟩ .nothing "odd"
          ⟨["near", "root"], [], ⟨.empty, .ofRecords .empty "." .placeholder, .empty, .empty, none,
            .empty⟩⟩ = some (none, t) ∧ t.stack = ["near", "root"] := by
  have hlimit :
      min (Settings.standard : Settings Float32).maxDepth Document.knotted.elements.size < 4 := by
    decide
  obtain ⟨scene, w', hscene⟩ := exists_scene .standard
    ⟨.empty, .ofRecords .empty "." .placeholder, .empty⟩ (d := Document.knotted) rfl
  have hplace : scene.HasPlace ⟨Document.knotted, .standard⟩ ⟨["root"], scene.root⟩ := ⟨rfl, .refl⟩
  obtain ⟨hends, hstack, hplaces⟩ := assemble_ends .standard Document.knotted
    ⟨.empty, .ofRecords .empty "." .placeholder, .empty⟩
  obtain ⟨calls, hwithin, -⟩ := hends 4 hlimit
  rw [hscene] at hwithin
  obtain ⟨t, hodd⟩ : ∃ t : Machine Float32,
      StackWalk.visitWithin ⟨Document.knotted, .standard⟩ 1 ⟨0, .identity⟩ .nothing "odd"
        ⟨["near", "root"], [], ⟨.empty, .ofRecords .empty "." .placeholder, .empty, .empty, none,
          .empty⟩⟩ = some (none, t) := ⟨_, rfl⟩
  exact ⟨hlimit, scene, w', calls, hscene, hwithin, hplace, (hplaces scene w' hscene _ hplace).2.2,
    t, hodd, hstack _ _ _ _ _ _ _ hodd⟩

end SceneAssembly
