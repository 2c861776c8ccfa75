/-
  SceneAssembly/Proofs/Walk/Depicting.lean
  ========================================
  **What a reference becomes, read off the document.**

  What the tree of a reference looks like depends on the path to it and on the
  views alone (`depict`), and so does what is to be reported of each reference
  that is met (`notes`).  A walk makes and reports just this, wherever it has
  been before (`depicted_visit`).
-/
import SceneAssembly.Proofs.Walk.Steady
import SceneAssembly.Proofs.Walk.Stack

namespace SceneAssembly

open Progress (Reaches)
open Walk (Entered Steps LevelVisit IsEmpty shapePicture shapeNotes lightPicture lightNotes)

variable {K : Type} [Scalar K]

/-! ## 1. Pictures and notes of references -/

/-- What holds at the innermost element of a path. -/
def scopeAt (d : Document K) (V : Views K) : List String → ScopeLook K
  | [] => .outermost
  | id :: path =>
    match d.elements.find? id with
    | none => scopeAt d V path
    | some e => (scopeAt d V path).enter d V e

/-- The picture of a node with levels of detail, which are added one by one. -/
def lodPicture (own : NodeLook K) (levels : List (Level K (Picture K))) : Picture K :=
  let lod := Lod.ofLevels levels
  .gather { own with distances := some (lod.levels.map Level.minDistance) }
    (lod.levels.map Level.node)

/-- The picture of a reference, when the walk is inside of the elements of a path. -/
def depict (c : Setting K) (V : Views K) (path : List String) (id : String) : Option (Picture K) :=
  match _hout : leftOut? c path id with
  | some _ => none
  | none =>
    match c.document.elements.find? id with
    | none => none
    | some e =>
      let s := scopeAt c.document V (id :: path)
      let own := NodeLook.entered id e s
      match e.kind with
      | .group children => some (.gather own (children.filterMap (depict c V (id :: path))))
      | .primitive shape => some (shapePicture c V s own shape)
      | .light spec => some (lightPicture own spec)
      | .lod levels => some (lodPicture own (levels.filterMap fun l =>
          (depict c V (id :: path) l.target).map (Level.mk l.minDistance)))
      | .unsupported _ => none
termination_by (Walk.remaining c path).length
decreasing_by
  all_goals
    obtain ⟨e', hid, hpath, -⟩ := leftOut?_eq_none_iff.mp _hout
    exact Walk.remaining_lt c hid (mt List.contains_iff_mem.mp hpath)

/-- What is to be reported of what is put into the node of an element. -/
def kindNotes (c : Setting K) (V : Views K) (id : String) : ElementKind K → List (Diagnostic K)
  | .primitive shape => shapeNotes c V shape
  | .light spec => lightNotes spec
  | .unsupported kind => [.unsupportedKind id kind]
  | _ => []

/-- What is to be reported of a reference that is met, but for the materials that it draws. -/
def notes (c : Setting K) (V : Views K) (s : List String × String) : List (Diagnostic K) :=
  match c.document.elements.find? s.2 with
  | none => [.missingElement s.2]
  | some e =>
    if s.2 ∈ s.1 then [.cycle s.2]
    else if c.settings.maxDepth ≤ s.1.length then [.tooDeep s.2 c.settings.maxDepth]
    else c.document.entryNotes V e ++ kindNotes c V s.2 e.kind

/-- The key of the material that a reference draws when it is met. -/
def draws (c : Setting K) (s : List String × String) : List String :=
  match c.document.elements.find? s.2 with
  | none => []
  | some e => if s.2 ∈ s.1 ∨ c.settings.maxDepth ≤ s.1.length then [] else c.document.drawn e

section Equations

variable {c : Setting K} {V : Views K} {path : List String} {id : String} {e : Element K}

theorem depict_leftOut {d : Diagnostic K} (h : leftOut? c path id = some d) :
    depict c V path id = none := by
  rw [depict]
  split
  next => rfl
  next hnone => rw [h] at hnone; cases hnone

theorem depict_kind (h : leftOut? c path id = none) (hid : c.document.elements.find? id = some e) :
    depict c V path id =
      let s := scopeAt c.document V (id :: path)
      let own := NodeLook.entered id e s
      match e.kind with
      | .group children => some (.gather own (children.filterMap (depict c V (id :: path))))
      | .primitive shape => some (shapePicture c V s own shape)
      | .light spec => some (lightPicture own spec)
      | .lod levels => some (lodPicture own (levels.filterMap fun l =>
          (depict c V (id :: path) l.target).map (Level.mk l.minDistance)))
      | .unsupported _ => none := by
  rw [depict]
  split
  next reason hreason => rw [h] at hreason; cases hreason
  next => rw [hid]

theorem scopeAt_cons (hid : c.document.elements.find? id = some e) :
    scopeAt c.document V (id :: path) = (scopeAt c.document V path).enter c.document V e := by
  rw [scopeAt, hid]

/-- A reference that is left out on the way is its own report. -/
theorem notes_leftOut {d : Diagnostic K} (h : leftOut? c path id = some d)
    (hinside : ∀ e, c.document.elements.find? id = some e →
      id ∈ path ∨ c.settings.maxDepth ≤ path.length) :
    notes c V (path, id) = [d] ∧ draws c (path, id) = [] := by
  unfold leftOut? at h
  unfold notes draws
  cases hid : c.document.elements.find? id with
  | none =>
    rw [hid] at h
    cases h
    exact ⟨rfl, rfl⟩
  | some e =>
    rw [hid] at h
    have hout := hinside e hid
    simp only [if_pos hout] at h ⊢
    by_cases hpath : id ∈ path
    · simp only [if_pos hpath] at h ⊢
      exact ⟨congrArg (fun d => [d]) (Option.some.inj h), trivial⟩
    · have hdepth := hout.resolve_left hpath
      simp only [if_neg hpath, if_pos hdepth] at h ⊢
      exact ⟨congrArg (fun d => [d]) (Option.some.inj h), trivial⟩

theorem notes_inside (hid : c.document.elements.find? id = some e) (hpath : id ∉ path)
    (hdepth : path.length < c.settings.maxDepth) :
    notes c V (path, id) = c.document.entryNotes V e ++ kindNotes c V id e.kind ∧
      draws c (path, id) = c.document.drawn e := by
  have hdepth := Nat.not_le_of_lt hdepth
  unfold notes draws
  simp [hid, hpath, hdepth]

end Equations

/-! ## 2. Trees -/

/-- A tree that has been built, or not, has a picture, or none, from an arena on. -/
def TreeShows (a : Arena) (n : Option (SceneNode K)) (P : Option (Picture K)) : Prop :=
  ∀ b, a.Stays b → n.map (·.picture b) = P

omit [Scalar K] in
theorem TreeShows.mono {a b : Arena} {n : Option (SceneNode K)} {P : Option (Picture K)}
    (h : TreeShows a n P) (hab : a.Stays b) : TreeShows b n P :=
  fun c hc => h c (hab.trans hc)

/-- What has been built of some items, seen in pictures of them. -/
theorem map_reduceOption {α β γ : Type} {view : β → γ} {g : α → Option γ} {as : List α}
    {bs : List (Option β)} (h : List.Forall₂ (fun a b => b.map view = g a) as bs) :
    bs.reduceOption.map view = as.filterMap g := by
  induction h with
  | nil => rfl
  | @cons a b as bs hab _ ih =>
    rw [List.filterMap_cons, ← hab]
    cases b with
    | none => exact ih
    | some x => exact congrArg (List.cons (view x)) ih

/-- The level with something else in place of its node. -/
def Level.withNode {α β : Type} (f : α → β) (l : Level K α) : Level K β :=
  ⟨l.minDistance, f l.node⟩

/-- A level that has been built, or not, has a picture, or none, from an arena on. -/
def LevelShows (a : Arena) (l : Option (Level K (SceneNode K))) (distance : K)
    (P : Option (Picture K)) : Prop :=
  ∀ b, a.Stays b →
    l.map (Level.withNode (SceneNode.picture b)) = P.map (Level.mk distance)

omit [Scalar K] in
theorem LevelShows.mono {a b : Arena} {l : Option (Level K (SceneNode K))} {distance : K}
    {P : Option (Picture K)} (h : LevelShows a l distance P) (hab : a.Stays b) :
    LevelShows b l distance P :=
  fun c hc => h c (hab.trans hc)

/-- A level finds its place by its distance, whatever its node is. -/
theorem insertLevel_map {α β : Type} (f : α → β) (level : Level K α) (ls : List (Level K α)) :
    Lod.insertLevel (level.withNode f) (ls.map (Level.withNode f)) =
      (Lod.insertLevel level ls).map (Level.withNode f) := by
  induction ls with
  | nil => rfl
  | cons l rest ih =>
    rw [List.map_cons, Lod.insertLevel, Lod.insertLevel, ih]
    by_cases hless : level.minDistance < l.minDistance
    · rw [if_pos hless]
      exact if_pos hless
    · rw [if_neg hless]
      exact if_neg hless

theorem ofLevels_map {α β : Type} (f : α → β) (levels : List (Level K α)) :
    (Lod.ofLevels (levels.map (Level.withNode f))).levels =
      (Lod.ofLevels levels).levels.map (Level.withNode f) := by
  have hfold : ∀ (levels : List (Level K α)) (lod : Lod K α),
      ((levels.map (Level.withNode f)).foldl
          (fun (lod : Lod K β) level => lod.add level.minDistance level.node)
          ⟨lod.levels.map (Level.withNode f)⟩).levels =
        (levels.foldl (fun (lod : Lod K α) level => lod.add level.minDistance level.node)
          lod).levels.map (Level.withNode f) := by
    intro levels
    induction levels with
    | nil => exact fun lod => rfl
    | cons level rest ih =>
      intro lod
      rw [List.map_cons, List.foldl_cons, List.foldl_cons, ← ih]
      congr 2
      exact congrArg Lod.mk (insertLevel_map f level lod.levels)
  exact hfold levels .empty

section Filling

variable {own : SceneNode K} {look : NodeLook K}

omit [Scalar K] in
theorem group_shows {ns : List (SceneNode K)} {Ps : List (Picture K)} {a : Arena}
    (h : IsEmpty own look) (hns : ∀ b, a.Stays b → ns.map (·.picture b) = Ps) :
    ({ own with children := ns } : SceneNode K).gatherShadows.Shows a (.gather look Ps) := by
  intro b hb
  have hbranches : ({ own with children := ns } : SceneNode K).branches = ns := by
    simp [SceneNode.branches, SceneNode.levels, h.lod]
  have hPs : ns.map (SceneNode.picture b) = Ps := hns b hb
  rw [SceneNode.gatherShadows_picture, hbranches, hPs, ← h.look b]
  rfl

theorem lod_shows {levels : List (Level K (SceneNode K))} {Ps : List (Level K (Picture K))}
    {a : Arena} (h : IsEmpty own look)
    (hlevels : ∀ b, a.Stays b → levels.map (Level.withNode (SceneNode.picture b)) = Ps) :
    ({ own with lod := some (.ofLevels levels) } : SceneNode K).gatherShadows.Shows a
      (lodPicture look Ps) := by
  intro b hb
  have hordered := ofLevels_map (SceneNode.picture b) levels
  rw [hlevels b hb] at hordered
  have hbranches : ({ own with lod := some (.ofLevels levels) } : SceneNode K).branches =
      (Lod.ofLevels levels).levels.map Level.node := by
    simp [SceneNode.branches, SceneNode.levels, h.children]
  have hnodes : ((Lod.ofLevels levels).levels.map Level.node).map (SceneNode.picture b) =
      (Lod.ofLevels Ps).levels.map Level.node := by
    rw [hordered, List.map_map, List.map_map]
    rfl
  have hdistances : (Lod.ofLevels levels).levels.map Level.minDistance =
      (Lod.ofLevels Ps).levels.map Level.minDistance := by
    rw [hordered, List.map_map]
    rfl
  rw [SceneNode.gatherShadows_picture, hbranches, hnodes, lodPicture, ← h.look b, ← hdistances]
  rfl

end Filling

/-! ## 3. Visits -/

namespace Walk

variable {c : Setting K} {V : Views K} {p q r : Progress K}

/-- Items that are done one after the other report one after the other. -/
theorem Steps.reaches {α β : Type} {R : α → Progress K → β → Progress K → Prop}
    {ds : α → List (Diagnostic K)} {keys : α → List String} {J : Arena → α → β → Prop} {a : Arena}
    {as : List α} {bs : List β} (hJ : ∀ {a b x y}, a.Stays b → J a x y → J b x y)
    (h : ∀ x p y q, R x p y q → p.Shows c V → a.Stays p.arena →
      Reaches c V p q (ds x) (keys x) ∧ J q.arena x y)
    (hs : Steps R as p bs q) (hp : p.Shows c V) (ha : a.Stays p.arena) :
    Reaches c V p q (as.flatMap ds) (as.flatMap keys) ∧ List.Forall₂ (J q.arena) as bs := by
  induction hs with
  | nil p => exact ⟨.refl hp, .nil⟩
  | @cons x as y bs p q r hstep _ ih =>
    obtain ⟨hreaches, hy⟩ := h _ _ _ _ hstep hp ha
    obtain ⟨hrest, hys⟩ := ih hreaches.shows (ha.trans hreaches.stays)
    rw [List.flatMap_cons, List.flatMap_cons]
    exact ⟨hreaches.trans hrest, .cons (hJ hrest.stays hy) hys⟩

/-- What a visit makes of a reference looks as the document says, and it reports what there is to
    report, no matter what has been made before. -/
def Depicts (c : Setting K) (V : Views K) (parent : Shared (Affine K)) (inherited : Inherited K)
    (path : List String) (id : String) (p : Progress K) (n : Option (SceneNode K))
    (q : Progress K) : Prop :=
  p.Shows c V →
    Reaches c V p q ((met c path id).flatMap (notes c V)) ((met c path id).flatMap (draws c)) ∧
    (ScopeLasts p.arena parent inherited (scopeAt c.document V path) →
      TreeShows q.arena n (depict c V path id))

section Entering

variable {parent : Shared (Affine K)} {inherited scope : Inherited K} {path : List String}
  {id : String} {e : Element K} {own : SceneNode K}

/-- The report of an entered element and of all that is met below it. -/
theorem Entered.reaches (h : Entered c parent inherited path id p e scope own q)
    (hq : Reaches c V p q (c.document.entryNotes V e) (c.document.drawn e))
    (hbelow : Reaches c V q r
      (kindNotes c V id e.kind ++
        e.kind.references.flatMap fun id' => (met c (id :: path) id').flatMap (notes c V))
      (e.kind.references.flatMap fun id' => (met c (id :: path) id').flatMap (draws c))) :
    Reaches c V p r ((met c path id).flatMap (notes c V)) ((met c path id).flatMap (draws c)) := by
  obtain ⟨hnotes, hdraws⟩ := notes_inside (V := V) h.found h.outside h.shallow
  rw [met_inside h.found h.outside (Nat.not_le_of_lt h.shallow), List.flatMap_cons,
    List.flatMap_cons, List.flatMap_assoc, List.flatMap_assoc, hnotes, hdraws, List.append_assoc]
  exact hq.trans hbelow

/-- An entered element is depicted if what is put into its empty node is. -/
theorem Entered.depicts {n : SceneNode K}
    (h : Entered c parent inherited path id p e scope own q) {P : ScopeLook K → Picture K}
    (hP : depict c V path id = some (P (scopeAt c.document V (id :: path))))
    (hbelow : q.Shows c V →
      Reaches c V q r
        (kindNotes c V id e.kind ++
          e.kind.references.flatMap fun id' => (met c (id :: path) id').flatMap (notes c V))
        (e.kind.references.flatMap fun id' => (met c (id :: path) id').flatMap (draws c)) ∧
      (ScopeLasts q.arena own.world scope (scopeAt c.document V (id :: path)) →
        IsEmpty own (.entered id e (scopeAt c.document V (id :: path))) →
        n.Shows r.arena (P (scopeAt c.document V (id :: path))))) :
    Depicts c V parent inherited path id p (some n) r.counting := by
  intro hp
  obtain ⟨hq, hlasts⟩ := h.shows hp
  obtain ⟨hreaches, hshows⟩ := hbelow hq.shows
  refine ⟨(h.reaches hq hreaches).counting, fun hs b hb => ?_⟩
  obtain ⟨hscope, hlook⟩ := hlasts _ hs
  rw [← scopeAt_cons h.found] at hscope hlook
  have hempty : IsEmpty own (.entered id e (scopeAt c.document V (id :: path))) :=
    ⟨hlook, h.own_mesh, by obtain ⟨world, rfl⟩ := h.own_eq; rfl, h.own_lod, h.own_children⟩
  rw [hP]
  exact congrArg some (hshows hscope hempty b hb)

theorem Entered.depicts_group {children : List String} {built : List (Option (SceneNode K))}
    (h : Entered c parent inherited path id p e scope own q) (hkind : e.kind = .group children)
    (hsteps : Steps (fun id' p' n q' => Depicts c V own.world scope (id :: path) id' p' n q')
      children q built r) :
    Depicts c V parent inherited path id p
      (some { own with children := built.reduceOption }.gatherShadows) r.counting := by
  have hdepict := depict_kind (V := V) (h.leftOut?_eq_none (by simp [hkind])) h.found
  rw [hkind] at hdepict
  refine h.depicts (P := fun s => .gather (.entered id e s) _) hdepict fun hq => ?_
  obtain ⟨hbelow, hbuilt⟩ := hsteps.reaches (V := V) (a := q.arena)
    (J := fun a id' n => ScopeLasts q.arena own.world scope (scopeAt c.document V (id :: path)) →
      TreeShows a n (depict c V (id :: path) id'))
    (fun hab hJ hs => (hJ hs).mono hab)
    (fun id' p' n q' hstep hp' ha => by
      obtain ⟨hreaches, hshows⟩ := hstep hp'
      exact ⟨hreaches, fun hs => hshows (hs.mono ha)⟩)
    hq (.refl _)
  rw [hkind]
  refine ⟨hbelow, fun hs hempty => group_shows hempty fun b hb => ?_⟩
  exact map_reduceOption (hbuilt.imp fun id' n hn => hn hs b hb)

theorem Entered.depicts_shape {shape : ShapeSpec K} {n : SceneNode K}
    (h : Entered c parent inherited path id p e scope own q) (hkind : e.kind = .primitive shape)
    (hattach : attachShape c scope shape own q = (n, r)) :
    Depicts c V parent inherited path id p (some n.gatherShadows) r.counting := by
  have hdepict := depict_kind (V := V) (h.leftOut?_eq_none (by simp [hkind])) h.found
  rw [hkind] at hdepict
  refine h.depicts (P := fun s => shapePicture c V s (.entered id e s) shape) hdepict fun hq => ?_
  obtain ⟨m, r', hattach', hreaches, hshows⟩ := attachShape_shows hq scope shape own
  rw [hattach] at hattach'
  cases hattach'
  refine ⟨?_, fun hs hempty => hshows _ _ hs hempty⟩
  rw [hkind]
  simpa only [kindNotes, ElementKind.references, List.flatMap_nil, List.append_nil] using hreaches

theorem Entered.depicts_light {spec : LightSpec K} {n : SceneNode K}
    (h : Entered c parent inherited path id p e scope own q) (hkind : e.kind = .light spec)
    (hattach : attachLight spec own q = (n, r)) :
    Depicts c V parent inherited path id p (some n.gatherShadows) r.counting := by
  have hdepict := depict_kind (V := V) (h.leftOut?_eq_none (by simp [hkind])) h.found
  rw [hkind] at hdepict
  refine h.depicts (P := fun s => lightPicture (.entered id e s) spec) hdepict fun hq => ?_
  obtain ⟨m, r', hattach', hreaches, hshows⟩ := attachLight_shows hq spec own
  rw [hattach] at hattach'
  cases hattach'
  refine ⟨?_, fun _ hempty => hshows _ hempty⟩
  rw [hkind]
  simpa only [kindNotes, ElementKind.references, List.flatMap_nil, List.append_nil] using hreaches

theorem LevelVisit.depicts {world : Shared (Affine K)} {level : LevelSpec K}
    {l : Option (Level K (SceneNode K))}
    (h : LevelVisit (Depicts c V world · path) scope level p l q) (hp : p.Shows c V) :
    Reaches c V p q ((met c path level.target).flatMap (notes c V))
        ((met c path level.target).flatMap (draws c)) ∧
      (ScopeLasts p.arena world scope (scopeAt c.document V path) →
        LevelShows q.arena l level.minDistance (depict c V path level.target)) := by
  obtain ⟨own', p₂, n, hscope, hvisit, rfl⟩ := h
  obtain ⟨own₂, p₃, hscope', hreaches', hlasts'⟩ := levelScope_shows hp scope
  rw [hscope] at hscope'
  cases hscope'
  obtain ⟨hreaches, hshows⟩ := hvisit hreaches'.shows
  refine ⟨hreaches'.trans hreaches, fun hs b hb => ?_⟩
  rw [← hshows (hlasts' _ _ hs) b hb, Option.map_map, Option.map_map]
  rfl

theorem Entered.depicts_lod {levels : List (LevelSpec K)}
    {built : List (Option (Level K (SceneNode K)))}
    (h : Entered c parent inherited path id p e scope own q) (hkind : e.kind = .lod levels)
    (hsteps : Steps (LevelVisit (Depicts c V own.world · (id :: path)) scope) levels q built r) :
    Depicts c V parent inherited path id p
      (some { own with lod := some (.ofLevels built.reduceOption) }.gatherShadows) r.counting := by
  have hdepict := depict_kind (V := V) (h.leftOut?_eq_none (by simp [hkind])) h.found
  rw [hkind] at hdepict
  refine h.depicts (P := fun s => lodPicture (.entered id e s) _) hdepict fun hq => ?_
  obtain ⟨hbelow, hbuilt⟩ := hsteps.reaches (V := V) (a := q.arena)
    (J := fun a (level : LevelSpec K) l =>
      ScopeLasts q.arena own.world scope (scopeAt c.document V (id :: path)) →
        LevelShows a l level.minDistance (depict c V (id :: path) level.target))
    (fun hab hJ hs => (hJ hs).mono hab)
    (fun level p' l q' hlevel hp' ha => by
      obtain ⟨hreaches, hshows⟩ := hlevel.depicts hp'
      exact ⟨hreaches, fun hs => hshows (hs.mono ha)⟩)
    hq (.refl _)
  rw [hkind]
  refine ⟨?_, fun hs hempty => lod_shows hempty fun b hb => ?_⟩
  · simpa only [kindNotes, ElementKind.references, List.flatMap_map, List.nil_append] using hbelow
  · exact map_reduceOption (hbuilt.imp fun level l hl => hl hs b hb)

end Entering

/-- **What a visit makes looks as the document says, and it reports what there is to report**, no
    matter what has been made before. -/
theorem depicted_visit (c : Setting K) (V : Views K) (parent : Shared (Affine K))
    (inherited : Inherited K) (path : List String) (id : String) (p : Progress K) :
    Depicts c V parent inherited path id p (visit c parent inherited path id p).1
      (visit c parent inherited path id p).2 := by
  refine visit_kinds_induction (P := Depicts c V) ?leftOut ?unsupported ?group ?primitive ?light
    ?lod parent inherited path id p
  case leftOut =>
    intro _ _ path id p d hleft hinside hp
    obtain ⟨hnotes, hdraws⟩ := notes_leftOut (V := V) hleft hinside
    rw [met_leftOut hleft, List.flatMap_singleton, List.flatMap_singleton, hnotes, hdraws,
      depict_leftOut hleft]
    exact ⟨.noting hp [d], fun _ _ _ => rfl⟩
  case unsupported =>
    intro _ _ path id p e scope own q kind hentered hkind hp
    obtain ⟨hq, -⟩ := hentered.shows hp
    have hleft : leftOut? c path id = some (.unsupportedKind id kind) := by
      simp [leftOut?, hentered.found, hentered.outside, Nat.not_le_of_lt hentered.shallow, hkind]
    refine ⟨hentered.reaches hq ?_, fun _ _ _ => by rw [depict_leftOut hleft]; rfl⟩
    rw [hkind]
    exact .noting hq.shows _
  case group =>
    intro _ _ path id p e scope own q children built r hentered hkind hsteps
    exact hentered.depicts_group hkind (hsteps.mono fun _ _ _ _ h => h.2)
  case primitive =>
    intro _ _ path id p e scope own q shape n r hentered hkind hattach
    exact hentered.depicts_shape hkind hattach
  case light =>
    intro _ _ path id p e scope own q spec n r hentered hkind hattach
    exact hentered.depicts_light hkind hattach
  case lod =>
    intro _ _ path id p e scope own q levels built r hentered hkind hsteps
    refine hentered.depicts_lod hkind (hsteps.mono fun level p' l q' hlevel => ?_)
    obtain ⟨own', p'', n, hscope, hvisit, rfl⟩ := hlevel
    exact ⟨own', p'', n, hscope, hvisit.2, rfl⟩

end Walk

end SceneAssembly
