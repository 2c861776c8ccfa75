/-
  SceneAssembly/Proofs/Walk/Visits.lean
  =====================================
  **What one visit does, and the induction over all visits below it.**

  A visit to a reference leaves it out (`visit_missing`, `visit_cycle`,
  `visit_tooDeep`) or enters its element (`Entered`) and fills a node, unless its
  kind is unknown.  The references of an element are visited one after the other,
  each from the progress that the one before it left (`Steps`).

  `visit_induction` is the induction that all properties of the walk are proved
  by: its five cases are the five ways a visit can go, and the visits below an
  element come with the property in hand.
-/
import Mathlib.Data.List.ReduceOption
import SceneAssembly.Assembly

namespace SceneAssembly

variable {K : Type}

/-! ## 1. Notes in the report -/

namespace Progress

def noting (p : Progress K) (ds : List (Diagnostic K)) : Progress K :=
  { p with report := { p.report with diagnostics := p.report.diagnostics ++ ds } }

def counting (p : Progress K) : Progress K :=
  { p with report := { p.report with assembled := p.report.assembled + 1 } }

end Progress

/-- Why a reference is left out, if it is.  The first reason that applies counts: there is no such
    element, the walk is inside of it, the path to it is too long, its kind is unknown. -/
def leftOut? (c : Setting K) (path : List String) (id : String) : Option (Diagnostic K) :=
  match c.document.elements.find? id with
  | none => some (.missingElement id)
  | some e =>
    if id ∈ path then some (.cycle id)
    else if c.settings.maxDepth ≤ path.length then some (.tooDeep id c.settings.maxDepth)
    else match e.kind with
      | .unsupported kind => some (.unsupportedKind id kind)
      | _ => none

theorem leftOut?_eq_none_iff {c : Setting K} {path : List String} {id : String} :
    leftOut? c path id = none ↔
      ∃ e, c.document.elements.find? id = some e ∧ id ∉ path ∧
        path.length < c.settings.maxDepth ∧ ∀ kind, e.kind ≠ .unsupported kind := by
  unfold leftOut?
  cases hid : c.document.elements.find? id with
  | none => simp
  | some e =>
    by_cases hpath : id ∈ path
    · simp [hpath]
    · by_cases hdepth : c.settings.maxDepth ≤ path.length
      · simp [hpath, hdepth, Nat.not_lt.mpr hdepth]
      · have hshallow : path.length < c.settings.maxDepth := Nat.lt_of_not_le hdepth
        cases hkind : e.kind <;> simp [hpath, hdepth, hshallow, hkind]

/-- A cycle is met where a path comes back to one of its elements. -/
theorem leftOut?_eq_cycle_iff {c : Setting K} {path : List String} {id id' : String} :
    leftOut? c path id = some (.cycle id') ↔
      id' = id ∧ id ∈ path ∧ ∃ e, c.document.elements.find? id = some e := by
  unfold leftOut?
  cases hid : c.document.elements.find? id with
  | none => simp
  | some e =>
    by_cases hpath : id ∈ path
    · simp [hpath, eq_comm]
    · by_cases hdepth : c.settings.maxDepth ≤ path.length
      · simp [hpath, hdepth]
      · cases hkind : e.kind <;> simp [hpath, hdepth, hkind]

/-- A reference is too deep where a path that does not come back is as long as it may be. -/
theorem leftOut?_eq_tooDeep_iff {c : Setting K} {path : List String} {id id' : String}
    {limit : Nat} :
    leftOut? c path id = some (.tooDeep id' limit) ↔
      id' = id ∧ limit = c.settings.maxDepth ∧ id ∉ path ∧ c.settings.maxDepth ≤ path.length ∧
        ∃ e, c.document.elements.find? id = some e := by
  unfold leftOut?
  cases hid : c.document.elements.find? id with
  | none => simp
  | some e =>
    by_cases hpath : id ∈ path
    · simp [hpath]
    · by_cases hdepth : c.settings.maxDepth ≤ path.length
      · simp [hpath, hdepth, eq_comm]
      · cases hkind : e.kind <;> simp [hpath, hdepth, hkind]

namespace Lod

variable [Scalar K] {α : Type}

/-- Levels of detail out of levels that are added one by one. -/
def ofLevels (levels : List (Level K α)) : Lod K α :=
  levels.foldl (fun lod level => lod.add level.minDistance level.node) .empty

theorem insertLevel_perm (level : Level K α) (levels : List (Level K α)) :
    (insertLevel level levels).Perm (level :: levels) := by
  induction levels with
  | nil => exact List.Perm.refl _
  | cons l rest ih =>
    unfold insertLevel
    split
    · exact List.Perm.refl _
    · exact (ih.cons l).trans (List.Perm.swap level l rest)

theorem foldl_add_perm (levels : List (Level K α)) (lod : Lod K α) :
    (levels.foldl (fun lod level => lod.add level.minDistance level.node) lod).levels.Perm
      (lod.levels ++ levels) := by
  induction levels generalizing lod with
  | nil => simp
  | cons level rest ih =>
    have hadd : (lod.add level.minDistance level.node).levels.Perm (level :: lod.levels) :=
      insertLevel_perm level lod.levels
    exact (ih _).trans ((hadd.append_right rest).trans List.perm_middle.symm)

theorem levels_ofLevels_perm (levels : List (Level K α)) :
    (ofLevels levels).levels.Perm levels := by
  simpa [ofLevels, empty] using foldl_add_perm levels empty

theorem mem_levels_ofLevels {levels : List (Level K α)} {level : Level K α} :
    level ∈ (ofLevels levels).levels ↔ level ∈ levels :=
  (levels_ofLevels_perm levels).mem_iff

end Lod

namespace Walk

/-! ## 2. One after the other -/

/-- Results of doing something with each item of a list, from one progress to the next. -/
inductive Steps {α β : Type} (R : α → Progress K → β → Progress K → Prop) :
    List α → Progress K → List β → Progress K → Prop
  | nil (p : Progress K) : Steps R [] p [] p
  | cons {a : α} {as : List α} {b : β} {bs : List β} {p q r : Progress K} :
      R a p b q → Steps R as q bs r → Steps R (a :: as) p (b :: bs) r

namespace Steps

variable {α β : Type} {R S : α → Progress K → β → Progress K → Prop}
  {as : List α} {bs : List β} {p q : Progress K}

theorem mono (h : ∀ a p b q, R a p b q → S a p b q) (hs : Steps R as p bs q) :
    Steps S as p bs q := by
  induction hs with
  | nil p => exact .nil p
  | cons hstep _ ih => exact .cons (h _ _ _ _ hstep) ih

theorem lift {G : Progress K → Progress K → Prop} (hrefl : ∀ p, G p p)
    (htrans : ∀ {p q r}, G p q → G q r → G p r) (h : ∀ a p b q, R a p b q → G p q)
    (hs : Steps R as p bs q) : G p q := by
  induction hs with
  | nil p => exact hrefl p
  | cons hstep _ ih => exact htrans (h _ _ _ _ hstep) ih

/-- What every step keeps stays, and what every step then says about its item and its result holds
    of all of them. -/
theorem invariant {I : Progress K → Prop} {J : α → β → Prop}
    (h : ∀ a p b q, R a p b q → I p → I q ∧ J a b) (hs : Steps R as p bs q) (hp : I p) :
    I q ∧ List.Forall₂ J as bs := by
  induction hs with
  | nil p => exact ⟨hp, .nil⟩
  | cons hstep _ ih =>
    obtain ⟨hq, hj⟩ := h _ _ _ _ hstep hp
    obtain ⟨hr, hall⟩ := ih hq
    exact ⟨hr, .cons hj hall⟩

/-- The same where the steps are only known to do right if they end below a bound. -/
theorem bounded {B I : Progress K → Prop} {J : α → β → Prop}
    (hback : ∀ a p b q, R a p b q → B q → B p)
    (h : ∀ a p b q, R a p b q → B q → I p → I q ∧ J a b) (hs : Steps R as p bs q) (hq : B q)
    (hp : I p) : I q ∧ List.Forall₂ J as bs := by
  induction hs with
  | nil p => exact ⟨hp, .nil⟩
  | @cons a as b bs p q r hstep hrest ih =>
    have hmid : B q := hrest.lift (G := fun p q => B q → B p) (fun _ h => h)
      (fun h h' hr => h (h' hr)) hback hq
    obtain ⟨hi, hj⟩ := h _ _ _ _ hstep hmid hp
    obtain ⟨hend, hall⟩ := ih hq hi
    exact ⟨hend, .cons hj hall⟩

end Steps

/-! ## 3. The parts of a visit -/

variable [Scalar K] {c : Setting K}

/-- The visit to a reference enters its element. -/
structure Entered (c : Setting K) (parent : Shared (Affine K)) (inherited : Inherited K)
    (path : List String) (id : String) (p : Progress K) (e : Element K) (scope : Inherited K)
    (own : SceneNode K) (q : Progress K) : Prop where
  found : c.document.elements.find? id = some e
  outside : id ∉ path
  shallow : path.length < c.settings.maxDepth
  entered : enter c parent inherited id e p = ((scope, own), q)

theorem Entered.leftOut?_eq_none {parent : Shared (Affine K)} {inherited : Inherited K}
    {path : List String} {id : String} {p q : Progress K} {e : Element K} {scope : Inherited K}
    {own : SceneNode K} (h : Entered c parent inherited path id p e scope own q)
    (hkind : ∀ kind, e.kind ≠ .unsupported kind) : leftOut? c path id = none :=
  leftOut?_eq_none_iff.mpr ⟨e, h.found, h.outside, h.shallow, hkind⟩

/-- The level of a reference is visited with a material of its own. -/
def LevelVisit (R : Inherited K → String → Progress K → Option (SceneNode K) → Progress K → Prop)
    (scope : Inherited K) (level : LevelSpec K) (p : Progress K)
    (built : Option (Level K (SceneNode K))) (q : Progress K) : Prop :=
  ∃ own p' n, levelScope scope p = (own, p') ∧ R own level.target p' n q ∧
    built = n.map (Level.mk level.minDistance)

section Equations

variable (parent : Shared (Affine K)) (inherited : Inherited K) {path : List String} {id : String}
  {e : Element K}

theorem visit_missing (hid : c.document.elements.find? id = none) :
    visit c parent inherited path id = fun p => (none, p.noting [.missingElement id]) := by
  rw [visit]
  split
  next => rfl
  next e h => rw [hid] at h; cases h

theorem visit_cycle (hid : c.document.elements.find? id = some e) (hpath : id ∈ path) :
    visit c parent inherited path id = fun p => (none, p.noting [.cycle id]) := by
  rw [visit]
  split
  next h => rw [hid] at h; cases h
  next => rw [dif_pos (List.contains_iff_mem.mpr hpath)]; rfl

theorem visit_tooDeep (hid : c.document.elements.find? id = some e) (hpath : id ∉ path)
    (hdepth : c.settings.maxDepth ≤ path.length) :
    visit c parent inherited path id =
      fun p => (none, p.noting [.tooDeep id c.settings.maxDepth]) := by
  rw [visit]
  split
  next h => rw [hid] at h; cases h
  next => rw [dif_neg (mt List.contains_iff_mem.mp hpath), if_pos hdepth]; rfl

/-- What is put into the node of an element that has been entered. -/
def fill (c : Setting K) (scope : Inherited K) (path : List String) (id : String)
    (own : SceneNode K) : ElementKind K → Walk K (Option (SceneNode K))
  | .group children => do
    let children ← visitChildren c own.world scope (id :: path) children
    finish { own with children := children }
  | .primitive shape => do finish (← attachShape c scope shape own)
  | .light spec => do finish (← attachLight spec own)
  | .lod levels => do
    let lod ← visitLevels c own.world scope (id :: path) .empty levels
    finish { own with lod := some lod }
  | .unsupported kind => do
    report (.unsupportedKind id kind)
    return none

theorem visit_eq_fill (hid : c.document.elements.find? id = some e) (hpath : id ∉ path)
    (hdepth : ¬ c.settings.maxDepth ≤ path.length) :
    visit c parent inherited path id =
      (enter c parent inherited id e >>= fun x => fill c x.1 path id x.2 e.kind) := by
  rw [visit]
  split
  next h => rw [hid] at h; cases h
  next e' h =>
    obtain rfl : e = e' := Option.some.inj (hid.symm.trans h)
    rw [dif_neg (mt List.contains_iff_mem.mp hpath), if_neg hdepth]
    congr 1

end Equations

theorem steps_visitChildren {parent : Shared (Affine K)} {scope : Inherited K} {path : List String}
    {R : String → Progress K → Option (SceneNode K) → Progress K → Prop}
    (h : ∀ id p, R id p (visit c parent scope path id p).1 (visit c parent scope path id p).2)
    (ids : List String) (p : Progress K) :
    ∃ built q, visitChildren c parent scope path ids p = (built.reduceOption, q) ∧
      Steps R ids p built q := by
  induction ids generalizing p with
  | nil => exact ⟨[], p, by rw [visitChildren]; rfl, .nil p⟩
  | cons id rest ih =>
    obtain ⟨built, q, heq, hsteps⟩ := ih (visit c parent scope path id p).2
    refine ⟨(visit c parent scope path id p).1 :: built, q, ?_, .cons (h id p) hsteps⟩
    rw [visitChildren]
    show (_ ++ (visitChildren c parent scope path rest (visit c parent scope path id p).2).1,
      (visitChildren c parent scope path rest (visit c parent scope path id p).2).2) = _
    rw [heq]
    cases (visit c parent scope path id p).1 <;> rfl

theorem steps_visitLevels {parent : Shared (Affine K)} {path : List String}
    {R : Inherited K → String → Progress K → Option (SceneNode K) → Progress K → Prop}
    (h : ∀ own id p, R own id p (visit c parent own path id p).1 (visit c parent own path id p).2)
    (scope : Inherited K) (levels : List (LevelSpec K)) (lod : Lod K (SceneNode K))
    (p : Progress K) :
    ∃ built q, visitLevels c parent scope path lod levels p =
        (built.reduceOption.foldl (fun lod l => lod.add l.minDistance l.node) lod, q) ∧
      Steps (LevelVisit R scope) levels p built q := by
  induction levels generalizing lod p with
  | nil => exact ⟨[], p, by rw [visitLevels]; rfl, .nil p⟩
  | cons level rest ih =>
    obtain ⟨own, p', hscope⟩ : ∃ own p', levelScope scope p = (own, p') := ⟨_, _, rfl⟩
    obtain ⟨n, q, hvisit⟩ : ∃ n q, visit c parent own path level.target p' = (n, q) := ⟨_, _, rfl⟩
    have hstep : LevelVisit R scope level p (n.map (Level.mk level.minDistance)) q := by
      have hR := h own level.target p'
      rw [hvisit] at hR
      exact ⟨own, p', n, hscope, hR, rfl⟩
    cases n with
    | none =>
      obtain ⟨built, r, heq, hsteps⟩ := ih lod q
      refine ⟨none :: built, r, ?_, .cons hstep hsteps⟩
      rw [visitLevels]
      simp only [bind, StateT.bind, hscope, hvisit, heq]
      rfl
    | some n =>
      obtain ⟨built, r, heq, hsteps⟩ := ih (lod.add level.minDistance n) q
      refine ⟨some ⟨level.minDistance, n⟩ :: built, r, ?_, .cons hstep hsteps⟩
      rw [visitLevels]
      simp only [bind, StateT.bind, hscope, hvisit, heq]
      rfl

/-! ## 4. Induction over visits -/

section Induction

variable {P : Shared (Affine K) → Inherited K → List String → String → Progress K →
  Option (SceneNode K) → Progress K → Prop}

/-- **Induction over visits.**  A property of what a visit is given, makes and leaves holds of every
    visit if it holds of the visits that leave a reference out, of those that enter an element of an
    unknown kind, and of those that enter another element provided that it holds of the visits
    below. -/
theorem visit_kinds_induction
    (leftOut : ∀ {parent inherited path id p d}, leftOut? c path id = some d →
      (∀ e, c.document.elements.find? id = some e →
        id ∈ path ∨ c.settings.maxDepth ≤ path.length) →
      P parent inherited path id p none (p.noting [d]))
    (unsupported : ∀ {parent inherited path id p e scope own q kind},
      Entered c parent inherited path id p e scope own q → e.kind = .unsupported kind →
      P parent inherited path id p none (q.noting [.unsupportedKind id kind]))
    (group : ∀ {parent inherited path id p e scope own q children built r},
      Entered c parent inherited path id p e scope own q → e.kind = .group children →
      Steps (fun id' p' n q' => visit c own.world scope (id :: path) id' p' = (n, q') ∧
        P own.world scope (id :: path) id' p' n q') children q built r →
      P parent inherited path id p
        (some { own with children := built.reduceOption }.gatherShadows) r.counting)
    (primitive : ∀ {parent inherited path id p e scope own q shape n r},
      Entered c parent inherited path id p e scope own q → e.kind = .primitive shape →
      attachShape c scope shape own q = (n, r) →
      P parent inherited path id p (some n.gatherShadows) r.counting)
    (light : ∀ {parent inherited path id p e scope own q spec n r},
      Entered c parent inherited path id p e scope own q → e.kind = .light spec →
      attachLight spec own q = (n, r) →
      P parent inherited path id p (some n.gatherShadows) r.counting)
    (lod : ∀ {parent inherited path id p e scope own q levels built r},
      Entered c parent inherited path id p e scope own q → e.kind = .lod levels →
      Steps (LevelVisit (fun scope' id' p' n q' =>
        visit c own.world scope' (id :: path) id' p' = (n, q') ∧
          P own.world scope' (id :: path) id' p' n q') scope) levels q built r →
      P parent inherited path id p
        (some { own with lod := some (.ofLevels built.reduceOption) }.gatherShadows) r.counting)
    (parent : Shared (Affine K)) (inherited : Inherited K) (path : List String) (id : String)
    (p : Progress K) :
    P parent inherited path id p (visit c parent inherited path id p).1
      (visit c parent inherited path id p).2 := by
  -- Each descent leaves one element fewer that the walk is not inside of.
  induction hn : (remaining c path).length using Nat.strongRecOn
    generalizing parent inherited path id p with
  | _ n ih =>
    subst hn
    cases hid : c.document.elements.find? id with
    | none =>
      rw [visit_missing _ _ hid]
      exact leftOut (by simp [leftOut?, hid]) fun e he => by rw [hid] at he; cases he
    | some e =>
      by_cases hpath : id ∈ path
      · rw [visit_cycle _ _ hid hpath]
        exact leftOut (by simp [leftOut?, hid, hpath]) fun _ _ => .inl hpath
      by_cases hdepth : c.settings.maxDepth ≤ path.length
      · rw [visit_tooDeep _ _ hid hpath hdepth]
        exact leftOut (by simp [leftOut?, hid, hpath, hdepth]) fun _ _ => .inr hdepth
      obtain ⟨⟨scope, own⟩, q, henter⟩ : ∃ x q, enter c parent inherited id e p = (x, q) :=
        ⟨_, _, rfl⟩
      have hentered : Entered c parent inherited path id p e scope own q :=
        ⟨hid, hpath, Nat.lt_of_not_le hdepth, henter⟩
      have below : ∀ world scope' id' p', P world scope' (id :: path) id' p'
          (visit c world scope' (id :: path) id' p').1
          (visit c world scope' (id :: path) id' p').2 := fun world scope' id' p' =>
        ih _ (remaining_lt c hid (mt List.contains_iff_mem.mp hpath)) world scope' _ id' p' rfl
      have hvisit : visit c parent inherited path id p = fill c scope path id own e.kind q := by
        rw [visit_eq_fill _ _ hid hpath hdepth]
        simp only [bind, StateT.bind, henter]
      rw [hvisit]
      cases hkind : e.kind with
      | group children =>
        obtain ⟨built, r, heq, hsteps⟩ := steps_visitChildren
          (R := fun id' p' n q' => visit c own.world scope (id :: path) id' p' = (n, q') ∧
            P own.world scope (id :: path) id' p' n q')
          (fun id' p' => ⟨rfl, below _ _ id' p'⟩) children q
        have hfill : fill c scope path id own (.group children) q =
            (some { own with children := built.reduceOption }.gatherShadows, r.counting) := by
          simp only [fill, bind, StateT.bind, heq]
          rfl
        rw [hfill]
        exact group hentered hkind hsteps
      | primitive shape =>
        exact primitive hentered hkind rfl
      | light spec =>
        exact light hentered hkind rfl
      | lod levels =>
        obtain ⟨built, r, heq, hsteps⟩ := steps_visitLevels
          (R := fun scope' id' p' n q' =>
            visit c own.world scope' (id :: path) id' p' = (n, q') ∧
              P own.world scope' (id :: path) id' p' n q')
          (fun scope' id' p' => ⟨rfl, below _ scope' id' p'⟩) scope levels .empty q
        have hfill : fill c scope path id own (.lod levels) q =
            (some { own with lod := some (.ofLevels built.reduceOption) }.gatherShadows,
              r.counting) := by
          simp only [fill, bind, StateT.bind, heq]
          rfl
        rw [hfill]
        exact lod hentered hkind hsteps
      | unsupported kind => exact unsupported hentered hkind

/-- The same where it does not matter why a reference is left out, or whether its element has been
    entered. -/
theorem visit_induction
    (leftOut : ∀ {parent inherited path id p q d}, leftOut? c path id = some d →
      (q = p ∨ ∃ e scope own, Entered c parent inherited path id p e scope own q) →
      P parent inherited path id p none (q.noting [d]))
    (group : ∀ {parent inherited path id p e scope own q children built r},
      Entered c parent inherited path id p e scope own q → e.kind = .group children →
      Steps (fun id' p' n q' => visit c own.world scope (id :: path) id' p' = (n, q') ∧
        P own.world scope (id :: path) id' p' n q') children q built r →
      P parent inherited path id p
        (some { own with children := built.reduceOption }.gatherShadows) r.counting)
    (primitive : ∀ {parent inherited path id p e scope own q shape n r},
      Entered c parent inherited path id p e scope own q → e.kind = .primitive shape →
      attachShape c scope shape own q = (n, r) →
      P parent inherited path id p (some n.gatherShadows) r.counting)
    (light : ∀ {parent inherited path id p e scope own q spec n r},
      Entered c parent inherited path id p e scope own q → e.kind = .light spec →
      attachLight spec own q = (n, r) →
      P parent inherited path id p (some n.gatherShadows) r.counting)
    (lod : ∀ {parent inherited path id p e scope own q levels built r},
      Entered c parent inherited path id p e scope own q → e.kind = .lod levels →
      Steps (LevelVisit (fun scope' id' p' n q' =>
        visit c own.world scope' (id :: path) id' p' = (n, q') ∧
          P own.world scope' (id :: path) id' p' n q') scope) levels q built r →
      P parent inherited path id p
        (some { own with lod := some (.ofLevels built.reduceOption) }.gatherShadows) r.counting)
    (parent : Shared (Affine K)) (inherited : Inherited K) (path : List String) (id : String)
    (p : Progress K) :
    P parent inherited path id p (visit c parent inherited path id p).1
      (visit c parent inherited path id p).2 := by
  refine visit_kinds_induction (fun hleft _ => leftOut hleft (.inl rfl)) ?unsupported group
    primitive light lod parent inherited path id p
  case unsupported =>
    intro _ _ path id _ e scope own _ kind hentered hkind
    have hdepth := Nat.not_le_of_lt hentered.shallow
    have hleft : leftOut? c path id = some (.unsupportedKind id kind) := by
      simp [leftOut?, hentered.found, hentered.outside, hdepth, hkind]
    exact leftOut hleft (.inr ⟨e, scope, own, hentered⟩)

end Induction

end Walk

/-! ## 5. The whole walk -/

/-- What the walk through a document starts from: the world of the root has been made. -/
def Workshop.start (w : Workshop K) : Progress K :=
  ⟨{ w.arena with next := w.arena.next + 1 }, w.registry, w.library, .empty, none, .empty⟩

section Assembling

variable [Scalar K] {settings : Settings K} {d : Document K} {w : Workshop K}

theorem assemble_missing (h : ¬ d.elements.contains d.rootId) :
    assemble settings d w = (.error (.missingRoot d.rootId), w) := by
  rw [assemble, if_neg h]

/-- The scene is built around the node of the root, if the visit to the root makes one. -/
theorem assemble_visit (h : d.elements.contains d.rootId) {n : Option (SceneNode K)}
    {q : Progress K} (hvisit : Walk.visit ⟨d, settings⟩ ⟨w.arena.next, Affine.identity⟩ .nothing []
      d.rootId w.start = (n, q)) :
    assemble settings d w = match n with
      | some root => (.ok (.ofRoot d root q.report), ⟨q.arena, q.registry, q.library⟩)
      | none =>
        (.ok (.ofRoot d (.bare d.rootId none ⟨q.arena.next, Affine.identity⟩) q.report),
          ⟨{ q.arena with next := q.arena.next + 1 }, q.registry, q.library⟩) := by
  have hstart : Walk.onArena (Arena.share (Affine.identity : Affine K))
      ⟨w.arena, w.registry, w.library, .empty, none, .empty⟩ =
        (⟨w.arena.next, Affine.identity⟩, w.start) := rfl
  rw [assemble, if_pos h]
  simp only [bind, StateT.bind, hstart, hvisit]
  cases n with
  | some node => rfl
  | none => rfl

theorem exists_scene (settings : Settings K) (w : Workshop K)
    (h : d.elements.contains d.rootId) :
    ∃ scene w', assemble settings d w = (.ok scene, w') := by
  obtain ⟨n, q, hvisit⟩ : ∃ n q, Walk.visit ⟨d, settings⟩ ⟨w.arena.next, Affine.identity⟩
      .nothing [] d.rootId w.start = (n, q) := ⟨_, _, rfl⟩
  rw [assemble_visit h hvisit]
  cases n with
  | some root => exact ⟨_, _, rfl⟩
  | none => exact ⟨_, _, rfl⟩

theorem visit_of_assemble {scene : Scene K} {w' : Workshop K}
    (h : assemble settings d w = (.ok scene, w')) :
    ∃ n q root, Walk.visit ⟨d, settings⟩ ⟨w.arena.next, Affine.identity⟩ .nothing []
        d.rootId w.start = (n, q) ∧
      scene = .ofRoot d root q.report ∧ w'.registry = q.registry ∧
      q.arena.next ≤ w'.arena.next ∧
      match n with
      | some node => root = node ∧ w'.arena = q.arena
      | none => ∃ world, root = .bare d.rootId none world := by
  have hroot : d.elements.contains d.rootId := by
    by_contra hmissing
    rw [assemble_missing hmissing] at h
    cases h
  obtain ⟨n, q, hvisit⟩ : ∃ n q, Walk.visit ⟨d, settings⟩ ⟨w.arena.next, Affine.identity⟩
      .nothing [] d.rootId w.start = (n, q) := ⟨_, _, rfl⟩
  rw [assemble_visit hroot hvisit] at h
  cases n with
  | some node => cases h; exact ⟨_, q, _, hvisit, rfl, rfl, Nat.le_refl _, rfl, rfl⟩
  | none => cases h; exact ⟨_, q, _, hvisit, rfl, rfl, Nat.le_succ _, _, rfl⟩

end Assembling

end SceneAssembly
