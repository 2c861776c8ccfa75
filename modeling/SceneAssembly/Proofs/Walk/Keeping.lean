/-
  SceneAssembly/Proofs/Walk/Keeping.lean
  ======================================
  **The materials that a walk keeps for later.**

  A walk keeps the materials of descriptions and one fallback, to be used
  again; every other material that it makes has a number of its own.  The kept
  ones have different numbers, all given out before (`Progress.Orderly`), and a
  material that is not kept when it is made is never kept later
  (`Progress.Orders`, `not_keeps_of_plain`).
-/
import SceneAssembly.Proofs.Walk.Filling
import SceneAssembly.Proofs.Walk.Growth

namespace SceneAssembly

variable {K : Type}

namespace Progress

/-! ## 1. Kept numbers -/

/-- The number of a material that is kept for later. -/
def Keeps (p : Progress K) (k : Nat) : Prop :=
  (∃ id m, p.materials.find? id = some m ∧ m.id = k) ∨ ∃ m, p.fallback = some m ∧ m.id = k

/-- The kept materials have different numbers, which have been given out. -/
structure Orderly (p : Progress K) : Prop where
  given : ∀ k, p.Keeps k → k < p.arena.next
  materials : ∀ {id id' m m'}, p.materials.find? id = some m → p.materials.find? id' = some m' →
    m.id = m'.id → id = id'
  fallback : ∀ {id m m'}, p.materials.find? id = some m → p.fallback = some m' → m.id ≠ m'.id

/-- What is there stays, and a material that is kept anew has a new number. -/
structure Orders (p q : Progress K) : Prop extends Extends p q where
  later : p.library.KeepsNumbers → ∀ k, q.Keeps k → p.Keeps k ∨ p.arena.next ≤ k
  orderly : p.library.KeepsNumbers → p.Orderly → q.Orderly

section Laws

variable {p q r : Progress K}

theorem Orders.refl (p : Progress K) : Orders p p :=
  ⟨.refl p, fun _ _ hk => .inl hk, fun _ hp => hp⟩

theorem Orders.trans (h : Orders p q) (h' : Orders q r) : Orders p r where
  toExtends := h.toExtends.trans h'.toExtends
  later hp k hk := by
    rcases h'.later (h.keepsNumbers hp) k hk with hk | hk
    · exact h.later hp k hk
    · exact .inr (Nat.le_trans (h.numbers hp) hk)
  orderly hp hordered := h'.orderly (h.keepsNumbers hp) (h.orderly hp hordered)

instance : IsPreorder (Progress K) Orders where
  refl := .refl
  trans _ _ _ := .trans

theorem Plain.keeps_iff (h : Plain p q) (k : Nat) : q.Keeps k ↔ p.Keeps k := by
  unfold Keeps
  rw [h.materials_eq, h.fallback_eq]

theorem Plain.orders (h : Plain p q) : Orders p q where
  toExtends := h.toExtends
  later _ k hk := .inl ((h.keeps_iff k).mp hk)
  orderly hp hordered := by
    refine ⟨fun k hk => ?_, ?_, ?_⟩
    · exact Nat.lt_of_lt_of_le (hordered.given k ((h.keeps_iff k).mp hk)) (h.numbers hp)
    · rw [h.materials_eq]
      exact hordered.materials
    · rw [h.materials_eq, h.fallback_eq]
      exact hordered.fallback

theorem Orders.noting (h : Orders p q) (ds : List (Diagnostic K)) : Orders p (q.noting ds) :=
  ⟨h.toExtends.noting ds, h.later, fun hp hordered =>
    ⟨(h.orderly hp hordered).given, (h.orderly hp hordered).materials,
      (h.orderly hp hordered).fallback⟩⟩

theorem Orders.counting (h : Orders p q) : Orders p q.counting :=
  ⟨h.toExtends.counting, h.later, fun hp hordered =>
    ⟨(h.orderly hp hordered).given, (h.orderly hp hordered).materials,
      (h.orderly hp hordered).fallback⟩⟩

theorem Orders.of_counting (h : Orders p.counting q) : Orders p q :=
  ((Orders.refl p).counting).trans h

/-- A number that was given out for something that is not kept is not kept in the end either. -/
theorem not_keeps_of_plain {final : Progress K} {k : Nat} (h : p.Plain q) (hq : q.Orders final)
    (hp : p.library.KeepsNumbers) (hordered : p.Orderly) (hk : p.arena.next ≤ k)
    (hk' : k < q.arena.next) : ¬ final.Keeps k := by
  intro hkeeps
  rcases hq.later (h.keepsNumbers hp) k hkeeps with hold | hnew
  · have hgiven := hordered.given k ((h.keeps_iff k).mp hold)
    omega
  · omega

end Laws

/-! ## 2. Keeping a material -/

section Changes

variable {p : Progress K} {k : Nat}

theorem keeps_insert {id : String} {m : Shared (Material K)}
    (h : ({ p with materials := p.materials.insert id m } : Progress K).Keeps k) :
    p.Keeps k ∨ k = m.id := by
  rcases h with ⟨id', m', hm', rfl⟩ | hfallback
  · have hm' : (p.materials.insert id m).find? id' = some m' := hm'
    rw [Table.find?_insert] at hm'
    split at hm'
    · cases hm'
      exact .inr rfl
    · exact .inl (.inl ⟨id', m', hm', rfl⟩)
  · exact .inl (.inr hfallback)

/-- A material under a new identifier, with the number given out last. -/
theorem Orders.material {id : String} {value : Material K} (h : p.materials.find? id = none) :
    Orders p { p with
      arena := { p.arena with next := p.arena.next + 1 }
      materials := p.materials.insert id ⟨p.arena.next, value⟩ } where
  toExtends := (Works.material h).toExtends.trans (Plain.arena (Nat.le_succ _)).toExtends
  later _ k hk := by
    rcases keeps_insert hk with hk | rfl
    · exact .inl hk
    · exact .inr (Nat.le_refl _)
  orderly _ hordered := by
    have hold : ∀ {id' m'}, p.materials.find? id' = some m' → m'.id < p.arena.next :=
      fun hm' => hordered.given _ (.inl ⟨_, _, hm', rfl⟩)
    refine ⟨fun k hk => ?_, fun {id₁ id₂ m₁ m₂} h₁ h₂ heq => ?_, fun {id₁ m₁ m₂} h₁ h₂ => ?_⟩
    · rcases keeps_insert hk with hk | rfl
      · exact Nat.lt_succ_of_lt (hordered.given k hk)
      · exact Nat.lt_succ_self _
    · have h₁ : (p.materials.insert id ⟨p.arena.next, value⟩).find? id₁ = some m₁ := h₁
      have h₂ : (p.materials.insert id ⟨p.arena.next, value⟩).find? id₂ = some m₂ := h₂
      rw [Table.find?_insert] at h₁ h₂
      split at h₁
      next hid₁ =>
        split at h₂
        next hid₂ => exact hid₁.trans hid₂.symm
        next =>
          cases h₁
          exact absurd heq (Nat.ne_of_gt (hold h₂))
      next =>
        split at h₂
        next =>
          cases h₂
          exact absurd heq (Nat.ne_of_lt (hold h₁))
        next => exact hordered.materials h₁ h₂ heq
    · have h₁ : (p.materials.insert id ⟨p.arena.next, value⟩).find? id₁ = some m₁ := h₁
      rw [Table.find?_insert] at h₁
      split at h₁
      next =>
        cases h₁
        exact Nat.ne_of_gt (hordered.given _ (.inr ⟨m₂, h₂, rfl⟩))
      next => exact hordered.fallback h₁ h₂

/-- The fallback, with a number that is new. -/
theorem Orders.fallbackMaterial {m : Shared (Material K)} {n : Nat} (h : p.fallback = none)
    (hlow : p.arena.next ≤ m.id) (hhigh : m.id < n) :
    Orders p { p with arena := { p.arena with next := n }, fallback := some m } where
  toExtends := by
    have hnext : p.arena.next ≤ n := Nat.le_of_lt (Nat.lt_of_le_of_lt hlow hhigh)
    have hkept := (Works.fallbackMaterial (m := m) h).toExtends
    exact hkept.trans (Plain.arena (p := { p with fallback := some m }) hnext).toExtends
  later _ k hk := by
    rcases hk with hk | ⟨m', hm', rfl⟩
    · exact .inl (.inl hk)
    · cases hm'
      exact .inr hlow
  orderly _ hordered := by
    refine ⟨fun k hk => ?_, hordered.materials, fun {id m₁ m₂} h₁ h₂ => ?_⟩
    · rcases hk with hk | ⟨m', hm', rfl⟩
      · have hgiven := hordered.given k (.inl hk)
        show k < n
        omega
      · cases hm'
        exact hhigh
    · cases h₂
      have hgiven := hordered.given m₁.id (.inl ⟨id, m₁, h₁, rfl⟩)
      omega

end Changes

end Progress

/-! ## 3. Actions -/

namespace Walk

open Progress (Orders Plain)

theorem Does.orders {α : Type} {x : Walk K α} (h : Does Plain x) : Does Orders x :=
  fun p => (h p).orders

variable [Scalar K]

theorem orders_materialOf (c : Setting K) (e : Element K) (inherited : Inherited K) :
    Does Orders (materialOf c e inherited) := by
  intro p
  cases hid : e.material with
  | none =>
    rw [materialOf_inherited hid]
    exact .refl p
  | some id =>
    cases hkept : p.materials.find? id with
    | some m =>
      rw [materialOf_kept hid hkept]
      exact .refl p
    | none =>
      cases hspec : c.document.materials.find? id with
      | none =>
        rw [materialOf_missing hid hkept hspec]
        exact (Orders.refl p).noting _
      | some spec =>
        obtain ⟨m, faults, r, a, hbuild, heq⟩ := materialOf_build inherited hid hkept hspec
        have hgrow := MaterialSpec.growth_build (s := (p.registry, p.arena)) spec
        rw [hbuild] at hgrow
        rw [heq]
        have hkept' : ({ p with registry := r, arena := a } : Progress K).materials.find? id =
            none := hkept
        exact ((Plain.textures hgrow).orders.trans (Orders.material hkept')).noting faults

theorem orders_scopeOf (c : Setting K) (e : Element K) (inherited : Inherited K) :
    Does Orders (scopeOf c e inherited) :=
  .bind (orders_materialOf c e inherited) fun _ =>
    .bind (plain_textureOf e inherited).orders fun _ => .pure _

theorem Entered.orders {c : Setting K} {parent : Shared (Affine K)} {inherited : Inherited K}
    {path : List String} {id : String} {p q : Progress K} {e : Element K} {scope : Inherited K}
    {own : SceneNode K} (h : Entered c parent inherited path id p e scope own q) :
    p.Orders q := by
  obtain ⟨p', a, hscope, hnext, rfl⟩ := h.scope_made
  have hordered := orders_scopeOf c e inherited p
  rw [hscope] at hordered
  exact hordered.trans (((Plain.noting fun d => TransformStep.isReference_of_mem_faults).trans
    (Plain.arena hnext)).orders)

theorem orders_fallbackMaterial (c : Setting K) : Does Orders (fallbackMaterial c) := by
  intro p
  obtain ⟨arena, registry, library, materials, fallback, report⟩ := p
  cases fallback with
  | some m => exact .refl _
  | none =>
    exact Orders.fallbackMaterial (p := ⟨arena, registry, library, materials, none, report⟩) rfl
      (Nat.le_succ _) (Nat.lt_succ_self _)

theorem orders_surfaceMaterial (c : Setting K) (scope : Inherited K) :
    Does Orders (surfaceMaterial c scope) := by
  obtain ⟨material, texture, cast, receive⟩ := scope
  cases material with
  | none => exact orders_fallbackMaterial c
  | some m => exact (plain_surfaceMaterial c m texture cast receive).orders

theorem orders_attachShape (c : Setting K) (scope : Inherited K) (shape : ShapeSpec K)
    (n : SceneNode K) : Does Orders (attachShape c scope shape n) := by
  by_cases hmodel : ∃ file, shape = .model file
  · obtain ⟨file, rfl⟩ := hmodel
    exact (plain_attachModel c scope file n).orders
  · rw [attachShape_of_ne_model fun file h => hmodel ⟨file, h⟩]
    unfold attachMesh
    cases hbuild : shape.build c.settings with
    | error d =>
      exact .bind (Does.report (ShapeSpec.isReference_of_build hbuild)).orders fun _ => .pure _
    | ok geometry =>
      refine .bind (Does.onArena fun a => Nat.le_succ _).orders fun g => ?_
      refine .bind (orders_surfaceMaterial c scope) fun m => ?_
      exact .bind (plain_groupMaterials shape).orders fun _ => .pure _

/-! ## 4. Visits -/

/-- **Whatever a visit keeps anew has a new number.** -/
theorem orders_visit (c : Setting K) (parent : Shared (Affine K)) (inherited : Inherited K)
    (path : List String) (id : String) (p : Progress K) :
    p.Orders (visit c parent inherited path id p).2 := by
  refine visit_induction (P := fun _ _ _ _ p _ q => p.Orders q)
    ?leftOut ?group ?primitive ?light ?lod parent inherited path id p
  case leftOut =>
    rintro _ _ _ _ p q d _ (rfl | ⟨e, scope, own, hentered⟩)
    · exact (Orders.refl _).noting _
    · exact hentered.orders.noting _
  case group =>
    intro _ _ _ _ p e scope own q children built r hentered _ hsteps
    have hbelow : q.Orders r := hsteps.lift .refl .trans fun _ _ _ _ h => h.2
    exact (hentered.orders.trans hbelow).counting
  case primitive =>
    intro _ _ _ _ p e scope own q shape n r hentered _ hattach
    have hattached := orders_attachShape c scope shape own q
    rw [hattach] at hattached
    exact (hentered.orders.trans hattached).counting
  case light =>
    intro _ _ _ _ p e scope own q spec n r hentered _ hattach
    have hplain := plain_attachLight spec own q
    rw [hattach] at hplain
    exact (hentered.orders.trans hplain.orders).counting
  case lod =>
    intro _ _ _ _ p e scope own q levels built r hentered _ hsteps
    have hbelow : q.Orders r := by
      refine hsteps.lift .refl .trans fun level p l q hlevel => ?_
      obtain ⟨own', p', -, hplain, -, hvisit⟩ := hlevel.parts
      exact hplain.orders.trans hvisit
    exact (hentered.orders.trans hbelow).counting

theorem orders_of_visit {c : Setting K} {parent : Shared (Affine K)} {inherited : Inherited K}
    {path : List String} {id : String} {p q : Progress K} {n : Option (SceneNode K)}
    (h : visit c parent inherited path id p = (n, q)) : p.Orders q := by
  have hordered := orders_visit c parent inherited path id p
  rwa [h] at hordered

end Walk

end SceneAssembly
