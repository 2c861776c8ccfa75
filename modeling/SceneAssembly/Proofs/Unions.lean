/-
  SceneAssembly/Proofs/Unions.lean
  ================================
  **Boxes under their union.**

  A box lies within another one if its ends are between those of the other
  (`Bounds.Within`), and boxes that lie within each other are the same as far as
  comparison goes: zeros may differ in sign (`Bounds.Same`).  A union is the
  least box around its parts (`Bounds.union_within_iff`), the empty box lies
  within every box, and the box of some points is the least one around them
  (`Float32.ofPoints_within_iff`).  A least box is known by what it lies within
  (`Bounds.same_of_within_iff`), so the laws of unions are those of conjunctions,
  and no order matters, neither of points nor of nodes.
-/
import SceneAssembly.Proofs.SceneBounds

namespace SceneAssembly

open Scalar (LawfulOrder)

variable {K : Type} [Scalar K]

/-! ## 1. Boxes within each other -/

namespace Bounds

/-- The ends of the one box lie between those of the other. -/
def Within (b c : Bounds K) : Prop :=
  ∀ i, c.min.along i ≤ b.min.along i ∧ b.max.along i ≤ c.max.along i

/-- The ends of the one box are numerically equal to those of the other. -/
def Same (b c : Bounds K) : Prop :=
  ∀ i, Scalar.same (b.min.along i) (c.min.along i) = true ∧
    Scalar.same (b.max.along i) (c.max.along i) = true

variable {b b' c c' d : Bounds K} {cs cs' : List (Bounds K)} {ps qs : List (Vec3 K)}

theorem within_self_iff : b.Within b ↔ b.IsNumeric :=
  ⟨fun h => ⟨fun i => (h i).1, fun i => (h i).2⟩, fun h i => ⟨h.min i, h.max i⟩⟩

theorem same_iff : b.Same c ↔ b.Within c ∧ c.Within b := by
  simp only [Same, Within, Scalar.same, Bool.and_eq_true, decide_eq_true_eq]
  constructor
  · intro h
    exact ⟨fun i => ⟨(h i).1.2, (h i).2.1⟩, fun i => ⟨(h i).1.1, (h i).2.2⟩⟩
  · rintro ⟨hbc, hcb⟩ i
    exact ⟨⟨(hcb i).1, (hbc i).1⟩, (hbc i).2, (hcb i).2⟩

theorem Same.symm (h : b.Same c) : c.Same b := same_iff.mpr (same_iff.mp h).symm

theorem same_self_iff : b.Same b ↔ b.IsNumeric := by
  rw [same_iff, and_self, within_self_iff]

/-- Boxes that lie within the same boxes are the same. -/
theorem same_of_within_iff (hb : b.IsNumeric) (hc : c.IsNumeric)
    (h : ∀ d, b.Within d ↔ c.Within d) : b.Same c :=
  same_iff.mpr ⟨(h c).mpr (within_self_iff.mpr hc), (h b).mp (within_self_iff.mpr hb)⟩

theorem point_within_iff {p : Vec3 K} : (point p).Within b ↔ b.Holds p := Iff.rfl

section LawfulOrder

variable [LawfulOrder K]

theorem Within.trans (h : b.Within c) (h' : c.Within d) : b.Within d := fun i =>
  ⟨LawfulOrder.le_trans (h' i).1 (h i).1, LawfulOrder.le_trans (h i).2 (h' i).2⟩

theorem Within.isNumeric (h : b.Within c) : b.IsNumeric ∧ c.IsNumeric := by
  refine ⟨⟨fun i => ?_, fun i => ?_⟩, ⟨fun i => ?_, fun i => ?_⟩⟩
  · exact (LawfulOrder.isNumber_of_le (h i).1).2
  · exact (LawfulOrder.isNumber_of_le (h i).2).1
  · exact (LawfulOrder.isNumber_of_le (h i).1).1
  · exact (LawfulOrder.isNumber_of_le (h i).2).2

theorem Same.trans (h : b.Same c) (h' : c.Same d) : b.Same d := by
  rw [same_iff] at h h' ⊢
  exact ⟨h.1.trans h'.1, h'.2.trans h.2⟩

/-! ## 2. Unions -/

theorem within_union (hb : b.IsNumeric) (hc : c.IsNumeric) :
    b.Within (b.union c) ∧ c.Within (b.union c) := by
  have hmin (i : Axis) := Scalar.lesser_le (hb.min i) (hc.min i)
  have hmax (i : Axis) := Scalar.le_greater (hb.max i) (hc.max i)
  simp only [← Vec3.along_lesser] at hmin
  simp only [← Vec3.along_greater] at hmax
  exact ⟨fun i => ⟨(hmin i).1, (hmax i).1⟩, fun i => ⟨(hmin i).2, (hmax i).2⟩⟩

/-- A union is the least box around its parts. -/
theorem union_within_iff (hb : b.IsNumeric) (hc : c.IsNumeric) :
    (b.union c).Within d ↔ b.Within d ∧ c.Within d := by
  constructor
  · intro h
    have hparts := within_union hb hc
    exact ⟨hparts.1.trans h, hparts.2.trans h⟩
  · rintro ⟨hbd, hcd⟩ i
    obtain ⟨hmin, hmax⟩ := ends_union b c i
    constructor
    · rcases hmin with hmin | hmin
      · exact hmin ▸ (hbd i).1
      · exact hmin ▸ (hcd i).1
    · rcases hmax with hmax | hmax
      · exact hmax ▸ (hbd i).2
      · exact hmax ▸ (hcd i).2

theorem foldl_union_within_iff (hb : b.IsNumeric) (hcs : ∀ c ∈ cs, c.IsNumeric) :
    (cs.foldl union b).Within d ↔ b.Within d ∧ ∀ c ∈ cs, c.Within d := by
  induction cs generalizing b with
  | nil => simp
  | cons c rest ih =>
    rw [List.forall_mem_cons] at hcs
    rw [List.foldl_cons, ih (isNumeric_union hb hcs.1) hcs.2, union_within_iff hb hcs.1,
      List.forall_mem_cons, and_assoc]

/-- A union of many boxes does not ask for their order. -/
theorem foldl_union_perm (hb : b.IsNumeric) (hcs : ∀ c ∈ cs, c.IsNumeric) (h : cs'.Perm cs) :
    (cs'.foldl union b).Same (cs.foldl union b) := by
  have hcs' : ∀ c ∈ cs', c.IsNumeric := fun c hc => hcs c (h.mem_iff.mp hc)
  refine same_of_within_iff (isNumeric_foldl_union hb hcs') (isNumeric_foldl_union hb hcs) ?_
  intro d
  rw [foldl_union_within_iff hb hcs', foldl_union_within_iff hb hcs]
  simp only [h.mem_iff]

theorem union_comm (hb : b.IsNumeric) (hc : c.IsNumeric) : (b.union c).Same (c.union b) := by
  refine same_of_within_iff (isNumeric_union hb hc) (isNumeric_union hc hb) ?_
  intro d
  rw [union_within_iff hb hc, union_within_iff hc hb, and_comm]

theorem union_assoc (hb : b.IsNumeric) (hc : c.IsNumeric) (hd : d.IsNumeric) :
    ((b.union c).union d).Same (b.union (c.union d)) := by
  have hbc := isNumeric_union hb hc
  have hcd := isNumeric_union hc hd
  refine same_of_within_iff (isNumeric_union hbc hd) (isNumeric_union hb hcd) ?_
  intro e
  rw [union_within_iff hbc hd, union_within_iff hb hc, union_within_iff hb hcd,
    union_within_iff hc hd, and_assoc]

/-- The union of boxes goes by their numerical values. -/
theorem union_congr (hb : b.Same b') (hc : c.Same c') : (b.union c).Same (b'.union c') := by
  rw [same_iff] at hb hc
  obtain ⟨hnb, hnb'⟩ := hb.1.isNumeric
  obtain ⟨hnc, hnc'⟩ := hc.1.isNumeric
  have hparts := within_union hnb hnc
  have hparts' := within_union hnb' hnc'
  rw [same_iff, union_within_iff hnb hnc, union_within_iff hnb' hnc']
  exact ⟨⟨hb.1.trans hparts'.1, hc.1.trans hparts'.2⟩, hb.2.trans hparts.1, hc.2.trans hparts.2⟩

/-! ## 3. Boxes of points -/

/-- The box of some points is the least one around them. -/
theorem ofPoints_within_iff_of_ne_nil (hne : ps ≠ []) (hps : ∀ p ∈ ps, p.IsNumeric) :
    (ofPoints ps).Within d ↔ ∀ p ∈ ps, d.Holds p := by
  cases ps with
  | nil => exact absurd rfl hne
  | cons q rest =>
    rw [List.forall_mem_cons] at hps
    rw [ofPoints_cons, foldl_union_within_iff (isNumeric_point hps.1) (isNumeric_map_point hps.2),
      List.forall_mem_cons, List.forall_mem_map]
    simp only [point_within_iff]

end LawfulOrder

/-- A box around some points that is no larger than it has to be. -/
structure IsAround (ps : List (Vec3 K)) (b : Bounds K) : Prop where
  numeric : b.IsNumeric
  holds : ∀ p ∈ ps, b.Holds p
  /-- On each face lies a point. -/
  touched : ps ≠ [] → ∀ i, (∃ p ∈ ps, b.min.along i = p.along i) ∧
    ∃ p ∈ ps, b.max.along i = p.along i
  isEmpty_iff : b.isEmpty = true ↔ ps = []

/-- The laws of a commutative monoid of idempotents: for boxes of numbers, up to the signs of
    zeros. -/
structure IsMonoid (K : Type) [Scalar K] : Prop where
  same_self_iff : ∀ b : Bounds K, b.Same b ↔ b.IsNumeric
  symm : ∀ b c : Bounds K, b.Same c → c.Same b
  trans : ∀ b c d : Bounds K, b.Same c → c.Same d → b.Same d
  union_congr : ∀ b b' c c' : Bounds K, b.Same b' → c.Same c' → (b.union c).Same (b'.union c')
  union_numeric : ∀ b c : Bounds K, b.IsNumeric → c.IsNumeric → (b.union c).IsNumeric
  union_assoc : ∀ b c d : Bounds K, b.IsNumeric → c.IsNumeric → d.IsNumeric →
    ((b.union c).union d).Same (b.union (c.union d))
  union_comm : ∀ b c : Bounds K, b.IsNumeric → c.IsNumeric → (b.union c).Same (c.union b)
  union_self : ∀ b : Bounds K, b.IsNumeric → (b.union b).Same b
  empty_numeric : (empty : Bounds K).IsNumeric
  empty_union : ∀ b : Bounds K, b.IsNumeric → (empty.union b).Same b
  union_empty : ∀ b : Bounds K, b.IsNumeric → (b.union empty).Same b

end Bounds

/-! ## 4. Single precision -/

namespace Float32

open Bounds

variable {b : Bounds Float32} {ps qs : List (Vec3 Float32)}

/-- The empty box runs backwards, so it lies within every box. -/
theorem empty_within (hb : b.IsNumeric) : Bounds.empty.Within b := by
  have hempty : (Bounds.empty : Bounds Float32).IsNumeric := isNumeric_empty
  intro i
  have hmin := hempty.min i
  have hmax := hempty.max i
  simp only [Bounds.empty, Vec3.along_splat] at hmin hmax ⊢
  exact ⟨Scalar.le_of_not_lt hmin (hb.min i) (not_infinity_lt _),
    Scalar.le_of_not_lt (hb.max i) hmax (not_lt_neg_infinity _)⟩

theorem empty_union (hb : b.IsNumeric) : (Bounds.empty.union b).Same b := by
  refine same_of_within_iff (isNumeric_union isNumeric_empty hb) hb fun d => ?_
  rw [union_within_iff isNumeric_empty hb]
  exact and_iff_right_of_imp fun h => empty_within h.isNumeric.2

theorem isMonoid : IsMonoid Float32 where
  same_self_iff _ := same_self_iff
  symm _ _ := Same.symm
  trans _ _ _ := Same.trans
  union_congr _ _ _ _ := union_congr
  union_numeric _ _ := isNumeric_union
  union_assoc _ _ _ := union_assoc
  union_comm _ _ := union_comm
  union_self b hb := by
    rw [union_self]
    exact Bounds.same_self_iff.mpr hb
  empty_numeric := isNumeric_empty
  empty_union _ := empty_union
  union_empty _ hb := (union_comm hb isNumeric_empty).trans (empty_union hb)

theorem isNumeric_ofPoints (hps : ∀ p ∈ ps, p.IsNumeric) : (ofPoints ps).IsNumeric := by
  cases ps with
  | nil => exact isNumeric_empty
  | cons p rest => exact Bounds.isNumeric_ofPoints (List.cons_ne_nil p rest) hps

theorem ofPoints_within_iff (hps : ∀ p ∈ ps, p.IsNumeric) (hb : b.IsNumeric) :
    (ofPoints ps).Within b ↔ ∀ p ∈ ps, b.Holds p := by
  cases ps with
  | nil => exact iff_of_true (empty_within hb) (List.forall_mem_nil _)
  | cons p rest => exact ofPoints_within_iff_of_ne_nil (List.cons_ne_nil p rest) hps

theorem isAround_ofPoints (hps : ∀ p ∈ ps, p.IsNumeric) : IsAround ps (ofPoints ps) where
  numeric := isNumeric_ofPoints hps
  holds _ := holds_ofPoints hps
  touched hne := exists_ends_ofPoints hne
  isEmpty_iff := by
    constructor
    · intro hempty
      refine List.eq_nil_iff_forall_not_mem.mpr fun p hp => ?_
      rw [(holds_ofPoints hps hp).isEmpty_eq_false] at hempty
      exact Bool.false_ne_true hempty
    · rintro rfl
      exact isEmpty_empty

/-- Points with the same members have the same box. -/
theorem ofPoints_same (hps : ∀ p ∈ ps, p.IsNumeric) (h : ∀ p, p ∈ qs ↔ p ∈ ps) :
    (ofPoints qs).Same (ofPoints ps) := by
  have hqs : ∀ p ∈ qs, p.IsNumeric := fun p hp => hps p ((h p).mp hp)
  have hnumeric := isNumeric_ofPoints hps
  have hnumeric' := isNumeric_ofPoints hqs
  rw [same_iff, ofPoints_within_iff hqs hnumeric, ofPoints_within_iff hps hnumeric']
  exact ⟨fun p hp => holds_ofPoints hps ((h p).mp hp),
    fun p hp => holds_ofPoints hqs ((h p).mpr hp)⟩

/-- The box of the points of two lists is the union of the boxes of the lists. -/
theorem ofPoints_append (hps : ∀ p ∈ ps, p.IsNumeric) (hqs : ∀ p ∈ qs, p.IsNumeric) :
    (ofPoints (ps ++ qs)).Same ((ofPoints ps).union (ofPoints qs)) := by
  have hall : ∀ p ∈ ps ++ qs, p.IsNumeric := List.forall_mem_append.mpr ⟨hps, hqs⟩
  have hp := isNumeric_ofPoints hps
  have hq := isNumeric_ofPoints hqs
  refine same_of_within_iff (isNumeric_ofPoints hall) (isNumeric_union hp hq) fun d => ?_
  rw [union_within_iff hp hq]
  by_cases hd : d.IsNumeric
  · rw [ofPoints_within_iff hall hd, ofPoints_within_iff hps hd, ofPoints_within_iff hqs hd,
      List.forall_mem_append]
  · exact iff_of_false (fun h => hd h.isNumeric.2) fun h => hd h.1.isNumeric.2

end Float32

/-! ## 5. The order of a walk -/

namespace SceneNode

theorem boxOf_perm {root : SceneNode Float32} {ns : List (SceneNode Float32)}
    (hnumeric : ∀ mesh world, root.Draws mesh world → (mesh.box world).IsNumeric)
    (h : ns.Perm root.preorder) : (boxOf ns).Same root.bounds := by
  have hboxes : ∀ b ∈ root.boxes, b.IsNumeric := by
    intro b hb
    obtain ⟨mesh, world, hdraws, rfl⟩ := mem_boxes_iff.mp hb
    exact hnumeric mesh world hdraws
  rw [boxOf_eq_union, bounds_eq_union]
  exact Bounds.foldl_union_perm Bounds.isNumeric_empty hboxes (h.filterMap _)

end SceneNode

/-- **Boxes are a monoid under their union, and taking the box of some points is a homomorphism into
    it.**  All of this is said of single precision, up to the signs of zeros, and where no
    coordinate is not a number.  A union is associative, commutative and idempotent, with the empty
    box on either side changing nothing.  The box of some points is stretched from the empty box; it
    holds them, is touched by them on each face, and is empty only without points.  The box of two
    lists of points is the union of their boxes, so their order does not matter; nor does the order
    in which a walk through a tree takes its nodes. -/
theorem boxes_unite :
    Bounds.IsMonoid Float32 ∧
    (∀ ps : List (Vec3 Float32), Bounds.ofPoints ps = ps.foldl Bounds.extend Bounds.empty) ∧
    (∀ ps : List (Vec3 Float32), (∀ p ∈ ps, p.IsNumeric) →
      Bounds.IsAround ps (.ofPoints ps) ∧
      (∀ qs : List (Vec3 Float32), (∀ q ∈ qs, q.IsNumeric) →
        (Bounds.ofPoints (ps ++ qs)).Same ((Bounds.ofPoints ps).union (.ofPoints qs))) ∧
      ∀ qs : List (Vec3 Float32), qs.Perm ps → (Bounds.ofPoints qs).Same (.ofPoints ps)) ∧
    ∀ root : SceneNode Float32,
      (∀ mesh world, root.Draws mesh world → (mesh.box world).IsNumeric) →
      ∀ ns : List (SceneNode Float32), ns.Perm root.preorder →
        (SceneNode.boxOf ns).Same root.bounds := by
  refine ⟨Float32.isMonoid, Float32.ofPoints_eq_foldl, fun ps hps => ⟨?_, ?_, ?_⟩, ?_⟩
  · exact Float32.isAround_ofPoints hps
  · exact fun qs hqs => Float32.ofPoints_append hps hqs
  · exact fun qs hperm => Float32.ofPoints_same hps fun p => hperm.mem_iff
  · exact fun root hnumeric ns hperm => SceneNode.boxOf_perm hnumeric hperm

/-- Two points on the plane of a zero, one of them with a negative zero and one of them at
    infinity. -/
def Bounds.onZero : List (Vec3 Float32) := [⟨0, 1, Scalar.infinity⟩, ⟨-0, -2, 3⟩]

/-- Taken in the other order the two points have a box with other zeros for ends, which is the same
    box; and the floor may be walked from its far tile to the near one. -/
theorem boxes_unite_onZero :
    (∀ p ∈ Bounds.onZero, p.IsNumeric) ∧
    (Bounds.ofPoints Bounds.onZero.reverse).min.x.toBits ≠
      (Bounds.ofPoints Bounds.onZero).min.x.toBits ∧
    (Bounds.ofPoints Bounds.onZero.reverse).Same (.ofPoints Bounds.onZero) ∧
    (Bounds.ofPoints (Bounds.onZero ++ Bounds.onZero)).Same
      ((Bounds.ofPoints Bounds.onZero).union (.ofPoints Bounds.onZero)) ∧
    (SceneNode.boxOf SceneNode.floor.preorder.reverse).Same SceneNode.floor.bounds := by
  obtain ⟨-, -, hpoints, htrees⟩ := boxes_unite
  have hnumeric : ∀ p ∈ Bounds.onZero, p.IsNumeric := by decide +kernel
  have hfloor : ∀ mesh world, SceneNode.floor.Draws mesh world → (mesh.box world).IsNumeric := by
    intro mesh world hdraws
    obtain ⟨rfl, rfl | rfl⟩ := SceneNode.draws_floor_iff.mp hdraws
    all_goals
      exact ⟨Vec3.isNumeric_iff.mpr (by decide +kernel), Vec3.isNumeric_iff.mpr (by decide +kernel)⟩
  obtain ⟨-, happend, hperm⟩ := hpoints Bounds.onZero hnumeric
  exact ⟨hnumeric, by decide +kernel, hperm _ (List.reverse_perm _), happend _ hnumeric,
    htrees _ hfloor _ (List.reverse_perm _)⟩

end SceneAssembly
