/-
  SceneAssembly/Proofs/LevelsOfDetail.lean
  ========================================
  **Levels of detail are kept sorted, and found by their distance.**

  Levels that are added one by one end up in stable order of their distances
  (`sorted_concat`), and editing the things they show keeps each level in its
  place, so after any run of additions and edits the levels are the ones added,
  as edited, in stable order (`levels_run`).  In this order the levels that a
  distance reaches come first, so that bisection counts them
  (`countReached_eq`).
-/
import Mathlib.Data.List.Induction
import Mathlib.Data.List.Sort
import SceneAssembly.Lod
import SceneAssembly.Proofs.Comparison

namespace SceneAssembly.Lod

open Scalar (IsNumber LawfulOrder lt_iff_not_le)

variable {K α : Type} [Scalar K]

/-! ## 1. Sorting by distance -/

/-- Is a level shown from no farther on than another one? -/
def byDistance (a b : Level K α) : Bool := decide (a.minDistance ≤ b.minDistance)

/-- Levels in ascending order of distance, those at one distance in the order given. -/
def sorted (levels : List (Level K α)) : List (Level K α) := levels.mergeSort byDistance

/-- All distances are numbers. -/
def Numbered (levels : List (Level K α)) : Prop := ∀ l ∈ levels, IsNumber l.minDistance

/-- The order by distance made total: what has no number comes first. -/
def byNumber (a b : Level K α) : Bool :=
  !decide (a.minDistance ≤ a.minDistance) || byDistance a b

theorem Numbered.sorted {levels : List (Level K α)} (h : Numbered levels) :
    Numbered (sorted levels) :=
  fun l hl => h l (List.mem_mergeSort.mp hl)

theorem sorted_eq_byNumber {levels : List (Level K α)} (h : Numbered levels) :
    sorted levels = levels.mergeSort byNumber := by
  have hsame : ∀ a ∈ levels, ∀ b ∈ levels, byDistance a b = byNumber (id a) (id b) := by
    intro a ha b _
    have hself : a.minDistance ≤ a.minDistance := h a ha
    simp [byNumber, hself]
  have hmap := List.map_mergeSort hsame
  rwa [List.map_id, List.map_id] at hmap

/-- An item goes in where those before it are out of order with it and those after are not. -/
theorem orderedInsert_append {β : Type} {r : β → β → Prop} [DecidableRel r] {a : β}
    {before after : List β} (hbefore : ∀ b ∈ before, ¬ r a b) (hafter : ∀ b ∈ after, r a b) :
    (before ++ after).orderedInsert r a = before ++ a :: after := by
  induction before with
  | nil =>
    cases after with
    | nil => rfl
    | cons b rest => simp [hafter b List.mem_cons_self]
  | cons b rest ih =>
    rw [List.forall_mem_cons] at hbefore
    simp [hbefore.1, ih hbefore.2]

section Sorting

variable [LawfulOrder K] {levels : List (Level K α)} {a x : Level K α}

theorem byNumber_trans (a b c : Level K α) (hab : byNumber a b = true)
    (hbc : byNumber b c = true) : byNumber a c = true := by
  simp only [byNumber, byDistance, Bool.or_eq_true, Bool.not_eq_true', decide_eq_false_iff_not,
    decide_eq_true_eq] at hab hbc ⊢
  rcases hab with ha | hab
  · exact .inl ha
  · rcases hbc with hb | hbc
    · exact absurd (LawfulOrder.isNumber_of_le hab).2 hb
    · exact .inr (LawfulOrder.le_trans hab hbc)

theorem byNumber_total (a b : Level K α) : (byNumber a b || byNumber b a) = true := by
  simp only [byNumber, byDistance, Bool.or_eq_true, Bool.not_eq_true', decide_eq_false_iff_not,
    decide_eq_true_eq]
  by_cases ha : a.minDistance ≤ a.minDistance
  · by_cases hb : b.minDistance ≤ b.minDistance
    · rcases LawfulOrder.le_total ha hb with hab | hba
      · exact .inl (.inr hab)
      · exact .inr (.inr hba)
    · exact .inr (.inl hb)
  · exact .inl (.inl ha)

theorem pairwise_sorted (h : Numbered levels) :
    (sorted levels).Pairwise fun a b => a.minDistance ≤ b.minDistance := by
  rw [sorted_eq_byNumber h]
  refine (List.pairwise_mergeSort byNumber_trans byNumber_total levels).imp_of_mem ?_
  intro a b ha _ hab
  have hself : a.minDistance ≤ a.minDistance := h a (List.mem_mergeSort.mp ha)
  simpa [byNumber, byDistance, hself] using hab

theorem sorted_cons (h : Numbered (a :: levels)) :
    sorted (a :: levels) =
      (sorted levels).orderedInsert (fun a b => a.minDistance ≤ b.minDistance) a := by
  have hpairwise := pairwise_sorted h
  have hlevels : Numbered levels := fun l hl => h l (List.mem_cons_of_mem a hl)
  obtain ⟨before, after, hcons, hsorted, hbefore⟩ :=
    List.mergeSort_cons byNumber_trans byNumber_total a levels
  rw [← sorted_eq_byNumber h] at hcons
  rw [← sorted_eq_byNumber hlevels] at hsorted
  rw [hcons, List.pairwise_append, List.pairwise_cons] at hpairwise
  rw [hcons, hsorted, orderedInsert_append _ hpairwise.2.1.1]
  intro b hb hab
  have hnot := hbefore b hb
  simp [byNumber, byDistance, hab] at hnot

/-- A level put in before its equals and one put in after its equals do not meet. -/
theorem insertLevel_orderedInsert (ha : IsNumber a.minDistance) (hx : IsNumber x.minDistance)
    (h : Numbered levels) :
    insertLevel x (levels.orderedInsert (fun a b => a.minDistance ≤ b.minDistance) a) =
      (insertLevel x levels).orderedInsert (fun a b => a.minDistance ≤ b.minDistance) a := by
  induction levels with
  | nil =>
    have hlt := lt_iff_not_le hx ha
    by_cases hle : a.minDistance ≤ x.minDistance
    · simp [insertLevel, hlt, hle]
    · simp [insertLevel, hlt, hle]
  | cons b rest ih =>
    rw [Numbered, List.forall_mem_cons] at h
    have hxa := lt_iff_not_le hx ha
    have hxb := lt_iff_not_le hx h.1
    by_cases hab : a.minDistance ≤ b.minDistance
    · by_cases hax : a.minDistance ≤ x.minDistance
      · by_cases hbx : b.minDistance ≤ x.minDistance
        · simp [insertLevel, hab, hxa, hxb, hax, hbx]
        · simp [insertLevel, hab, hxa, hxb, hax, hbx]
      · have hbx : ¬ b.minDistance ≤ x.minDistance :=
          fun hbx => hax (LawfulOrder.le_trans hab hbx)
        simp [insertLevel, hab, hxa, hxb, hax, hbx]
    · by_cases hbx : b.minDistance ≤ x.minDistance
      · simp [insertLevel, hab, hxb, hbx, ih h.2]
      · have hax : ¬ a.minDistance ≤ x.minDistance := by
          intro hax
          rcases LawfulOrder.le_total hx h.1 with hxb | hbx'
          · exact hab (LawfulOrder.le_trans hax hxb)
          · exact hbx hbx'
        simp [insertLevel, hab, hxb, hax, hbx]

/-- Adding a level last and sorting is putting it into the sorted levels. -/
theorem sorted_concat (h : Numbered (levels ++ [x])) :
    sorted (levels ++ [x]) = insertLevel x (sorted levels) := by
  induction levels with
  | nil => simp [sorted, insertLevel]
  | cons a rest ih =>
    have hrest : Numbered (rest ++ [x]) := fun l hl => h l (List.mem_cons_of_mem a hl)
    have hx : IsNumber x.minDistance := h x (by simp)
    have ha : IsNumber a.minDistance := h a (by simp)
    have hsorted : Numbered (sorted rest) :=
      Numbered.sorted fun l hl => hrest l (List.mem_append_left _ hl)
    have hcons : Numbered (a :: rest) := fun l hl => h l (List.mem_append_left [x] hl)
    rw [List.cons_append] at h ⊢
    rw [sorted_cons h, ih hrest, sorted_cons hcons, insertLevel_orderedInsert ha hx hsorted]

end Sorting

/-! ## 2. Additions and edits -/

/-- The levels with the things they show changed, position by position. -/
def edit (l : Lod K α) (change : Nat → α → α) : Lod K α :=
  ⟨l.levels.mapIdx fun i level => { level with node := change i level.node }⟩

/-- What can be done to levels of detail without moving a level. -/
inductive Change (K α : Type) where
  | add (minDistance : K) (node : α)
  | edit (change : Nat → α → α)

def apply (l : Lod K α) : Change K α → Lod K α
  | .add minDistance node => l.add minDistance node
  | .edit change => l.edit change

/-- The levels of detail after some changes. -/
def run (changes : List (Change K α)) : Lod K α := changes.foldl apply empty

/-- Levels with their numbers, in stable order. -/
def numbered (added : List (Level K α)) : List (Level K α × Nat) :=
  added.zipIdx.mergeSort fun a b => byDistance a.1 b.1

/-- The numbers of some levels in the stable order of their distances. -/
def order (added : List (Level K α)) : List Nat := (numbered added).map Prod.snd

/-- The levels added so far, as edited, in the order of their addition.  An edit of a position
changes the level that stands there in the stable order. -/
def record (added : List (Level K α)) : Change K α → List (Level K α)
  | .add minDistance node => added ++ [⟨minDistance, node⟩]
  | .edit change =>
    added.mapIdx fun k level => { level with node := change ((order added).idxOf k) level.node }

/-- The levels added in a run of changes, as edited, in the order of their addition. -/
def recorded (changes : List (Change K α)) : List (Level K α) := changes.foldl record []

/-- A distance that is added is a number. -/
def Change.IsNumbered : Change K α → Prop
  | .add minDistance _ => IsNumber minDistance
  | .edit _ => True

theorem numbered_fst (added : List (Level K α)) : (numbered added).map Prod.fst = sorted added := by
  rw [numbered, List.map_mergeSort (s := byDistance) fun _ _ _ _ => rfl, List.zipIdx_map_fst]
  rfl

theorem nodup_order (added : List (Level K α)) : (order added).Nodup := by
  have hperm : (order added).Perm (added.zipIdx.map Prod.snd) :=
    (List.mergeSort_perm added.zipIdx _).map Prod.snd
  rw [hperm.nodup_iff, List.zipIdx_map_snd]
  exact List.nodup_range'

/-- Sorting an edited list of levels is editing the sorted one. -/
theorem sorted_edit (added : List (Level K α)) (change : Nat → α → α) :
    sorted (record added (.edit change)) = (edit ⟨sorted added⟩ change).levels := by
  let edited (x : Level K α × Nat) : Level K α :=
    { x.1 with node := change ((order added).idxOf x.2) x.1.node }
  have hsorted : sorted (record added (.edit change)) = (numbered added).map edited := by
    rw [record, List.mapIdx_eq_zipIdx_map]
    exact (List.map_mergeSort (f := edited) fun _ _ _ _ => rfl).symm
  rw [hsorted, edit, ← numbered_fst]
  refine List.ext_getElem (by simp) fun i hi hi' => ?_
  have hlt : i < (numbered added).length := by simpa using hi
  have hlt' : i < (order added).length := by simpa [order] using hlt
  -- The level at a position of the stable order has the number that stands there.
  have hnumber : (order added)[i] = (numbered added)[i].2 := List.getElem_map Prod.snd
  have hposition := (nodup_order added).idxOf_getElem i hlt'
  rw [hnumber] at hposition
  simp [edited, hposition]

theorem Numbered.record {added : List (Level K α)} (h : Numbered added) {c : Change K α}
    (hc : c.IsNumbered) : Numbered (record added c) := by
  intro l hl
  cases c with
  | add minDistance node =>
    rcases List.mem_append.mp hl with hl | hl
    · exact h l hl
    · rw [List.mem_singleton.mp hl]
      exact hc
  | edit change =>
    obtain ⟨i, hi, rfl⟩ := List.mem_mapIdx.mp hl
    exact h added[i] (List.getElem_mem hi)

section Runs

variable [LawfulOrder K]

/-- A change keeps the levels the ones added, in stable order. -/
theorem levels_apply {added : List (Level K α)} (h : Numbered added) {c : Change K α}
    (hc : c.IsNumbered) : (apply ⟨sorted added⟩ c).levels = sorted (Lod.record added c) := by
  cases c with
  | add minDistance node => exact (sorted_concat (h.record hc)).symm
  | edit change => exact (sorted_edit added change).symm

/-- **After any additions and edits the levels are the ones added, in stable order.** -/
theorem levels_run {changes : List (Change K α)} (h : ∀ c ∈ changes, c.IsNumbered) :
    Numbered (recorded changes) ∧ (run changes).levels = sorted (recorded changes) := by
  induction changes using List.reverseRecOn with
  | nil => exact ⟨fun l hl => (by cases hl), (List.mergeSort_nil).symm⟩
  | append_singleton changes c ih =>
    have hc := h c (by simp)
    obtain ⟨hnumbered, hlevels⟩ := ih fun c' hc' => h c' (List.mem_append_left _ hc')
    have hrun : run changes = ⟨sorted (recorded changes)⟩ := congrArg Lod.mk hlevels
    have happly : run (changes ++ [c]) = apply (run changes) c := List.foldl_concat ..
    have hrecord : recorded (changes ++ [c]) = Lod.record (recorded changes) c :=
      List.foldl_concat ..
    rw [happly, hrecord, hrun]
    exact ⟨hnumbered.record hc, levels_apply hnumbered hc⟩

end Runs

/-! ## 3. Finding a level -/

/-- The last position at which a level is reached, found by looking at all of them. -/
def lastReached? (levels : List (Level K α)) (distance : K) : Option Nat :=
  ((List.range levels.length).filter (reached levels distance)).getLast?

/-- How many levels are reached, one after the other from the nearest on. -/
def reach (levels : List (Level K α)) (distance : K) : Nat :=
  (levels.takeWhile fun l => decide (l.minDistance ≤ distance)).length

theorem reach_le (levels : List (Level K α)) (distance : K) :
    reach levels distance ≤ levels.length :=
  (List.takeWhile_sublist _).length_le

/-- Bisection finds where the levels that are reached end. -/
theorem countReached_eq {levels : List (Level K α)} {distance : K} {count : Nat}
    (h : ∀ i, reached levels distance i = true ↔ i < count) (low size : Nat) (hlow : low ≤ count)
    (hsize : count ≤ low + size) : countReached levels distance low size = count := by
  induction size using Nat.strongRecOn generalizing low with
  | _ size ih =>
    unfold countReached
    by_cases hone : 1 < size
    · have hmid := h (low + size / 2)
      rw [if_pos hone]
      dsimp only
      by_cases hcount : low + size / 2 < count
      · rw [if_pos (hmid.mpr hcount)]
        exact ih (size - size / 2) (by omega) _ (by omega) (by omega)
      · rw [if_neg (mt hmid.mp hcount)]
        exact ih (size - size / 2) (by omega) _ (by omega) (by omega)
    · rw [if_neg hone]
      have hend := h low
      by_cases hcount : low < count
      · rw [if_pos (hend.mpr hcount)]
        omega
      · rw [if_neg (mt hend.mp hcount)]
        omega

theorem lastReached?_eq {levels : List (Level K α)} {distance : K} {count : Nat}
    (h : ∀ i, reached levels distance i = true ↔ i < count) (hcount : count ≤ levels.length) :
    lastReached? levels distance = if count = 0 then none else some (count - 1) := by
  have hsplit : List.range levels.length =
      List.range count ++ (List.range (levels.length - count)).map (count + ·) := by
    rw [← List.range_add, Nat.add_sub_cancel' hcount]
  have hpos : (List.range count).filter (reached levels distance) = List.range count :=
    List.filter_eq_self.mpr fun i hi => (h i).mpr (List.mem_range.mp hi)
  have hneg : ((List.range (levels.length - count)).map (count + ·)).filter
      (reached levels distance) = [] := by
    refine List.filter_eq_nil_iff.mpr fun i hi => ?_
    obtain ⟨j, -, rfl⟩ := List.mem_map.mp hi
    rw [h]
    omega
  rw [lastReached?, hsplit, List.filter_append, hpos, hneg, List.append_nil, List.getLast?_range]

section Selecting

variable [LawfulOrder K] {levels : List (Level K α)} {distance distance' : K}

/-- In order, the levels that are reached come first. -/
theorem reached_iff (h : levels.Pairwise fun a b => a.minDistance ≤ b.minDistance) (i : Nat) :
    reached levels distance i = true ↔ i < reach levels distance := by
  induction levels generalizing i with
  | nil => simp [reached, reach]
  | cons l rest ih =>
    rw [List.pairwise_cons] at h
    unfold reach
    by_cases hl : l.minDistance ≤ distance
    · cases i with
      | zero => simp [reached, hl]
      | succ i => simpa [reached, reach, hl] using ih h.2 i
    · have hnone : reached (l :: rest) distance i = false := by
        cases i with
        | zero => simp [reached, hl]
        | succ i =>
          unfold reached
          rw [List.getElem?_cons_succ]
          cases hget : rest[i]? with
          | none => rfl
          | some m =>
            have hlm := h.1 m (List.mem_of_getElem? hget)
            exact decide_eq_false fun hm => hl (LawfulOrder.le_trans hlm hm)
      simp [hnone, hl]

theorem selectIndex?_eq (h : levels.Pairwise fun a b => a.minDistance ≤ b.minDistance)
    (distance : K) :
    (Lod.mk levels).selectIndex? distance =
      if levels = [] then none else some (reach levels distance - 1) := by
  have hreached : ∀ i, reached levels distance i = true ↔ i < reach levels distance :=
    reached_iff h
  have hcount := countReached_eq hreached 0 levels.length (Nat.zero_le _)
    (by simpa using reach_le levels distance)
  unfold selectIndex?
  simp only [hcount, List.isEmpty_iff]

/-- Bisection agrees with looking at all levels. -/
theorem selectIndex?_eq_lastReached
    (h : levels.Pairwise fun a b => a.minDistance ≤ b.minDistance) (distance : K) :
    (Lod.mk levels).selectIndex? distance =
      if levels = [] then none else some ((lastReached? levels distance).getD 0) := by
  rw [selectIndex?_eq h, lastReached?_eq (reached_iff h) (reach_le levels distance)]
  by_cases hzero : reach levels distance = 0
  · simp [hzero]
  · simp [hzero]

/-- From farther away the same levels are reached. -/
theorem reach_mono (h : levels.Pairwise fun a b => a.minDistance ≤ b.minDistance)
    (hle : distance ≤ distance') :
    reach levels distance ≤ reach levels distance' := by
  rw [← Nat.not_lt]
  intro hlt
  -- The last level that is reached from the one distance is reached from the other one too.
  have hlast := (reached_iff h _).mpr hlt
  obtain ⟨l, hl, hreached⟩ : ∃ l, levels[reach levels distance']? = some l ∧
      l.minDistance ≤ distance := by
    unfold reached at hlast
    split at hlast
    next l hl => exact ⟨l, hl, of_decide_eq_true hlast⟩
    next => cases hlast
  have hthere : reached levels distance' (reach levels distance') = true := by
    rw [reached, hl]
    exact decide_eq_true (LawfulOrder.le_trans hreached hle)
  exact absurd ((reached_iff h _).mp hthere) (Nat.lt_irrefl _)

/-- What is not a number reaches no level. -/
theorem reach_eq_zero (h : ¬ IsNumber distance) : reach levels distance = 0 := by
  cases levels with
  | nil => rfl
  | cons l rest =>
    have hl : ¬ l.minDistance ≤ distance := fun hl => h (LawfulOrder.isNumber_of_le hl).2
    simp [reach, hl]

/-- From farther away no level nearer is selected. -/
theorem selectIndex?_mono (h : levels.Pairwise fun a b => a.minDistance ≤ b.minDistance)
    (hle : distance ≤ distance') {i i' : Nat} (hi : (Lod.mk levels).selectIndex? distance = some i)
    (hi' : (Lod.mk levels).selectIndex? distance' = some i') : i ≤ i' := by
  rw [selectIndex?_eq h, Option.ite_none_left_eq_some] at hi hi'
  obtain ⟨-, hi⟩ := hi
  obtain ⟨-, hi'⟩ := hi'
  cases hi
  cases hi'
  exact Nat.sub_le_sub_right (reach_mono h hle) 1

theorem selectIndex?_of_not_isNumber
    (h : levels.Pairwise fun a b => a.minDistance ≤ b.minDistance) (hnan : ¬ IsNumber distance)
    {i : Nat} (hi : (Lod.mk levels).selectIndex? distance = some i) : i = 0 := by
  rw [selectIndex?_eq h, reach_eq_zero hnan, Option.ite_none_left_eq_some] at hi
  obtain ⟨-, hi⟩ := hi
  cases hi
  rfl

end Selecting

end SceneAssembly.Lod
