/-
  SceneAssembly/Proofs/Walk/Cycles.lean
  =====================================
  **Cycles are reported where there are any.**

  The references that a walk meets are followed from the root, each one below
  the element before it (`Follows`); those at which it stops give the cuts of
  the unfolding (`mem_cuts_iff`).  Three facts about them settle what is
  reported about cycles.  All elements on a path lead to the reference at its
  end, so a reported cycle is one.  A path has pairwise different elements, so
  it is never longer than there are elements.  And if no cycle is reported,
  every chain of references is followed to its end, so there is none.
-/
import Mathlib.Data.List.Perm.Subperm
import Mathlib.Logic.Relation
import SceneAssembly.Proofs.Walk.Unfolding

namespace SceneAssembly

open Relation (ReflTransGen TransGen)

variable {K : Type}

/-! ## 1. References of a document -/

/-- One element refers to another one that exists. -/
def Refers (d : Document K) (a b : String) : Prop :=
  (∃ e, d.elements.find? a = some e ∧ b ∈ e.kind.references) ∧ d.elements.contains b

theorem contains_of_find? {d : Document K} {id : String} {e : Element K}
    (h : d.elements.find? id = some e) : d.elements.contains id = true := by
  simp [Table.contains, h]

/-- A walk that meets a reference below a path goes on to those of its element. -/
structure Follows (c : Setting K) (s t : List String × String) : Prop where
  entered : leftOut? c s.1 s.2 = none
  refers : ∃ e, c.document.elements.find? s.2 = some e ∧ t.2 ∈ e.kind.references
  path : t.1 = s.2 :: s.1

/-! ## 2. Cuts are the references at which a walk stops -/

section Cuts

variable {c : Setting K} {path : List String} {id : String}

/-- An element that is entered has the cuts of all its references, whatever its kind. -/
theorem cuts_unfold {e : Element K} (h : leftOut? c path id = none)
    (hid : c.document.elements.find? id = some e) :
    (unfold c path id).cuts =
      e.kind.references.flatMap fun id' => (unfold c (id :: path) id').cuts := by
  rw [unfold_kind h hid]
  cases e.kind with
  | group children => exact Unfolding.cutsAll_map _ _
  | lod levels =>
    simp only [Unfolding.cuts, Unfolding.cutsLevels_map, ElementKind.references, List.flatMap_map]
  | primitive shape => cases shape <;> rfl
  | light spec => rfl
  | unsupported kind => rfl

theorem mem_cuts_iff {reason : Diagnostic K} :
    reason ∈ (unfold c path id).cuts ↔
      ∃ s, ReflTransGen (Follows c) (path, id) s ∧ leftOut? c s.1 s.2 = some reason := by
  -- Each reference that is followed leaves one element fewer that the walk is not inside of.
  induction hn : (Walk.remaining c path).length using Nat.strongRecOn generalizing path id with
  | _ n ih =>
    subst hn
    cases hleft : leftOut? c path id with
    | some d =>
      rw [unfold_leftOut hleft, Unfolding.cuts, List.mem_singleton]
      constructor
      · rintro rfl
        exact ⟨(path, id), .refl, hleft⟩
      · rintro ⟨s, hs, hreason⟩
        rcases hs.cases_head with rfl | ⟨t, hfollows, -⟩
        · rw [hleft] at hreason
          exact (Option.some.inj hreason).symm
        · have hnone : leftOut? c path id = none := hfollows.entered
          rw [hleft] at hnone
          cases hnone
    | none =>
      obtain ⟨e, hid, hpath, -, -⟩ := leftOut?_eq_none_iff.mp hleft
      have below : ∀ id', reason ∈ (unfold c (id :: path) id').cuts ↔
          ∃ s, ReflTransGen (Follows c) (id :: path, id') s ∧
            leftOut? c s.1 s.2 = some reason := fun id' =>
        ih _ (Walk.remaining_lt c hid (mt List.contains_iff_mem.mp hpath)) rfl
      rw [cuts_unfold hleft hid, List.mem_flatMap]
      constructor
      · rintro ⟨id', hid', hreason⟩
        obtain ⟨s, hs, hstop⟩ := (below id').mp hreason
        exact ⟨s, .head ⟨hleft, ⟨e, hid, hid'⟩, rfl⟩ hs, hstop⟩
      · rintro ⟨s, hs, hstop⟩
        rcases hs.cases_head with rfl | ⟨⟨path', id'⟩, hfollows, hrest⟩
        · rw [hleft] at hstop
          cases hstop
        · obtain ⟨e', he', hid'⟩ := hfollows.refers
          obtain rfl : e = e' := Option.some.inj (hid.symm.trans he')
          obtain rfl : path' = id :: path := hfollows.path
          exact ⟨id', hid', (below id').mpr ⟨s, hrest, hstop⟩⟩

end Cuts

/-! ## 3. Paths -/

section Paths

variable {c : Setting K} {root : String} {s : List String × String}

/-- Every element on a path is reached from the root, and leads to the reference at the end of the
    path. -/
theorem leads_of_follows (h : ReflTransGen (Follows c) ([], root) s) :
    (c.document.elements.contains s.2 → ReflTransGen (Refers c.document) root s.2) ∧
      ∀ v ∈ s.1, ReflTransGen (Refers c.document) root v ∧
        (c.document.elements.contains s.2 → TransGen (Refers c.document) v s.2) := by
  induction h with
  | refl => exact ⟨fun _ => .refl, fun v hv => by cases hv⟩
  | @tail s t _ hfollows ih =>
    obtain ⟨hroot, hleads⟩ := ih
    obtain ⟨e, hid, hmem⟩ := hfollows.refers
    have hs : c.document.elements.contains s.2 := contains_of_find? hid
    have hstep : c.document.elements.contains t.2 → Refers c.document s.2 t.2 :=
      fun ht => ⟨⟨e, hid, hmem⟩, ht⟩
    refine ⟨fun ht => (hroot hs).tail (hstep ht), fun v hv => ?_⟩
    rw [hfollows.path, List.mem_cons] at hv
    rcases hv with rfl | hv
    · exact ⟨hroot hs, fun ht => .single (hstep ht)⟩
    · obtain ⟨hreach, hlead⟩ := hleads v hv
      exact ⟨hreach, fun ht => (hlead hs).tail (hstep ht)⟩

/-- A path goes through pairwise different elements of the document. -/
theorem nodup_of_follows (h : ReflTransGen (Follows c) ([], root) s) :
    s.1.Nodup ∧ ∀ v ∈ s.1, v ∈ c.document.elements.keys := by
  induction h with
  | refl => exact ⟨List.nodup_nil, fun v hv => by cases hv⟩
  | @tail s t _ hfollows ih =>
    obtain ⟨hnodup, hkeys⟩ := ih
    obtain ⟨e, hid, hpath, -, -⟩ := leftOut?_eq_none_iff.mp hfollows.entered
    rw [hfollows.path]
    refine ⟨List.nodup_cons.mpr ⟨hpath, hnodup⟩, fun v hv => ?_⟩
    rcases List.mem_cons.mp hv with rfl | hv
    · exact Table.mem_keys_of_find? hid
    · exact hkeys v hv

/-- With room for all elements no path is too long. -/
theorem not_tooDeep_of_follows (h : ReflTransGen (Follows c) ([], root) s)
    (hroom : c.document.elements.size ≤ c.settings.maxDepth) (id : String) (limit : Nat) :
    leftOut? c s.1 s.2 ≠ some (.tooDeep id limit) := by
  intro hdeep
  obtain ⟨-, -, hpath, hlong, e, hid⟩ := leftOut?_eq_tooDeep_iff.mp hdeep
  obtain ⟨hnodup, hkeys⟩ := nodup_of_follows h
  have hsub : (s.2 :: s.1) ⊆ c.document.elements.keys := by
    intro v hv
    rcases List.mem_cons.mp hv with rfl | hv
    · exact Table.mem_keys_of_find? hid
    · exact hkeys v hv
  have hnodup' : (s.2 :: s.1).Nodup := List.nodup_cons.mpr ⟨hpath, hnodup⟩
  have hlength : (s.2 :: s.1).length ≤ c.document.elements.keys.length :=
    (hnodup'.subperm hsub).length_le
  have hsize : c.document.elements.keys.length = c.document.elements.size := List.length_map _
  rw [List.length_cons] at hlength
  omega

end Paths

/-! ## 4. Walks that never turn back -/

/-- No path from the root comes back to one of its elements or becomes too long. -/
structure NeverTurnsBack (c : Setting K) (root : String) : Prop where
  noCycle : ∀ s, ReflTransGen (Follows c) ([], root) s → ∀ id,
    leftOut? c s.1 s.2 ≠ some (.cycle id)
  notDeep : ∀ s, ReflTransGen (Follows c) ([], root) s → ∀ id limit,
    leftOut? c s.1 s.2 ≠ some (.tooDeep id limit)

namespace NeverTurnsBack

variable {c : Setting K} {root : String} {path : List String} {a b : String}

/-- Every reference to an existing element is followed, -/
theorem tail (h : NeverTurnsBack c root) (hpath : ReflTransGen (Follows c) ([], root) (path, a))
    (hrefers : Refers c.document a b) :
    ReflTransGen (Follows c) ([], root) (a :: path, b) := by
  obtain ⟨⟨e, hid, hmem⟩, -⟩ := hrefers
  have houtside : a ∉ path := fun hmem' =>
    h.noCycle _ hpath a (leftOut?_eq_cycle_iff.mpr ⟨rfl, hmem', e, hid⟩)
  have hshallow : path.length < c.settings.maxDepth := by
    refine Nat.lt_of_not_le fun hlong => ?_
    exact h.notDeep _ hpath a _
      (leftOut?_eq_tooDeep_iff.mpr ⟨rfl, rfl, houtside, hlong, e, hid⟩)
  have hkind : ∀ kind, e.kind ≠ .unsupported kind := by
    intro kind hkind
    rw [hkind] at hmem
    cases hmem
  have hentered : leftOut? c path a = none :=
    leftOut?_eq_none_iff.mpr ⟨e, hid, houtside, hshallow, hkind⟩
  exact hpath.tail ⟨hentered, ⟨e, hid, hmem⟩, rfl⟩

/-- and so is every chain of references, inside of the elements that it has come through. -/
theorem chain (h : NeverTurnsBack c root) (hpath : ReflTransGen (Follows c) ([], root) (path, a))
    (hrefers : ReflTransGen (Refers c.document) a b) :
    ∃ path', ReflTransGen (Follows c) ([], root) (path', b) ∧ path ⊆ path' := by
  induction hrefers with
  | refl => exact ⟨path, hpath, List.Subset.refl _⟩
  | @tail b b' _ hstep ih =>
    obtain ⟨path', hpath', hsub⟩ := ih
    exact ⟨b :: path', h.tail hpath' hstep, List.subset_cons_of_subset b hsub⟩

theorem acyclic (h : NeverTurnsBack c root) (hroot : ReflTransGen (Refers c.document) root a) :
    ¬ TransGen (Refers c.document) a a := by
  intro hcycle
  obtain ⟨b, hfirst, hrest⟩ := TransGen.head'_iff.mp hcycle
  obtain ⟨path, hpath, -⟩ := h.chain .refl hroot
  -- Once around the cycle, the walk is back at an element that it is inside of.
  obtain ⟨path', hpath', hsub⟩ := h.chain (h.tail hpath hfirst) hrest
  obtain ⟨⟨e, hid, -⟩, -⟩ := hfirst
  exact h.noCycle _ hpath' a
    (leftOut?_eq_cycle_iff.mpr ⟨rfl, hsub List.mem_cons_self, e, hid⟩)

end NeverTurnsBack

/-! ## 5. Reported cycles -/

section Reports

variable {c : Setting K} {root : String}

theorem cycle_of_mem_cuts {id : String} (h : .cycle id ∈ (unfold c [] root).cuts) :
    ReflTransGen (Refers c.document) root id ∧ TransGen (Refers c.document) id id := by
  obtain ⟨s, hs, hstop⟩ := mem_cuts_iff.mp h
  obtain ⟨rfl, hpath, e, hid⟩ := leftOut?_eq_cycle_iff.mp hstop
  obtain ⟨hreach, hlead⟩ := (leads_of_follows hs).2 _ hpath
  exact ⟨hreach, hlead (contains_of_find? hid)⟩

theorem not_tooDeep_mem_cuts (hroom : c.document.elements.size ≤ c.settings.maxDepth)
    (id : String) (limit : Nat) : .tooDeep id limit ∉ (unfold c [] root).cuts := by
  intro hdeep
  obtain ⟨s, hs, hstop⟩ := mem_cuts_iff.mp hdeep
  exact not_tooDeep_of_follows hs hroom id limit hstop

/-- With room for all elements, a cycle that the root leads to is reported. -/
theorem exists_cycle_mem_cuts (hroom : c.document.elements.size ≤ c.settings.maxDepth)
    {v : String} (hreach : ReflTransGen (Refers c.document) root v)
    (hcycle : TransGen (Refers c.document) v v) :
    ∃ id, .cycle id ∈ (unfold c [] root).cuts := by
  by_contra hnone
  have hnever : NeverTurnsBack c root :=
    ⟨fun s hs id hstop => hnone ⟨id, mem_cuts_iff.mpr ⟨s, hs, hstop⟩⟩,
      fun s hs id limit => not_tooDeep_of_follows hs hroom id limit⟩
  exact hnever.acyclic hreach hcycle

end Reports

/-! ## 6. Cycles of a scene -/

theorem Report.mem_references {r : Report K} {reason : Diagnostic K}
    (h : reason.isReference = true) : reason ∈ r.references ↔ reason ∈ r.diagnostics := by
  simp [Report.references, h]

/-- **Cycles are reported where there are any.**  With room for all elements, no reference is too
    deep, and a cycle is reported exactly if the root leads to one.  However deep elements may nest,
    each reported cycle goes through the element that it names, and the root leads there; without
    cycles, none is reported, however often an element is referred to. -/
theorem assemble_reports_cycles [Scalar K] (settings : Settings K) (d : Document K)
    (w : Workshop K) (hroot : d.elements.contains d.rootId) (hsilent : w.library.IsSilent) :
    ∃ scene, (assemble settings d w).1 = .ok scene ∧
      (d.elements.size ≤ settings.maxDepth →
        (∀ id limit, .tooDeep id limit ∉ scene.report.diagnostics) ∧
        ((∃ id, .cycle id ∈ scene.report.diagnostics) ↔
          ∃ v, ReflTransGen (Refers d) d.rootId v ∧ TransGen (Refers d) v v)) ∧
      (∀ id, .cycle id ∈ scene.report.diagnostics →
        ReflTransGen (Refers d) d.rootId id ∧ TransGen (Refers d) id id) ∧
      ((∀ v, ¬ TransGen (Refers d) v v) → ∀ id, .cycle id ∉ scene.report.diagnostics) := by
  obtain ⟨scene, w', hscene⟩ := exists_scene settings w hroot
  have hcuts := references_scene hscene hsilent
  have hcycle : ∀ id, .cycle id ∈ scene.report.diagnostics ↔
      .cycle id ∈ (unfold ⟨d, settings⟩ [] d.rootId).cuts := by
    intro id
    rw [← hcuts, Report.mem_references rfl]
  have hdeep : ∀ id limit, .tooDeep id limit ∈ scene.report.diagnostics ↔
      .tooDeep id limit ∈ (unfold ⟨d, settings⟩ [] d.rootId).cuts := by
    intro id limit
    rw [← hcuts, Report.mem_references rfl]
  have hsound : ∀ id, .cycle id ∈ scene.report.diagnostics →
      ReflTransGen (Refers d) d.rootId id ∧ TransGen (Refers d) id id :=
    fun id hid => cycle_of_mem_cuts ((hcycle id).mp hid)
  refine ⟨scene, congrArg Prod.fst hscene, fun hroom => ⟨fun id limit hid => ?_, ?_⟩, hsound, ?_⟩
  · exact not_tooDeep_mem_cuts (c := ⟨d, settings⟩) hroom id limit ((hdeep id limit).mp hid)
  · constructor
    · rintro ⟨id, hid⟩
      exact ⟨id, hsound id hid⟩
    · rintro ⟨v, hreach, hround⟩
      obtain ⟨id, hid⟩ := exists_cycle_mem_cuts (c := ⟨d, settings⟩) hroom hreach hround
      exact ⟨id, (hcycle id).mpr hid⟩
  · intro hacyclic id hid
    exact hacyclic id (hsound id hid).2

theorem assemble_reports_cycles_knotted :
    Document.knotted.elements.contains Document.knotted.rootId ∧
    ModelLibrary.IsSilent (.empty : ModelLibrary Float32) ∧
    Document.knotted.elements.size ≤ (Settings.standard : Settings Float32).maxDepth ∧
    ∃ scene, (assemble .standard Document.knotted
        ⟨.empty, .ofRecords .empty "." .placeholder, .empty⟩).1 = .ok scene ∧
      (∃ id, .cycle id ∈ scene.report.diagnostics) ∧
      ∀ id limit, .tooDeep id limit ∉ scene.report.diagnostics := by
  have hroot : Document.knotted.elements.contains Document.knotted.rootId := rfl
  have hsilent : ModelLibrary.IsSilent (.empty : ModelLibrary Float32) := by
    intro load hload
    cases hload
  have hroom :
      Document.knotted.elements.size ≤ (Settings.standard : Settings Float32).maxDepth := by
    decide
  have hround : Refers Document.knotted "root" "root" :=
    ⟨⟨.ofKind "root" (.group ["ghost", "near", "root"]), rfl, by simp [Element.ofKind,
      ElementKind.references]⟩, rfl⟩
  obtain ⟨scene, hscene, hreport, -⟩ := assemble_reports_cycles .standard Document.knotted
    ⟨.empty, .ofRecords .empty "." .placeholder, .empty⟩ hroot hsilent
  obtain ⟨hdeep, hcycle⟩ := hreport hroom
  exact ⟨hroot, hsilent, hroom, scene, hscene, hcycle.mpr ⟨"root", .refl, .single hround⟩, hdeep⟩

end SceneAssembly
