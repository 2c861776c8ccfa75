/-
  SceneAssembly/Proofs/Walk/Siblings.lean
  =======================================
  **The children of a group do not interfere with each other.**

  Two documents that differ only in the children of one group depict everything
  below that group in the same way (`depict_eq`), so a reference becomes the same
  below the group whichever references are listed with it.  If the children are
  the same in another order, the walks meet the same references in another order
  (`met_perm`), and report the same.

  The reports need an argument of their own: what is wrong with a material is
  reported when it is made, which may be at another reference in the other walk.
  Together with what is still owed the reports are the same, and at the end the
  same materials have been made, so the same is owed (`diagnostics_perm`).
-/
import SceneAssembly.Proofs.Walk.Depicted

namespace SceneAssembly

open Progress (Reaches)

variable {K : Type}

/-- Two documents that differ only in the children of one group. -/
structure Document.Regroups (d d' : Document K) (g : String) (ids ids' : List String) : Prop where
  rest : d' = { d with elements := d'.elements }
  others : ∀ id, id ≠ g → d'.elements.find? id = d.elements.find? id
  group : ∃ e : Element K, d.elements.find? g = some { e with kind := .group ids } ∧
    d'.elements.find? g = some { e with kind := .group ids' }

variable {settings : Settings K} {d d' : Document K} {g : String} {ids ids' : List String}

/-! ## 1. The same references -/

namespace Document.Regroups

theorem materials_eq (h : d.Regroups d' g ids ids') : d'.materials = d.materials := by
  rw [h.rest]

theorem rootId_eq (h : d.Regroups d' g ids ids') : d'.rootId = d.rootId := by
  rw [h.rest]

theorem cameras_eq (h : d.Regroups d' g ids ids') : d'.cameras = d.cameras := by
  rw [h.rest]

theorem contains_eq (h : d.Regroups d' g ids ids') (id : String) :
    d'.elements.contains id = d.elements.contains id := by
  obtain ⟨e, hg, hg'⟩ := h.group
  unfold Table.contains
  by_cases hid : id = g
  · rw [hid, hg, hg']
    rfl
  · rw [h.others id hid]

theorem leftOut?_eq (h : d.Regroups d' g ids ids') (path : List String) (id : String) :
    leftOut? ⟨d', settings⟩ path id = leftOut? ⟨d, settings⟩ path id := by
  obtain ⟨e, hg, hg'⟩ := h.group
  unfold leftOut?
  by_cases hid : id = g
  · rw [hid, hg, hg']
  · rw [h.others id hid]

theorem draws_eq (h : d.Regroups d' g ids ids') (s : List String × String) :
    draws ⟨d', settings⟩ s = draws ⟨d, settings⟩ s := by
  obtain ⟨e, hg, hg'⟩ := h.group
  unfold draws Document.drawn
  by_cases hid : s.2 = g
  · rw [hid, hg, hg']
    simp only [h.materials_eq]
  · rw [h.others s.2 hid]
    simp only [h.materials_eq]

/-- The same references are met, in another order. -/
theorem met_perm (h : d.Regroups d' g ids ids') (hperm : ids.Perm ids') (path : List String)
    (id : String) : (met ⟨d, settings⟩ path id).Perm (met ⟨d', settings⟩ path id) := by
  obtain ⟨e, hg, hg'⟩ := h.group
  induction hn : (Walk.remaining ⟨d, settings⟩ path).length using Nat.strongRecOn
    generalizing path id with
  | _ n ih =>
    subst hn
    have hsame : leftOut? ⟨d', settings⟩ path id = leftOut? ⟨d, settings⟩ path id :=
      h.leftOut?_eq path id
    cases hleft : leftOut? ⟨d, settings⟩ path id with
    | some reason => rw [met_leftOut hleft, met_leftOut (hsame.trans hleft)]
    | none =>
      obtain ⟨e', hid, hpath, -, -⟩ := leftOut?_eq_none_iff.mp hleft
      have below : ∀ id', (met ⟨d, settings⟩ (id :: path) id').Perm
          (met ⟨d', settings⟩ (id :: path) id') := fun id' =>
        ih _ (Walk.remaining_lt ⟨d, settings⟩ hid (mt List.contains_iff_mem.mp hpath)) _ id' rfl
      by_cases heq : id = g
      · subst heq
        rw [met_entered hleft hg, met_entered (hsame.trans hleft) hg']
        exact (hperm.flatMap fun id' _ => below id').cons _
      · rw [met_entered hleft hid, met_entered (hsame.trans hleft) ((h.others id heq).trans hid)]
        exact (List.Perm.flatMap_left _ fun id' _ => below id').cons _

end Document.Regroups

variable [Scalar K] {V : Views K}

/-! ## 2. The same pictures and notes -/

namespace Document.Regroups

theorem scopeAt_eq (h : d.Regroups d' g ids ids') (path : List String) :
    scopeAt d' V path = scopeAt d V path := by
  obtain ⟨e, hg, hg'⟩ := h.group
  induction path with
  | nil => rfl
  | cons id path ih =>
    unfold scopeAt
    rw [ih]
    by_cases hid : id = g
    · rw [hid, hg, hg']
      simp only [ScopeLook.enter, h.materials_eq]
      rfl
    · rw [h.others id hid]
      simp only [ScopeLook.enter, h.materials_eq]

/-- Below the group both documents depict the same. -/
theorem depict_eq (h : d.Regroups d' g ids ids') {path : List String} (hg : g ∈ path)
    (id : String) : depict ⟨d', settings⟩ V path id = depict ⟨d, settings⟩ V path id := by
  induction hn : (Walk.remaining ⟨d, settings⟩ path).length using Nat.strongRecOn
    generalizing path id with
  | _ n ih =>
    subst hn
    cases hleft : leftOut? ⟨d, settings⟩ path id with
    | some reason =>
      rw [depict_leftOut hleft, depict_leftOut ((h.leftOut?_eq path id).trans hleft)]
    | none =>
      obtain ⟨e, hid, hpath, -, -⟩ := leftOut?_eq_none_iff.mp hleft
      have below : ∀ id', depict ⟨d', settings⟩ V (id :: path) id' =
          depict ⟨d, settings⟩ V (id :: path) id' := fun id' =>
        ih _ (Walk.remaining_lt ⟨d, settings⟩ hid (mt List.contains_iff_mem.mp hpath))
          (List.mem_cons_of_mem id hg) id' rfl
      -- The group itself would be a cycle.
      have hne : id ≠ g := fun heq => hpath (heq ▸ hg)
      rw [depict_kind hleft hid, depict_kind ((h.leftOut?_eq path id).trans hleft)
        ((h.others id hne).trans hid)]
      simp only [h.scopeAt_eq, below]
      cases e.kind with
      | primitive shape => cases shape <;> rfl
      | _ => rfl

theorem notes_eq (h : d.Regroups d' g ids ids') (s : List String × String) :
    notes ⟨d', settings⟩ V s = notes ⟨d, settings⟩ V s := by
  obtain ⟨e, hg, hg'⟩ := h.group
  have hkind : ∀ id (kind : ElementKind K),
      kindNotes ⟨d', settings⟩ V id kind = kindNotes ⟨d, settings⟩ V id kind := by
    intro id kind
    cases kind with
    | primitive shape => cases shape <;> rfl
    | _ => rfl
  unfold notes Document.entryNotes Document.missingRecord
  by_cases hid : s.2 = g
  · rw [hid, hg, hg']
    simp only [h.materials_eq, kindNotes]
  · rw [h.others s.2 hid]
    simp only [h.materials_eq, hkind]

end Document.Regroups

/-! ## 3. Reports -/

/-- Walks that start and end with the same materials and report and owe the same have reported the
    same. -/
theorem Progress.Reaches.diagnostics_perm {c c' : Setting K} {p p' q q' : Progress K}
    {ds ds' : List (Diagnostic K)} {keys keys' : List String} (h : Reaches c V p q ds keys)
    (h' : Reaches c' V p' q' ds' keys') (hmaterials : c'.document.materials = c.document.materials)
    (hdiagnostics : p'.report.diagnostics = p.report.diagnostics)
    (hkept : p'.materials = p.materials) (hds : ds.Perm ds') (hkeys : keys.Perm keys') :
    q.report.diagnostics.Perm q'.report.diagnostics := by
  have hstart : p'.told c' V = p.told c V := by
    unfold Progress.told Progress.owed
    rw [hmaterials, hdiagnostics, hkept]
  have hmade : ∀ key, (q'.materials.find? key).isNone = (q.materials.find? key).isNone := by
    intro key
    have hiff : (q'.materials.find? key).isSome = true ↔ (q.materials.find? key).isSome = true := by
      rw [h'.made, h.made, hkept, hkeys.mem_iff]
    rw [← Option.not_isSome, ← Option.not_isSome, Bool.eq_iff_iff.mpr hiff]
  have howed : q'.owed c' V = q.owed c V := by
    unfold Progress.owed
    simp only [hmaterials, hmade]
  have htold : (q.told c V).Perm (q'.told c' V) := by
    refine h.told.trans (((List.perm_append_left_iff _).mpr hds).trans ?_)
    rw [← hstart]
    exact h'.told.symm
  rw [Progress.told, Progress.told, howed] at htold
  exact (List.perm_append_right_iff _).mp htold

/-! ## 4. Scenes -/

/-- Lists that differ only in what becomes nothing become the same. -/
theorem filterMap_eq_of_filter {α β : Type} {f : α → Option β} {keep : α → Bool}
    (hkeep : ∀ a, keep a = false → f a = none) {as bs : List α}
    (h : as.filter keep = bs.filter keep) : as.filterMap f = bs.filterMap f := by
  have hfilter : ∀ as : List α, (as.filter keep).filterMap f = as.filterMap f := by
    intro as
    rw [List.filterMap_filter]
    refine List.filterMap_congr fun a _ => ?_
    split
    · rfl
    next hnot => exact (hkeep a (Bool.eq_false_iff.mpr hnot)).symm
  rw [← hfilter as, h, hfilter bs]

theorem Document.Regroups.reported (h : d.Regroups d' g ids ids') (hperm : ids.Perm ids')
    {w₁ w₂ w w' : Workshop K} {scene scene' : Scene K} (h₁ : w₁.Shows settings.assetDir V)
    (h₂ : w₂.Shows settings.assetDir V) (hscene : assemble settings d w₁ = (.ok scene, w))
    (hscene' : assemble settings d' w₂ = (.ok scene', w')) :
    scene.report.diagnostics.Perm scene'.report.diagnostics := by
  obtain ⟨q, hreaches, hreport, -⟩ := depicted_scene hscene h₁
  obtain ⟨q', hreaches', hreport', -⟩ := depicted_scene hscene' h₂
  have hmet : (met ⟨d, settings⟩ [] d.rootId).Perm (met ⟨d', settings⟩ [] d.rootId) :=
    h.met_perm hperm [] d.rootId
  have hnotes : notes ⟨d', settings⟩ V = notes ⟨d, settings⟩ V := funext h.notes_eq
  have hdraws : draws ⟨d', settings⟩ = draws ⟨d, settings⟩ := funext h.draws_eq
  rw [h.rootId_eq, hnotes, hdraws] at hreaches'
  rw [hreport, hreport', h.cameras_eq]
  exact (hreaches.diagnostics_perm hreaches' h.materials_eq rfl rfl (hmet.flatMap_right _)
    (hmet.flatMap_right _)).append_right _

/-- **The children of a group do not interfere with each other.**  Take two documents that differ
    only in the children of one group, in workshops that show the same.  Whatever the group is
    below, there is one thing that each reference becomes, with its name, unless it is left out, and
    in both scenes the children of the group are what its references become.  So leaving out or
    adding references that are dropped changes no child, and if one list of children is a
    permutation of the other one, so are the nodes and the diagnostics. -/
theorem siblings_apart (settings : Settings K) {d d' : Document K} {g : String}
    {ids ids' : List String} (hd : d.Regroups d' g ids ids') (V : Views K) (w₁ w₂ : Workshop K)
    (h₁ : w₁.Shows settings.assetDir V) (h₂ : w₂.Shows settings.assetDir V)
    (hroot : d.elements.contains d.rootId) :
    ∃ scene w scene' w', assemble settings d w₁ = (.ok scene, w) ∧
      assemble settings d' w₂ = (.ok scene', w') ∧
      (∀ chain, ∃ become : String → Option (Picture K),
        (∀ id, become id = none ↔ leftOut? ⟨d, settings⟩ (g :: chain) id ≠ none) ∧
        (∀ id P, become id = some P → P.own.name = id) ∧
        ∀ n n', scene.HasPlace ⟨d, settings⟩ ⟨g :: chain, n⟩ →
          scene'.HasPlace ⟨d', settings⟩ ⟨g :: chain, n'⟩ →
          n.children.map (·.picture w.arena) = ids.filterMap become ∧
          n'.children.map (·.picture w'.arena) = ids'.filterMap become ∧
          (ids.filter (fun id => (leftOut? ⟨d, settings⟩ (g :: chain) id).isNone) =
              ids'.filter (fun id => (leftOut? ⟨d, settings⟩ (g :: chain) id).isNone) →
            n.children.map (·.picture w.arena) = n'.children.map (·.picture w'.arena)) ∧
          (ids.Perm ids' →
            (n.children.map (·.picture w.arena)).Perm (n'.children.map (·.picture w'.arena)))) ∧
      (ids.Perm ids' → scene.report.diagnostics.Perm scene'.report.diagnostics) := by
  obtain ⟨scene, w, hscene⟩ := exists_scene settings w₁ hroot
  have hroot' : d'.elements.contains d'.rootId := by
    rw [hd.rootId_eq, hd.contains_eq]
    exact hroot
  obtain ⟨scene', w', hscene'⟩ := exists_scene settings w₂ hroot'
  refine ⟨scene, w, scene', w', hscene, hscene', fun chain =>
    ⟨depict ⟨d, settings⟩ V (g :: chain), fun id => depict_eq_none_iff, fun id P => own_depict,
      fun n n' hplace hplace' => ?_⟩, fun hperm => hd.reported hperm h₁ h₂ hscene hscene'⟩
  obtain ⟨e, hg, hg'⟩ := hd.group
  have hchildren := depicted_children hscene h₁ hplace hg rfl
  have hchildren' := depicted_children hscene' h₂ hplace' hg' rfl
  rw [List.filterMap_congr fun id _ => hd.depict_eq List.mem_cons_self id] at hchildren'
  refine ⟨hchildren, hchildren', fun hkept => ?_, fun hperm => ?_⟩
  · rw [hchildren, hchildren']
    refine filterMap_eq_of_filter (fun id hout => depict_eq_none_iff.mpr fun hnone => ?_) hkept
    rw [hnone] at hout
    cases hout
  · rw [hchildren, hchildren']
    exact hperm.filterMap _

/-- Two things of one paint, the texture of which is missing, and a model of a bell. -/
def Document.shelf (ids : List String) : Document Float32 :=
  (((((Document.ofRoot "shelf").addElement (.ofKind "shelf" (.group ids))).addElement
    { Element.ofKind "ball" (.primitive (.sphere .standard)) with
      material := some "paint" }).addElement
    { Element.ofKind "can" (.primitive (.cylinder .standard)) with
      material := some "paint" }).addElement
    (.ofKind "bell" (.primitive (.model "bell.json")))).addMaterial "paint"
    { MaterialSpec.standard with texture := some "rust" }

theorem regroups_shelf (ids ids' : List String) :
    (Document.shelf ids).Regroups (Document.shelf ids') "shelf" ids ids' where
  rest := rfl
  others id hid := by
    simp [Document.shelf, Document.addElement, Document.addMaterial, Document.ofRoot,
      Table.find?_insert, Element.ofKind, hid]
  group := ⟨.ofKind "shelf" (.group ids), rfl, rfl⟩

/-- The model of a bell, as a document. -/
def Document.bells : Table (Option (Document Float32)) :=
  Table.empty.insert "./bell.json" (some ((Document.ofRoot "bell").addElement
    (.ofKind "bell" (.primitive (.sphere .standard)))))

def Workshop.ringing : Workshop Float32 :=
  ⟨.empty, .ofRecords .empty "." .placeholder, .withLoader (.ofDocuments Document.bells)⟩

theorem siblings_apart_shelf :
    (Document.shelf ["ball", "ghost", "can", "bell"]).Regroups
      (Document.shelf ["bell", "can", "ball", "ghost"]) "shelf" ["ball", "ghost", "can", "bell"]
      ["bell", "can", "ball", "ghost"] ∧
    (Document.shelf ["ball", "ghost", "can", "bell"]).elements.contains "shelf" ∧
    ∃ (scene : Scene Float32) (w : Workshop Float32) (scene' : Scene Float32)
      (w' : Workshop Float32) (ball can bell : Picture Float32),
      assemble .standard (Document.shelf ["ball", "ghost", "can", "bell"]) .ringing =
        (.ok scene, w) ∧
      assemble .standard (Document.shelf ["bell", "can", "ball", "ghost"]) .ringing =
        (.ok scene', w') ∧
      scene.root.children.map (·.picture w.arena) = [ball, can, bell] ∧
      scene'.root.children.map (·.picture w'.arena) = [bell, can, ball] ∧
      [ball, can, bell].map (·.own.name) = ["ball", "can", "bell"] ∧
      scene.report.diagnostics.Perm scene'.report.diagnostics := by
  have hd := regroups_shelf ["ball", "ghost", "can", "bell"] ["bell", "can", "ball", "ghost"]
  have hroot : (Document.shelf ["ball", "ghost", "can", "bell"]).elements.contains "shelf" := rfl
  have hperm : ["ball", "ghost", "can", "bell"].Perm ["bell", "can", "ball", "ghost"] := by decide
  have hshows := shows_withLoader .empty "." (Settings.standard : Settings Float32).assetDir
    .placeholder (fun _ => answers_ofDocuments Document.bells _) .empty
  obtain ⟨scene, w, scene', w', hscene, hscene', hbecome, hreport⟩ := siblings_apart .standard
    hd _ .ringing .ringing hshows hshows hroot
  obtain ⟨become, hnone, hname, hplaces⟩ := hbecome []
  obtain ⟨hchildren, hchildren', -⟩ := hplaces scene.root scene'.root ⟨rfl, .refl⟩ ⟨rfl, .refl⟩
  have hkept : ∀ id, leftOut? ⟨Document.shelf ["ball", "ghost", "can", "bell"], .standard⟩
      ["shelf"] id = none → ∃ P, become id = some P ∧ P.own.name = id := by
    intro id hleft
    obtain ⟨P, hP⟩ := Option.ne_none_iff_exists'.mp fun h => (hnone id).mp h hleft
    exact ⟨P, hP, hname id P hP⟩
  obtain ⟨ball, hball, hballName⟩ := hkept "ball" rfl
  obtain ⟨can, hcan, hcanName⟩ := hkept "can" rfl
  obtain ⟨bell, hbell, hbellName⟩ := hkept "bell" rfl
  have hmissing : leftOut? ⟨Document.shelf ["ball", "ghost", "can", "bell"], .standard⟩ ["shelf"]
      "ghost" = some (.missingElement "ghost") := rfl
  have hghost : become "ghost" = none :=
    (hnone "ghost").mpr (by rw [hmissing]; exact Option.some_ne_none _)
  refine ⟨hd, hroot, scene, w, scene', w', ball, can, bell, hscene, hscene', ?_, ?_, ?_,
    hreport hperm⟩
  · simpa [hball, hghost, hcan, hbell] using hchildren
  · simpa [hball, hghost, hcan, hbell] using hchildren'
  · simp [hballName, hcanName, hbellName]

end SceneAssembly
