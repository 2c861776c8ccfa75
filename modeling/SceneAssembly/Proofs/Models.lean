/-
  SceneAssembly/Proofs/Models.lean
  ================================
  **What a library does when it is asked for a model.**

  A request is served in one of four ways (`ModelLibrary.Served`): the template
  is there, there is no loader, the loader fails, or it imports the model.  From
  these follow what a library keeps (`All.instantiate`), what its failures can
  be (`FailsOnly.instantiate`) and that its loader never changes.
-/
import SceneAssembly.ModelLibrary

namespace SceneAssembly.ModelLibrary

variable {K : Type}

/-- The library after a request to its loader. -/
def asking (l : ModelLibrary K) (path : String) : ModelLibrary K :=
  { l with loads := l.loads ++ [path] }

/-- How a request for a template can be served. -/
inductive Served (l : ModelLibrary K) (path assetDir : String) (a : Arena) :
    Except (Diagnostic K) (Shared (ModelTemplate K)) → ModelLibrary K → Arena → Prop
  | kept {t : Shared (ModelTemplate K)} (h : l.find? path = some t) :
    Served l path assetDir a (.ok t) l a
  | unavailable (h : l.find? path = none) (hload : l.loader = none) :
    Served l path assetDir a (.error (.resource path "no model loader configured")) l a
  | failed {load : ModelLoader K} {d : Diagnostic K} {b : Arena} (h : l.find? path = none)
      (hload : l.loader = some load) (heq : load (AssetPath.join assetDir path) a = (.error d, b)) :
    Served l path assetDir a (.error d) (l.asking (AssetPath.join assetDir path)) b
  | imported {load : ModelLoader K} {root : SceneNode K} {b : Arena} (h : l.find? path = none)
      (hload : l.loader = some load)
      (heq : load (AssetPath.join assetDir path) a = (.ok root, b)) :
    Served l path assetDir a (.ok ⟨b.next, ⟨path, root⟩⟩)
      ((l.asking (AssetPath.join assetDir path)).put ⟨b.next, ⟨path, root⟩⟩).2
      { b with next := b.next + 1 }

theorem template_served (l : ModelLibrary K) (path assetDir : String) (a : Arena) :
    Served l path assetDir a (l.template path assetDir a).1.1 (l.template path assetDir a).1.2
      (l.template path assetDir a).2 := by
  obtain ⟨loader, templates, keys, loads⟩ := l
  unfold template
  cases h : find? ⟨loader, templates, keys, loads⟩ path with
  | some t => exact .kept h
  | none =>
    cases loader with
    | none => exact .unavailable h rfl
    | some load =>
      obtain ⟨result, b, heq⟩ : ∃ result b, load (AssetPath.join assetDir path) a = (result, b) :=
        ⟨_, _, rfl⟩
      simp only [bind, StateT.bind, heq]
      cases result with
      | error d => exact .failed h rfl heq
      | ok root => exact .imported h rfl heq

@[simp] theorem put_loader (l : ModelLibrary K) (t : Shared (ModelTemplate K)) :
    (l.put t).2.loader = l.loader := by
  unfold put
  split <;> rfl

theorem mem_put_templates {l : ModelLibrary K} {t u : Shared (ModelTemplate K)}
    (h : u ∈ (l.put t).2.templates) : u = t ∨ u ∈ l.templates := by
  unfold put at h
  split at h
  next key _ =>
    obtain ⟨i, hi, hget⟩ := Array.mem_iff_getElem.mp h
    simp only [Array.getElem_modify] at hget
    split at hget
    · exact .inl hget.symm
    · exact .inr (hget ▸ Array.getElem_mem _)
  next =>
    rcases Array.mem_push.mp h with h | h
    · exact .inr h
    · exact .inl h

/-- Every model of a library, kept already or still to be loaded, has a property. -/
structure All (Q : SceneNode K → Prop) (l : ModelLibrary K) : Prop where
  kept : ∀ t ∈ l.templates, Q t.value.root
  loaded : ∀ load, l.loader = some load → ∀ path a root, (load path a).1 = .ok root → Q root

/-- The failures of the loader of a library all have a property. -/
def FailsOnly (E : Diagnostic K → Prop) (l : ModelLibrary K) : Prop :=
  ∀ load, l.loader = some load → ∀ path a d, (load path a).1 = .error d → E d

/-- The loader of a library takes back no number that was given out. -/
def KeepsNumbers (l : ModelLibrary K) : Prop :=
  ∀ load, l.loader = some load → ∀ path a, a.next ≤ (load path a).2.next

namespace Served

variable {l l' : ModelLibrary K} {path assetDir : String} {a a' : Arena}
  {found : Except (Diagnostic K) (Shared (ModelTemplate K))}

theorem loader (h : Served l path assetDir a found l' a') : l'.loader = l.loader := by
  cases h with
  | kept => rfl
  | unavailable => rfl
  | failed => rfl
  | imported => rw [put_loader]; rfl

theorem mem_templates_of_find? {t : Shared (ModelTemplate K)} (h : l.find? path = some t) :
    t ∈ l.templates := by
  unfold ModelLibrary.find? at h
  obtain ⟨key, -, hget⟩ := Option.bind_eq_some_iff.mp h
  exact Array.mem_of_getElem? hget

theorem all {Q : SceneNode K → Prop} (h : Served l path assetDir a found l' a') (hl : l.All Q) :
    l'.All Q ∧ ∀ t, found = .ok t → Q t.value.root := by
  cases h with
  | kept hfind =>
    refine ⟨hl, fun t ht => ?_⟩
    obtain rfl := Except.ok.inj ht
    exact hl.kept _ (mem_templates_of_find? hfind)
  | unavailable => exact ⟨hl, fun t ht => by cases ht⟩
  | failed => exact ⟨⟨hl.kept, hl.loaded⟩, fun t ht => by cases ht⟩
  | imported hfind hload heq =>
    have hroot := hl.loaded _ hload _ a _ (congrArg Prod.fst heq)
    refine ⟨⟨fun t ht => ?_, ?_⟩, fun t ht => ?_⟩
    · rcases mem_put_templates ht with rfl | ht
      · exact hroot
      · exact hl.kept t ht
    · rw [put_loader]
      exact hl.loaded
    · obtain rfl := Except.ok.inj ht
      exact hroot

theorem error {E : Diagnostic K → Prop} (h : Served l path assetDir a found l' a')
    (hl : l.FailsOnly E) (hresource : ∀ path reason, E (.resource path reason))
    {d : Diagnostic K} (hd : found = .error d) : E d := by
  cases h with
  | kept => cases hd
  | unavailable => obtain rfl := Except.error.inj hd; exact hresource _ _
  | failed _ hload heq =>
    obtain rfl := Except.error.inj hd
    exact hl _ hload _ a _ (congrArg Prod.fst heq)
  | imported => cases hd

theorem next (h : Served l path assetDir a found l' a') (hl : l.KeepsNumbers) :
    a.next ≤ a'.next := by
  cases h with
  | kept => exact Nat.le_refl _
  | unavailable => exact Nat.le_refl _
  | failed _ hload heq =>
    have := hl _ hload (AssetPath.join assetDir path) a
    rwa [heq] at this
  | imported _ hload heq =>
    have := hl _ hload (AssetPath.join assetDir path) a
    rw [heq] at this
    exact Nat.le_succ_of_le this

end Served

/-- An instance is the template that the request was served with, placed anew. -/
theorem instantiate_served [Scalar K] {l l' : ModelLibrary K} {path assetDir : String}
    {parent : Shared (Affine K)} {a a' : Arena} {result : Except (Diagnostic K) (SceneNode K)}
    (h : l.instantiate path assetDir parent a = ((result, l'), a')) :
    ∃ found b, Served l path assetDir a found l' b ∧
      ((∃ d, found = .error d ∧ result = .error d ∧ a' = b) ∨
        ∃ t n, found = .ok t ∧ t.value.root.rebase parent b = (n, a') ∧ result = .ok n) := by
  have hserved := template_served l path assetDir a
  obtain ⟨found, k, b, heq⟩ : ∃ found k b, l.template path assetDir a = ((found, k), b) :=
    ⟨_, _, _, rfl⟩
  rw [heq] at hserved
  simp only [instantiate, bind, StateT.bind, heq] at h
  cases found with
  | error d =>
    cases h
    exact ⟨_, _, hserved, .inl ⟨d, rfl, rfl, rfl⟩⟩
  | ok t =>
    obtain ⟨n, b', hrebase⟩ : ∃ n b', t.value.root.rebase parent b = (n, b') := ⟨_, _, rfl⟩
    simp only [StateT.bind, hrebase] at h
    cases h
    exact ⟨_, _, hserved, .inr ⟨t, n, rfl, hrebase, rfl⟩⟩

end SceneAssembly.ModelLibrary
