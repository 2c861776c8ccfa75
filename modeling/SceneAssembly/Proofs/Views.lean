/-
  SceneAssembly/Proofs/Views.lean
  ===============================
  **What names look like to whoever asks.**

  If loaders are functions of the path, it is fixed from the start what the
  texture of an identifier looks like and what the model of a path looks like,
  or how it fails (`Views`).  A workshop shows this whenever it is asked: what it
  keeps looks so, and what it will make or load will look so (`Workshop.Shows`).
  Serving a model leaves that as it is (`ModelLibrary.Served.shows`), and a new
  workshop shows what its records and its loaders say (`shows_empty`,
  `shows_withLoader`).
-/
import SceneAssembly.Assembly
import SceneAssembly.Proofs.Models
import SceneAssembly.Proofs.Pictures

namespace SceneAssembly

variable {K : Type}

/-! ## 1. Views -/

/-- What the texture of an identifier and the model of a path look like. -/
structure Views (K : Type) where
  texture : String → Option (TextureLook K)
  model : String → Except (Diagnostic K) (Picture K)

/-- Whenever a loader is asked for a path, it answers with a model of one picture, or always with
    one error; it keeps the pixel sources that there are. -/
def ModelLoader.Answers (load : ModelLoader K) (path : String)
    (view : Except (Diagnostic K) (Picture K)) : Prop :=
  ∀ a, a.Stays (load path a).2 ∧
    match (load path a).1 with
    | .error e => view = .error e
    | .ok root => ∃ P, view = .ok P ∧ root.Shows (load path a).2 P

/-- Whatever path a library is asked for, now or later, its model looks as given. -/
structure ModelLibrary.Shows (l : ModelLibrary K) (a : Arena) (assetDir : String)
    (model : String → Except (Diagnostic K) (Picture K)) : Prop where
  kept : ∀ {path t}, l.find? path = some t →
    ∃ P, model path = .ok P ∧ t.value.root.Shows a P
  unavailable : l.loader = none → ∀ {path}, l.find? path = none →
    model path = .error (.resource path "no model loader configured")
  asked : ∀ {load}, l.loader = some load → ∀ {path}, l.find? path = none →
    load.Answers (AssetPath.join assetDir path) (model path)
  filed : ∀ {path key}, l.keys.find? path = some key → key < l.templates.size

/-- A workshop in which names look as given, with models below a directory of assets. -/
structure Workshop.Shows [Scalar K] (w : Workshop K) (assetDir : String) (V : Views K) : Prop where
  textures : ShowsTextures V.texture (w.registry, w.arena)
  models : w.library.Shows w.arena assetDir V.model

/-! ## 2. Models -/

namespace ModelLibrary

variable {l l' : ModelLibrary K} {a a' : Arena} {assetDir path : String}
  {model : String → Except (Diagnostic K) (Picture K)}

theorem Shows.mono (h : l.Shows a assetDir model) (ha : a.Stays a') :
    l.Shows a' assetDir model where
  kept hfind := by
    obtain ⟨P, hP, hlasts⟩ := h.kept hfind
    exact ⟨P, hP, hlasts.mono ha⟩
  unavailable := h.unavailable
  asked := h.asked
  filed := h.filed

/-- A path without a template has no key. -/
theorem Shows.keys_eq_none (h : l.Shows a assetDir model) (hfind : l.find? path = none) :
    l.keys.find? path = none := by
  cases hkey : l.keys.find? path with
  | none => rfl
  | some key =>
    rw [ModelLibrary.find?, hkey, Option.bind_some, get?,
      Array.getElem?_eq_getElem (h.filed hkey)] at hfind
    cases hfind

/-- A template for a new path is found under it, and all others where they were. -/
theorem find?_put (h : l.Shows a assetDir model) (hfind : l.find? path = none)
    {t : Shared (ModelTemplate K)} (ht : t.value.path = path) (path' : String) :
    (l.put t).2.find? path' = if path' = path then some t else l.find? path' := by
  have hkey := h.keys_eq_none hfind
  rw [← ht] at hkey ⊢
  simp only [put, hkey, ModelLibrary.find?, Table.find?_insert]
  split
  next => simp [get?]
  next =>
    cases hother : l.keys.find? path' with
    | none => rfl
    | some key =>
      have hsize := h.filed hother
      simp only [Option.bind_some, get?]
      rw [Array.getElem?_push_lt hsize, Array.getElem?_eq_getElem hsize]

theorem Shows.put (h : l.Shows a assetDir model) (hfind : l.find? path = none)
    {t : Shared (ModelTemplate K)} (ht : t.value.path = path) {P : Picture K}
    (hP : model path = .ok P) (hlasts : t.value.root.Shows a P) :
    (l.put t).2.Shows a assetDir model where
  kept {path' u} hu := by
    rw [find?_put h hfind ht] at hu
    split at hu
    next heq => cases hu; exact ⟨P, heq ▸ hP, hlasts⟩
    next => exact h.kept hu
  unavailable hload path' hnone := by
    rw [put_loader] at hload
    rw [find?_put h hfind ht] at hnone
    split at hnone
    · cases hnone
    · exact h.unavailable hload hnone
  asked {load} hload path' hnone := by
    rw [put_loader] at hload
    rw [find?_put h hfind ht] at hnone
    split at hnone
    · cases hnone
    · exact h.asked hload hnone
  filed {path' key} hkey := by
    have hnew := h.keys_eq_none hfind
    rw [← ht] at hnew
    simp only [ModelLibrary.put, hnew, Table.find?_insert] at hkey ⊢
    rw [Array.size_push]
    split at hkey
    next => cases hkey; exact Nat.lt_succ_self _
    next => exact Nat.lt_succ_of_lt (h.filed hkey)

/-- What a request for a model finds. -/
def Found (a : Arena) (view : Except (Diagnostic K) (Picture K)) :
    Except (Diagnostic K) (Shared (ModelTemplate K)) → Prop
  | .error d => view = .error d
  | .ok t => ∃ P, view = .ok P ∧ t.value.root.Shows a P

/-- **Serving a model changes no view**, and serves what was to be seen. -/
theorem Served.shows {found : Except (Diagnostic K) (Shared (ModelTemplate K))}
    (h : l.Served path assetDir a found l' a') (hl : l.Shows a assetDir model) :
    l'.Shows a' assetDir model ∧ a.Stays a' ∧ Found a' (model path) found := by
  cases h with
  | kept hfind => exact ⟨hl, .refl a, hl.kept hfind⟩
  | unavailable hfind hload => exact ⟨hl, .refl a, hl.unavailable hload hfind⟩
  | failed hfind hload heq =>
    obtain ⟨hstays, hanswer⟩ := hl.asked hload hfind a
    rw [heq] at hstays hanswer
    have hl' := hl.mono hstays
    exact ⟨⟨hl'.kept, hl'.unavailable, hl'.asked, hl'.filed⟩, hstays, hanswer⟩
  | @imported load root b hfind hload heq =>
    obtain ⟨hstays, hanswer⟩ := hl.asked hload hfind a
    rw [heq] at hstays hanswer
    obtain ⟨P, hP, hlasts⟩ := hanswer
    have hnext : b.Stays { b with next := b.next + 1 } := .of_sources rfl
    have hl' := hl.mono (hstays.trans hnext)
    have hasking : (l.asking (AssetPath.join assetDir path)).Shows { b with next := b.next + 1 }
        assetDir model := ⟨hl'.kept, hl'.unavailable, hl'.asked, hl'.filed⟩
    exact ⟨hasking.put hfind rfl hP (hlasts.mono hnext), hstays.trans hnext, P, hP,
      hlasts.mono hnext⟩

end ModelLibrary

/-! ## 3. New workshops -/

section Fresh

variable [Scalar K]

/-- The views of a workshop in which nothing has been made yet. -/
def Views.ofRecords (records : Table TextureSpec) (assetDir : String) (loader : ImageLoader)
    (model : String → Except (Diagnostic K) (Picture K)) : Views K where
  texture id := (records.find? id).map (·.look id assetDir loader)
  model := model

theorem showsTextures_ofRecords (records : Table TextureSpec) (assetDir : String)
    (loader : ImageLoader) (model : String → Except (Diagnostic K) (Picture K)) (a : Arena) :
    ShowsTextures (Views.ofRecords records assetDir loader model).texture
      (.ofRecords records assetDir loader, a) where
  kept h := by cases h
  unmade _ := rfl

/-- The models of a library without a loader. -/
def ModelLibrary.noModel (path : String) : Except (Diagnostic K) (Picture K) :=
  .error (.resource path "no model loader configured")

theorem shows_empty (records : Table TextureSpec) (assetDir modelDir : String)
    (loader : ImageLoader) (a : Arena) :
    Workshop.Shows (⟨a, .ofRecords records assetDir loader, .empty⟩ : Workshop K) modelDir
      (.ofRecords records assetDir loader ModelLibrary.noModel) where
  textures := showsTextures_ofRecords records assetDir loader _ a
  models := {
    kept := fun h => by cases h
    unavailable := fun _ _ _ => rfl
    asked := fun h => by cases h
    filed := fun h => by cases h }

/-- A workshop with a loader of models that is a function of the path. -/
theorem shows_withLoader (records : Table TextureSpec) (assetDir modelDir : String)
    (loader : ImageLoader) {load : ModelLoader K}
    {model : String → Except (Diagnostic K) (Picture K)}
    (hload : ∀ path, load.Answers (AssetPath.join modelDir path) (model path)) (a : Arena) :
    Workshop.Shows (⟨a, .ofRecords records assetDir loader, .withLoader load⟩ : Workshop K)
      modelDir (.ofRecords records assetDir loader model) where
  textures := showsTextures_ofRecords records assetDir loader _ a
  models := {
    kept := fun h => by cases h
    unavailable := fun h => by cases h
    asked := fun h path _ => by
      obtain rfl := Option.some.inj h
      exact hload path
    filed := fun h => by cases h }

end Fresh

end SceneAssembly
