/-
  SceneAssembly/Proofs/Walk/Steady.lean
  =====================================
  **What a walk makes and reports does not depend on what it has made before.**

  The progress of a walk shows some views if all that it keeps looks as they say
  (`Progress.Shows`).  What is made for a name looks the same whether it is kept
  already or made now, so actions keep to the views.

  The one thing that depends on the order is when a material is made, and what
  is wrong with it reported.  So we count what is still owed: the reports of all
  descriptions of which no material has been made yet.  The reports made and the
  reports owed together grow at each action by what that action has to report,
  whenever it is done (`Progress.Reaches`).
-/
import SceneAssembly.Proofs.Views
import SceneAssembly.Proofs.Walk.Inheritance

namespace SceneAssembly

variable {K : Type}

/-! ## 1. Progress -/

/-- The entry of a key is the only one that a filter without that key loses. -/
theorem Table.filter_perm {α : Type} (t : Table α) {key : String} {x : α}
    (hx : t.find? key = some x) (keep : String × α → Bool) (hkeep : keep (key, x) = true) :
    (t.entries.filter keep).Perm
      ((key, x) :: t.entries.filter fun e => decide (e.1 ≠ key) && keep e) := by
  obtain ⟨l, hl⟩ := t
  obtain ⟨before, rest, rfl, -⟩ := List.lookup_eq_some_iff.mp hx
  have hother : ∀ e ∈ before ++ rest, decide (e.1 ≠ key) = true := by
    intro e he
    have hperm : ((key, x) :: (before ++ rest)).Perm (before ++ (key, x) :: rest) :=
      List.perm_middle.symm
    have hnodup := (hperm.map Prod.fst).nodup_iff.mpr hl
    rw [List.map_cons, List.nodup_cons] at hnodup
    refine decide_eq_true fun heq => hnodup.1 ?_
    have hmem := List.mem_map_of_mem (f := Prod.fst) he
    rwa [heq] at hmem
  have hsame : ∀ part : List (String × α), (∀ e ∈ part, e ∈ before ++ rest) →
      part.filter (fun e => decide (e.1 ≠ key) && keep e) = part.filter keep := by
    intro part hpart
    refine List.filter_congr fun e he => ?_
    rw [hother e (hpart e he), Bool.true_and]
  rw [List.filter_append, List.filter_append, List.filter_cons_of_pos hkeep,
    List.filter_cons_of_neg (by simp), hsame before fun e he => List.mem_append_left _ he,
    hsame rest fun e he => List.mem_append_right _ he]
  exact List.perm_middle

variable [Scalar K]

omit [Scalar K] in
theorem Material.mapped_sources (m : Material K) (t : Shared (Texture K)) (a : Arena) :
    (m.mapped t a).2.sources = a.sources := by
  unfold Material.mapped
  cases m.mapRepeat <;> rfl

def Settings.fallbackLook (s : Settings K) : MaterialLook K :=
  (Material.fallback s.fallbackColor .empty).1.look .empty

namespace Progress

/-- All that is kept looks as the views say, and so will all that is made later. -/
structure Shows (c : Setting K) (V : Views K) (p : Progress K) : Prop where
  textures : ShowsTextures V.texture p.textures
  models : p.library.Shows p.arena c.settings.assetDir V.model
  materials : ∀ {key m}, p.materials.find? key = some m → ∃ spec,
    c.document.materials.find? key = some spec ∧ Lasts p.arena m.value.look (spec.look V.texture)
  fallback : ∀ {m}, p.fallback = some m → Lasts p.arena m.value.look c.settings.fallbackLook

/-- What will be reported of the descriptions of which no material has been made. -/
def owed (c : Setting K) (V : Views K) (p : Progress K) : List (Diagnostic K) :=
  (c.document.materials.entries.filter fun e => (p.materials.find? e.1).isNone).flatMap
    fun e => e.2.missingNames V.texture

/-- What has been reported, and what is still owed. -/
def told (c : Setting K) (V : Views K) (p : Progress K) : List (Diagnostic K) :=
  p.report.diagnostics ++ p.owed c V

/-- From one progress to another one some diagnostics are reported, in any order, and the materials
    of some keys are made, unless they were there. -/
structure Reaches (c : Setting K) (V : Views K) (p q : Progress K) (ds : List (Diagnostic K))
    (keys : List String) : Prop where
  shows : q.Shows c V
  stays : p.arena.Stays q.arena
  told : (q.told c V).Perm (p.told c V ++ ds)
  made : ∀ key, (q.materials.find? key).isSome = true ↔
    (p.materials.find? key).isSome = true ∨ key ∈ keys

variable {c : Setting K} {V : Views K} {p q r : Progress K} {ds ds' : List (Diagnostic K)}
  {keys keys' : List String}

namespace Reaches

theorem refl (hp : p.Shows c V) : Reaches c V p p [] [] :=
  ⟨hp, .refl _, by rw [List.append_nil], fun key => by simp⟩

theorem trans (h : Reaches c V p q ds keys) (h' : Reaches c V q r ds' keys') :
    Reaches c V p r (ds ++ ds') (keys ++ keys') where
  shows := h'.shows
  stays := h.stays.trans h'.stays
  told := by
    rw [← List.append_assoc]
    exact h'.told.trans (h.told.append_right ds')
  made key := by rw [h'.made, h.made, List.mem_append, or_assoc]

theorem noting (hp : p.Shows c V) (ds : List (Diagnostic K)) :
    Reaches c V p (p.noting ds) ds [] where
  shows := ⟨hp.textures, hp.models, hp.materials, hp.fallback⟩
  stays := .refl _
  told := by
    show ((p.report.diagnostics ++ ds) ++ p.owed c V).Perm _
    rw [Progress.told, List.append_assoc, List.append_assoc]
    exact List.perm_append_comm.append_left _
  made key := by simp [Progress.noting]

theorem counting (h : Reaches c V p q ds keys) : Reaches c V p q.counting ds keys where
  shows := ⟨h.shows.textures, h.shows.models, h.shows.materials, h.shows.fallback⟩
  stays := h.stays
  told := h.told
  made := h.made

/-- Making textures and other objects. -/
theorem textures (hp : p.Shows c V) {x : TextureRegistry K × Arena}
    (hx : Showing V.texture p.textures x) :
    Reaches c V p { p with registry := x.1, arena := x.2 } [] [] where
  shows := {
    textures := hx.shows
    models := hp.models.mono hx.stays
    materials := fun hm => by
      obtain ⟨spec, hspec, hlasts⟩ := hp.materials hm
      exact ⟨spec, hspec, hlasts.mono hx.stays⟩
    fallback := fun hm => (hp.fallback hm).mono hx.stays }
  stays := hx.stays
  told := by rw [List.append_nil]; rfl
  made key := by simp

theorem arena (hp : p.Shows c V) {a : Arena} (ha : a.sources = p.arena.sources) :
    Reaches c V p { p with arena := a } [] [] :=
  textures hp (.arena hp.textures ha)

/-- Asking the library for a model. -/
theorem library (hp : p.Shows c V) {l : ModelLibrary K} {a : Arena}
    (hl : l.Shows a c.settings.assetDir V.model) (ha : p.arena.Stays a) :
    Reaches c V p { p with library := l, arena := a } [] [] where
  shows := {
    textures := hp.textures.mono ha
    models := hl
    materials := fun hm => by
      obtain ⟨spec, hspec, hlasts⟩ := hp.materials hm
      exact ⟨spec, hspec, hlasts.mono ha⟩
    fallback := fun hm => (hp.fallback hm).mono ha }
  stays := ha
  told := by rw [List.append_nil]; rfl
  made key := by simp

theorem fallbackMaterial (hp : p.Shows c V) {m : Shared (Material K)}
    (hm : Lasts p.arena m.value.look c.settings.fallbackLook) :
    Reaches c V p { p with fallback := some m } [] [] where
  shows := ⟨hp.textures, hp.models, hp.materials, fun h => by cases h; exact hm⟩
  stays := .refl _
  told := by rw [List.append_nil]; rfl
  made key := by simp

/-- A material that is made is no longer owed, and its report is made then. -/
theorem material (hp : p.Shows c V) {key : String} {spec : MaterialSpec K}
    {m : Shared (Material K)} (hnone : p.materials.find? key = none)
    (hspec : c.document.materials.find? key = some spec)
    (hm : Lasts p.arena m.value.look (spec.look V.texture)) :
    Reaches c V p (({ p with materials := p.materials.insert key m } : Progress K).noting
      (spec.missingNames V.texture)) [] [key] where
  shows := {
    textures := hp.textures
    models := hp.models
    fallback := hp.fallback
    materials := fun {key' m'} hm' => by
      have hm' : (p.materials.insert key m).find? key' = some m' := hm'
      rw [Table.find?_insert] at hm'
      split at hm'
      next heq => cases hm'; exact ⟨spec, heq ▸ hspec, hm⟩
      next => exact hp.materials hm' }
  stays := .refl _
  told := by
    have howed : (p.owed c V).Perm (spec.missingNames V.texture ++
        ({ p with materials := p.materials.insert key m } : Progress K).owed c V) := by
      have hperm := c.document.materials.filter_perm hspec
        (fun e => (p.materials.find? e.1).isNone) (by rw [hnone]; rfl)
      have hfilter : ∀ e : String × MaterialSpec K,
          (decide (e.1 ≠ key) && (p.materials.find? e.1).isNone) =
            ((p.materials.insert key m).find? e.1).isNone := by
        intro e
        rw [Table.find?_insert]
        by_cases heq : e.1 = key <;> simp [heq]
      simp only [hfilter] at hperm
      exact hperm.flatMap_right _
    rw [List.append_nil, Progress.told]
    refine List.Perm.trans ?_ (howed.symm.append_left _)
    rw [← List.append_assoc]
    exact .refl _
  made key' := by
    show ((p.materials.insert key m).find? key').isSome = true ↔ _
    rw [Table.find?_insert, List.mem_singleton]
    by_cases heq : key' = key <;> simp [heq]

end Reaches

end Progress

/-! ## 2. What is handed down -/

/-- What is handed down to an element, without identities. -/
structure ScopeLook (K : Type) where
  world : Affine K
  material : Option (MaterialLook K)
  texture : Option (TextureLook K)
  castShadow : Bool
  receiveShadow : Bool

namespace ScopeLook

/-- What is handed to the root. -/
def outermost : ScopeLook K := ⟨Affine.identity, none, none, false, false⟩

/-- What holds at an element. -/
def enter (s : ScopeLook K) (d : Document K) (V : Views K) (e : Element K) : ScopeLook K where
  world := (TransformStep.placement? e.transforms).elim s.world (s.world * ·)
  material := ((e.material.bind d.materials.find?).map (·.look V.texture)).or s.material
  texture := (e.texture.bind V.texture).or s.texture
  castShadow := s.castShadow || e.casts
  receiveShadow := s.receiveShadow || e.receives

end ScopeLook

/-- An optional material has an optional look. -/
def MaterialLasts (a : Arena) (m : Option (Shared (Material K))) (look : Option (MaterialLook K)) :
    Prop :=
  Lasts a (fun b => m.map (·.value.look b)) look

/-- A world and what is handed down with it look as given. -/
structure ScopeLasts (a : Arena) (world : Shared (Affine K)) (scope : Inherited K)
    (s : ScopeLook K) : Prop where
  world : world.value = s.world
  material : MaterialLasts a scope.material s.material
  texture : TextureLasts a scope.texture s.texture
  castShadow : scope.castShadow = s.castShadow
  receiveShadow : scope.receiveShadow = s.receiveShadow

omit [Scalar K] in
theorem ScopeLasts.mono {a b : Arena} {world : Shared (Affine K)} {scope : Inherited K}
    {s : ScopeLook K} (h : ScopeLasts a world scope s) (hab : a.Stays b) :
    ScopeLasts b world scope s :=
  ⟨h.world, h.material.mono hab, h.texture.mono hab, h.castShadow, h.receiveShadow⟩

theorem scopeLasts_outermost (a : Arena) (i : Nat) :
    ScopeLasts a ⟨i, Affine.identity⟩ (.nothing : Inherited K) .outermost :=
  ⟨rfl, fun _ _ => rfl, fun _ _ => rfl, rfl, rfl⟩

namespace Document

/-- The key of the description of a material that an element has drawn. -/
def drawn (d : Document K) (e : Element K) : List String :=
  (e.material.filter d.materials.contains).toList

/-- A report of a material that an element refers to in vain. -/
def missingRecord (d : Document K) (e : Element K) : List (Diagnostic K) :=
  ((e.material.filter fun key => !d.materials.contains key).map .missingMaterial).toList

/-- What an element has to report before anything is put into its node. -/
def entryNotes (d : Document K) (V : Views K) (e : Element K) : List (Diagnostic K) :=
  d.missingRecord e ++ missingName V.texture e.texture ++ TransformStep.faults e.transforms

end Document

/-- The node of an element with nothing in it. -/
def NodeLook.entered (id : String) (e : Element K) (s : ScopeLook K) : NodeLook K where
  name := id
  placement := TransformStep.placement? e.transforms
  world := s.world
  mesh := none
  light := none
  distances := none
  castShadow := s.castShadow
  receiveShadow := s.receiveShadow

namespace Walk

open Progress (Reaches)

variable {c : Setting K} {V : Views K} {p q : Progress K} {e : Element K}
  {inherited scope : Inherited K}

theorem lookupTexture_shows (hp : p.Shows c V) (key : String) :
    ∃ t q, lookupTexture key p = (t, q) ∧ Reaches c V p q (missingName V.texture (some key)) [] ∧
      TextureLasts q.arena t (V.texture key) := by
  obtain ⟨t, x, hresolve⟩ : ∃ t x, TextureRegistry.resolve key p.textures = (t, x) := ⟨_, _, rfl⟩
  obtain ⟨hshowing, hlasts⟩ := TextureRegistry.showing_resolve hp.textures key
  rw [hresolve] at hshowing hlasts
  have hrun : onTextures (TextureRegistry.resolve key) p =
      (t, { p with registry := x.1, arena := x.2 }) := by
    show ((TextureRegistry.resolve key p.textures).1, { p with
      registry := (TextureRegistry.resolve key p.textures).2.1
      arena := (TextureRegistry.resolve key p.textures).2.2 }) = _
    rw [hresolve]
  have hreaches := Reaches.textures hp hshowing
  have hfaults : (if t.isNone then [.missingTexture key] else [] : List (Diagnostic K)) =
      missingName V.texture (some key) := by
    rw [hlasts.isNone_eq]
    rfl
  rw [← hfaults]
  simp only [lookupTexture, bind, StateT.bind, hrun]
  cases t with
  | some t => exact ⟨_, _, rfl, hreaches, hlasts⟩
  | none => exact ⟨_, _, rfl, hreaches.trans (.noting hreaches.shows _), hlasts⟩

theorem textureOf_shows (hp : p.Shows c V) (e : Element K) (inherited : Inherited K) :
    ∃ t q, textureOf e inherited p = (t, q) ∧
      Reaches c V p q (missingName V.texture e.texture) [] ∧
      ∀ look, TextureLasts p.arena inherited.texture look →
        TextureLasts q.arena t ((e.texture.bind V.texture).or look) := by
  cases htexture : e.texture with
  | none =>
    simp only [textureOf, htexture]
    exact ⟨_, _, rfl, .refl hp, fun look h => h⟩
  | some key =>
    obtain ⟨t, q, hlookup, hreaches, hlasts⟩ := lookupTexture_shows hp key
    simp only [textureOf, htexture, bind, StateT.bind, hlookup]
    cases t with
    | some t =>
      obtain ⟨look, hlook, hlasts⟩ := Lasts.of_some hlasts
      refine ⟨_, _, rfl, hreaches, fun _ _ => ?_⟩
      rw [Option.bind_some, hlook]
      exact hlasts.map some
    | none =>
      refine ⟨_, _, rfl, hreaches, fun look h => ?_⟩
      rw [Option.bind_some, ← Lasts.eq hlasts]
      exact h.mono hreaches.stays

theorem materialOf_shows (hp : p.Shows c V) (e : Element K) (inherited : Inherited K) :
    ∃ m q, materialOf c e inherited p = (m, q) ∧
      Reaches c V p q (c.document.missingRecord e) (c.document.drawn e) ∧
      ∀ look, MaterialLasts p.arena inherited.material look → MaterialLasts q.arena m
        (((e.material.bind c.document.materials.find?).map (·.look V.texture)).or look) := by
  unfold Document.missingRecord Document.drawn
  cases hmaterial : e.material with
  | none => exact ⟨_, _, materialOf_inherited hmaterial, .refl hp, fun look h => h⟩
  | some key =>
    cases hkept : p.materials.find? key with
    | some m =>
      obtain ⟨spec, hspec, hlasts⟩ := hp.materials hkept
      refine ⟨_, _, materialOf_kept hmaterial hkept, ?_, fun look _ => ?_⟩
      · have hkey : c.document.materials.contains key = true := by
          rw [Table.contains, hspec]
          rfl
        simp only [Option.filter_some, hkey, Bool.not_true, if_true, Bool.false_eq_true, if_false,
          Option.map_none, Option.toList_none, Option.toList_some]
        refine ⟨hp, .refl _, by rw [List.append_nil], fun key' => ?_⟩
        rw [List.mem_singleton]
        refine (or_iff_left_of_imp ?_).symm
        rintro rfl
        rw [hkept]
        rfl
      · rw [Option.bind_some, hspec]
        exact hlasts.map some
    | none =>
      cases hspec : c.document.materials.find? key with
      | none =>
        refine ⟨_, _, materialOf_missing hmaterial hkept hspec, ?_, fun look h => ?_⟩
        · have hkey : c.document.materials.contains key = false := by
            rw [Table.contains, hspec]
            rfl
          simp only [Option.filter_some, hkey, Bool.not_false, if_true, Bool.false_eq_true,
            if_false, Option.map_some, Option.toList_none, Option.toList_some]
          exact .noting hp _
        · rw [Option.bind_some, hspec]
          exact h
      | some spec =>
        obtain ⟨m, faults, r, a, hbuild, heq⟩ := materialOf_build inherited hmaterial hkept hspec
        obtain ⟨m', t, hbuild', hshowing, hlasts⟩ := MaterialSpec.showing_build hp.textures spec
        obtain ⟨rfl, rfl, rfl⟩ : m = m' ∧ faults = spec.missingNames V.texture ∧ (r, a) = t := by
          rw [Progress.textures, hbuild] at hbuild'
          cases hbuild'
          exact ⟨rfl, rfl, rfl⟩
        have hmade := Reaches.textures hp hshowing
        have hshared := Reaches.arena hmade.shows (a := { a with next := a.next + 1 }) rfl
        have hlasts' : Lasts { a with next := a.next + 1 } m.look (spec.look V.texture) :=
          hlasts.mono (.of_sources rfl)
        refine ⟨_, _, heq, ?_, fun look _ => ?_⟩
        · have hkey : c.document.materials.contains key = true := by
            rw [Table.contains, hspec]
            rfl
          simp only [Option.filter_some, hkey, Bool.not_true, if_true, Bool.false_eq_true, if_false,
            Option.map_none, Option.toList_none, Option.toList_some]
          exact (hmade.trans hshared).trans
            (.material (m := ⟨a.next, m⟩) hshared.shows hkept hspec hlasts')
        · rw [Option.bind_some, hspec]
          exact hlasts'.map some

/-- **Entering an element**, whatever has been made before: what holds there, and its empty node. -/
theorem Entered.shows {parent : Shared (Affine K)} {path : List String} {id : String}
    {own : SceneNode K} (h : Entered c parent inherited path id p e scope own q)
    (hp : p.Shows c V) :
    Reaches c V p q (c.document.entryNotes V e) (c.document.drawn e) ∧
      ∀ s, ScopeLasts p.arena parent inherited s →
        ScopeLasts q.arena own.world scope (s.enter c.document V e) ∧
        ∀ b, own.look b = .entered id e (s.enter c.document V e) := by
  obtain ⟨p₂, hscope, hworld⟩ := h.own_placed
  obtain ⟨p₂', a, hscope', -, rfl⟩ := h.scope_made
  obtain rfl : p₂ = p₂' := congrArg Prod.snd (hscope.symm.trans hscope')
  obtain ⟨p₁, hmaterial, htexture, hcast, hreceive⟩ := scopeOf_parts hscope
  obtain ⟨m, p₁', hmaterial', hdrawn, hmaterialLasts⟩ := materialOf_shows hp e inherited
  rw [hmaterial] at hmaterial'
  cases hmaterial'
  obtain ⟨t, p₂', htexture', hnamed, htextureLasts⟩ :=
    textureOf_shows hdrawn.shows e inherited
  rw [htexture] at htexture'
  cases htexture'
  have hsources : a.sources = p₂.arena.sources := by
    have hplaced := SceneNode.placeIn_sources parent own.placement p₂.arena
    rwa [hworld] at hplaced
  have hnoted := Reaches.noting hnamed.shows (TransformStep.faults e.transforms)
  have hplaced := Reaches.arena hnoted.shows (a := a) hsources
  obtain ⟨world, hown⟩ := h.own_eq
  refine ⟨?_, fun s hs => ?_⟩
  · have hall := ((hdrawn.trans hnamed).trans hnoted).trans hplaced
    simpa only [Document.entryNotes, List.append_nil] using hall
  · have hvalue : own.world.value = (s.enter c.document V e).world := by
      have hplacement : own.placement = TransformStep.placement? e.transforms := by rw [hown]; rfl
      have hplacedValue := SceneNode.placeIn_value parent own.placement p₂.arena
      rwa [hworld, hplacement, hs.world] at hplacedValue
    have hscopeLasts : ScopeLasts a own.world scope (s.enter c.document V e) := {
      world := hvalue
      material := (hmaterialLasts _ hs.material).mono (hnamed.stays.trans hplaced.stays)
      texture := (htextureLasts _ (hs.texture.mono hdrawn.stays)).mono hplaced.stays
      castShadow := by rw [hcast, hs.castShadow]; rfl
      receiveShadow := by rw [hreceive, hs.receiveShadow]; rfl }
    refine ⟨hscopeLasts, fun b => ?_⟩
    rw [NodeLook.entered, ← hvalue, ← hscopeLasts.castShadow, ← hscopeLasts.receiveShadow, hown]
    rfl

/-- What a level is handed looks as what the element of the level holds. -/
theorem levelScope_shows (hp : p.Shows c V) (scope : Inherited K) :
    ∃ own q, levelScope scope p = (own, q) ∧ Reaches c V p q [] [] ∧
      ∀ world s, ScopeLasts p.arena world scope s → ScopeLasts q.arena world own s := by
  obtain ⟨material, texture, cast, receive⟩ := scope
  cases material with
  | none => exact ⟨_, _, rfl, .refl hp, fun world s hs => hs⟩
  | some m =>
    refine ⟨_, _, rfl, .arena hp rfl, fun world s hs => ?_⟩
    have hs' := hs.mono (b := { p.arena with next := p.arena.next + 1 + 1 }) (.of_sources rfl)
    exact ⟨hs'.world, hs'.material, hs'.texture, hs'.castShadow, hs'.receiveShadow⟩

/-! ## 3. Surfaces -/

/-- The look of the material of a surface. -/
def surfaceLook (c : Setting K) (s : ScopeLook K) : MaterialLook K :=
  match s.material, s.texture with
  | none, _ => c.settings.fallbackLook
  | some m, none => m
  | some m, some t => { m with map := some (t.mapped m.plain.mapRepeat) }

theorem fallbackMaterial_shows (hp : p.Shows c V) :
    ∃ m q, fallbackMaterial c p = (m, q) ∧ Reaches c V p q [] [] ∧
      Lasts q.arena m.value.look c.settings.fallbackLook := by
  cases hfallback : p.fallback with
  | some m =>
    refine ⟨m, p, ?_, .refl hp, hp.fallback hfallback⟩
    simp only [fallbackMaterial, bind, StateT.bind, get, getThe, MonadStateOf.get, StateT.get, pure,
      hfallback]
    rfl
  | none =>
    have hmade := Reaches.arena hp (a := { p.arena with next := p.arena.next + 1 + 1 }) rfl
    have hlook : Lasts { p.arena with next := p.arena.next + 1 + 1 }
        (Material.fallback c.settings.fallbackColor p.arena).1.look c.settings.fallbackLook :=
      fun _ _ => rfl
    have hkept := Reaches.fallbackMaterial hmade.shows
      (m := ⟨p.arena.next + 1, (Material.fallback c.settings.fallbackColor p.arena).1⟩) hlook
    refine ⟨⟨p.arena.next + 1, (Material.fallback c.settings.fallbackColor p.arena).1⟩, _, ?_,
      hmade.trans hkept, hlook⟩
    simp only [fallbackMaterial, bind, StateT.bind, get, getThe, MonadStateOf.get, StateT.get, pure,
      hfallback]
    rfl

theorem surfaceMaterial_shows (hp : p.Shows c V) (scope : Inherited K) :
    ∃ m q, surfaceMaterial c scope p = (m, q) ∧ Reaches c V p q [] [] ∧
      ∀ world s, ScopeLasts p.arena world scope s →
        Lasts q.arena m.value.look (surfaceLook c s) := by
  obtain ⟨material, texture, cast, receive⟩ := scope
  cases material with
  | none =>
    obtain ⟨m, q, heq, hreaches, hlasts⟩ := fallbackMaterial_shows hp
    refine ⟨m, q, heq, hreaches, fun world s hs => ?_⟩
    rw [surfaceLook, ← Lasts.eq hs.material]
    exact hlasts
  | some m =>
    cases texture with
    | none =>
      refine ⟨m, p, rfl, .refl hp, fun world s hs => ?_⟩
      obtain ⟨look, hlook, hlasts⟩ := Lasts.of_some hs.material
      rw [surfaceLook, hlook, ← Lasts.eq hs.texture]
      exact hlasts
    | some t =>
      obtain ⟨map, b, hmapped⟩ : ∃ map b, ({ m.value with serial := p.arena.next }).mapped t
          { p.arena with next := p.arena.next + 1 } = (map, b) := ⟨_, _, rfl⟩
      have hmapping := Material.mapped_isMapping { m.value with serial := p.arena.next } t
        { p.arena with next := p.arena.next + 1 }
      have hsources := Material.mapped_sources { m.value with serial := p.arena.next } t
        { p.arena with next := p.arena.next + 1 }
      rw [hmapped] at hmapping hsources
      have hreaches := Reaches.arena hp (a := { b with next := b.next + 1 }) hsources
      refine ⟨_, _, surfaceMaterial_textured hmapped, hreaches, fun world s hs => ?_⟩
      obtain ⟨material, hmaterial, hmaterialLasts⟩ := Lasts.of_some hs.material
      obtain ⟨texture, htexture, htextureLasts⟩ := Lasts.of_some hs.texture
      rw [surfaceLook, hmaterial, htexture]
      intro a ha
      have hstays := hreaches.stays.trans ha
      have hm : m.value.look a = material := hmaterialLasts a hstays
      have ht : t.value.look a = texture := htextureLasts a hstays
      rw [Material.look_setMap, Option.map_some, hmapping.look_eq, ht, ← hm]
      rfl

/-! ## 4. Shapes and lights -/

/-- The look of the material of a face of a sky box. -/
def faceLook (V : Views K) (spec : SkyboxSpec K) (face : Option String) : MaterialLook K :=
  { (Material.skyboxFace none spec.emissive spec.intensity .empty).1.look .empty with
    map := face.bind V.texture }

theorem faceMaterials_shows (hp : p.Shows c V) (spec : SkyboxSpec K)
    (faces : List (Option String)) :
    ∃ ms q, faceMaterials spec faces p = (ms, q) ∧
      Reaches c V p q (faces.flatMap (missingName V.texture)) [] ∧
      Lasts q.arena (fun b => ms.map (·.value.look b)) (faces.map (faceLook V spec)) := by
  induction faces generalizing p with
  | nil => exact ⟨[], p, rfl, .refl hp, fun _ _ => rfl⟩
  | cons face rest ih =>
    have hmade : ∀ {map : Option (Shared (Texture K))} {p' : Progress K}, p'.Shows c V →
        TextureLasts p'.arena map (face.bind V.texture) →
        ∃ ms q, (do
            let m ← onArena (do
              Arena.share (← Material.skyboxFace map spec.emissive spec.intensity))
            return m :: (← faceMaterials spec rest) : Walk K (List (Shared (Material K)))) p' =
            (ms, q) ∧
          Reaches c V p' q (rest.flatMap (missingName V.texture)) [] ∧
          Lasts q.arena (fun b => ms.map (·.value.look b))
            (faceLook V spec face :: rest.map (faceLook V spec)) := by
      intro map p' hp' hmap
      have hshared := Reaches.arena hp' (a := { p'.arena with next := p'.arena.next + 1 + 1 }) rfl
      obtain ⟨ms, q, hrest, hreaches, hlasts⟩ := ih hshared.shows
      have hface : Lasts q.arena
          (Material.skyboxFace map spec.emissive spec.intensity p'.arena).1.look
          (faceLook V spec face) := by
        intro b hb
        rw [faceLook, ← hmap.look_eq (hshared.stays.trans (hreaches.stays.trans hb))]
        rfl
      refine ⟨⟨p'.arena.next + 1,
        (Material.skyboxFace map spec.emissive spec.intensity p'.arena).1⟩ :: ms, q, ?_,
        hshared.trans hreaches, fun b hb => ?_⟩
      · show (_ :: (faceMaterials spec rest
          { p' with arena := { p'.arena with next := p'.arena.next + 1 + 1 } }).1, _) = _
        rw [hrest]
        rfl
      · exact congr (congrArg List.cons (hface b hb)) (hlasts b hb)
    unfold faceMaterials
    cases face with
    | none => exact hmade hp fun _ _ => rfl
    | some id =>
      obtain ⟨t, p', hlookup, hnamed, hlasts⟩ := lookupTexture_shows hp id
      obtain ⟨ms, q, heq, hreaches, hlasts⟩ := hmade hnamed.shows hlasts
      refine ⟨ms, q, ?_, hnamed.trans hreaches, hlasts⟩
      rw [← heq]
      simp only [bind, StateT.bind, hlookup]

/-- The names of textures in a shape. -/
def faceNames : ShapeSpec K → List (Option String)
  | .skybox spec => spec.faces.toList
  | _ => []

/-- The looks of the materials of the groups of a shape. -/
def groupLooks (V : Views K) : ShapeSpec K → List (MaterialLook K)
  | .skybox spec => spec.faces.toList.map (faceLook V spec)
  | _ => []

theorem groupMaterials_shows (hp : p.Shows c V) (shape : ShapeSpec K) :
    ∃ ms q, groupMaterials shape p = (ms, q) ∧
      Reaches c V p q ((faceNames shape).flatMap (missingName V.texture)) [] ∧
      Lasts q.arena (fun b => ms.map (·.value.look b)) (groupLooks V shape) := by
  cases shape with
  | skybox spec => exact faceMaterials_shows hp spec spec.faces.toList
  | _ => exact ⟨[], p, rfl, .refl hp, fun _ _ => rfl⟩

def meshLook (c : Setting K) (V : Views K) (s : ScopeLook K) (shape : ShapeSpec K)
    (name : String) : Option (MeshLook K) :=
  match shape.build c.settings with
  | .error _ => none
  | .ok geometry => some {
      name
      geometry
      material := surfaceLook c s
      groupMaterials := groupLooks V shape
      visible := true
      castShadows := s.castShadow
      receiveShadows := s.receiveShadow }

def meshNotes (c : Setting K) (V : Views K) (shape : ShapeSpec K) : List (Diagnostic K) :=
  match shape.build c.settings with
  | .error d => [d]
  | .ok _ => (faceNames shape).flatMap (missingName V.texture)

/-- The pictures of the instance of a model, if the model can be had. -/
def modelPictures (V : Views K) (s : ScopeLook K) (path : String) : List (Picture K) :=
  match V.model path with
  | .error _ => []
  | .ok P => [(P.rebase s.world).addShadows s.castShadow s.receiveShadow]

def modelNotes (V : Views K) (path : String) : List (Diagnostic K) :=
  match V.model path with
  | .error d => [d]
  | .ok _ => []

/-- The picture of a node with a shape. -/
def shapePicture (c : Setting K) (V : Views K) (s : ScopeLook K) (own : NodeLook K)
    (shape : ShapeSpec K) : Picture K :=
  match shape with
  | .model path => .gather own (modelPictures V s path)
  | shape => .gather { own with mesh := meshLook c V s shape own.name } []

def shapeNotes (c : Setting K) (V : Views K) (shape : ShapeSpec K) : List (Diagnostic K) :=
  match shape with
  | .model path => modelNotes V path
  | shape => meshNotes c V shape

/-- A node of some look with nothing in it. -/
structure IsEmpty (n : SceneNode K) (own : NodeLook K) : Prop where
  look : ∀ b, n.look b = own
  mesh : n.mesh = none
  light : n.light = none
  lod : n.lod = none
  children : n.children = []

variable {n : SceneNode K} {own : NodeLook K}

omit [Scalar K] in
theorem IsEmpty.branches (h : IsEmpty n own) : n.branches = [] := by
  simp [SceneNode.branches, SceneNode.levels, h.lod, h.children]

theorem attachMesh_shows (hp : p.Shows c V) (scope : Inherited K) (shape : ShapeSpec K)
    (n : SceneNode K) :
    ∃ m q, attachMesh c scope shape n p = (m, q) ∧ Reaches c V p q (meshNotes c V shape) [] ∧
      ∀ world s own, ScopeLasts p.arena world scope s → IsEmpty n own →
        m.gatherShadows.Shows q.arena
          (.gather { own with mesh := meshLook c V s shape own.name } []) := by
  obtain ⟨m, q, heq⟩ : ∃ m q, attachMesh c scope shape n p = (m, q) := ⟨_, _, rfl⟩
  refine ⟨m, q, heq, ?_⟩
  unfold meshNotes meshLook
  cases hbuild : shape.build c.settings with
  | error d =>
    rw [attachMesh, hbuild] at heq
    cases heq
    refine ⟨.noting hp [d], fun world s own _ hn b _ => ?_⟩
    have hmesh : own.mesh = none := by rw [← hn.look b, SceneNode.look, hn.mesh]; rfl
    rw [SceneNode.gatherShadows_picture, hn.branches, hn.look b, ← hmesh]
    rfl
  | ok g =>
    obtain ⟨geometry, material, p', groups, rfl, hsurface, hgroups, rfl⟩ := attachMesh_ok hbuild heq
    have hshared := Reaches.arena hp (a := { p.arena with next := p.arena.next + 1 }) rfl
    obtain ⟨material', p'', hsurface', hreaches, hmaterial⟩ :=
      surfaceMaterial_shows hshared.shows scope
    rw [hsurface] at hsurface'
    cases hsurface'
    obtain ⟨groups', q', hgroups', hfaces, hlooks⟩ := groupMaterials_shows hreaches.shows shape
    rw [hgroups] at hgroups'
    cases hgroups'
    refine ⟨(hshared.trans hreaches).trans hfaces, fun world s own hs hn b hb => ?_⟩
    have hs' := hs.mono hshared.stays
    have hmaterialLook : material.value.look b = surfaceLook c s :=
      hmaterial world s hs' b (hfaces.stays.trans hb)
    have hgroupLooks : groups.map (·.value.look b) = groupLooks V shape := hlooks b hb
    have hbranches : (SceneNode.mk n.name n.placement n.world
        (some { Mesh.ofParts ⟨p.arena.next, g⟩ material with
          name := n.name
          groupMaterials := groups
          castShadows := scope.castShadow
          receiveShadows := scope.receiveShadow }) n.light n.lod n.children n.castShadow
        n.receiveShadow).branches = [] := hn.branches
    rw [SceneNode.gatherShadows_picture, hbranches, ← hn.look b, ← hs.castShadow,
      ← hs.receiveShadow, ← hmaterialLook, ← hgroupLooks]
    rfl

theorem attachModel_shows (hp : p.Shows c V) (scope : Inherited K) (path : String)
    (n : SceneNode K) :
    ∃ m q, attachModel c scope path n p = (m, q) ∧ Reaches c V p q (modelNotes V path) [] ∧
      ∀ s own, ScopeLasts p.arena n.world scope s → IsEmpty n own →
        m.gatherShadows.Shows q.arena (.gather own (modelPictures V s path)) := by
  obtain ⟨m, q, heq⟩ : ∃ m q, attachModel c scope path n p = (m, q) := ⟨_, _, rfl⟩
  refine ⟨m, q, heq, ?_⟩
  unfold modelNotes modelPictures
  rcases attachModel_cases heq with
    ⟨d, l, a, hserved, rfl, rfl⟩ | ⟨t, l, a, model, a', hserved, hrebase, rfl, rfl⟩
  · obtain ⟨hl, hstays, hfound⟩ := hserved.shows hp.models
    have hview : V.model path = .error d := hfound
    have hlibrary := Reaches.library hp hl hstays
    rw [hview]
    refine ⟨hlibrary.trans (.noting hlibrary.shows [d]), fun s own _ hn b _ => ?_⟩
    rw [SceneNode.gatherShadows_picture, hn.branches, hn.look b]
    rfl
  · obtain ⟨hl, hstays, P, hview, hlasts⟩ := hserved.shows hp.models
    have hsources := SceneNode.rebase_sources t.value.root n.world a
    rw [hrebase] at hsources
    have hlibrary := Reaches.library hp hl hstays
    have hrebased := Reaches.arena hlibrary.shows (a := a') hsources
    rw [hview]
    refine ⟨hlibrary.trans hrebased, fun s own hs hn b hb => ?_⟩
    have hpicture : model.picture b = P.rebase s.world := by
      have hplaced := SceneNode.rebase_picture t.value.root n.world a b
      rwa [hrebase, hlasts b (hrebased.stays.trans hb), hs.world] at hplaced
    let x := model.addShadows scope.castShadow scope.receiveShadow
    have hbranches : ({ n with children := n.children ++ [x] } : SceneNode K).branches = [x] := by
      simp [SceneNode.branches, SceneNode.levels, hn.lod, hn.children]
    have hx : x.picture b = (P.rebase s.world).addShadows s.castShadow s.receiveShadow := by
      rw [SceneNode.addShadows_picture, hpicture, hs.castShadow, hs.receiveShadow]
    rw [SceneNode.gatherShadows_picture, hbranches, List.map_singleton, hx, ← hn.look b]
    rfl

/-- **A shape is put into a node** in the same way whatever has been made before. -/
theorem attachShape_shows (hp : p.Shows c V) (scope : Inherited K) (shape : ShapeSpec K)
    (n : SceneNode K) :
    ∃ m q, attachShape c scope shape n p = (m, q) ∧ Reaches c V p q (shapeNotes c V shape) [] ∧
      ∀ s own, ScopeLasts p.arena n.world scope s → IsEmpty n own →
        m.gatherShadows.Shows q.arena (shapePicture c V s own shape) := by
  by_cases hmodel : ∃ path, shape = .model path
  · obtain ⟨path, rfl⟩ := hmodel
    exact attachModel_shows hp scope path n
  · have hne : ∀ path, shape ≠ .model path := fun path h => hmodel ⟨path, h⟩
    have hnotes : shapeNotes c V shape = meshNotes c V shape := by
      cases shape with
      | model path => exact absurd rfl (hne path)
      | _ => rfl
    have hpicture : ∀ s own, shapePicture c V s own shape =
        .gather { own with mesh := meshLook c V s shape own.name } [] := by
      intro s own
      cases shape with
      | model path => exact absurd rfl (hne path)
      | _ => rfl
    obtain ⟨m, q, heq, hreaches, hshows⟩ := attachMesh_shows hp scope shape n
    rw [attachShape_of_ne_model hne, hnotes]
    refine ⟨m, q, heq, hreaches, fun s own hs hn => ?_⟩
    rw [hpicture]
    exact hshows n.world s own hs hn

def lightNotes (spec : LightSpec K) : List (Diagnostic K) :=
  match Light.ofSpec spec with
  | .error d => [d]
  | .ok _ => []

/-- The picture of a node with a light. -/
def lightPicture (own : NodeLook K) (spec : LightSpec K) : Picture K :=
  .gather { own with light := (Light.ofSpec spec).toOption } []

theorem attachLight_shows (hp : p.Shows c V) (spec : LightSpec K) (n : SceneNode K) :
    ∃ m q, attachLight spec n p = (m, q) ∧ Reaches c V p q (lightNotes spec) [] ∧
      ∀ own, IsEmpty n own → m.gatherShadows.Shows q.arena (lightPicture own spec) := by
  unfold lightNotes lightPicture attachLight
  cases hlight : Light.ofSpec spec with
  | error d =>
    refine ⟨n, _, rfl, .noting hp [d], fun own hn b _ => ?_⟩
    have hnone : own.light = none := by rw [← hn.look b, SceneNode.look, hn.light]
    rw [SceneNode.gatherShadows_picture, hn.branches, hn.look b, Except.toOption, ← hnone]
    rfl
  | ok light =>
    refine ⟨{ n with light := some light }, _, rfl, .refl hp, fun own hn b _ => ?_⟩
    have hbranches : ({ n with light := some light } : SceneNode K).branches = [] := hn.branches
    rw [SceneNode.gatherShadows_picture, hbranches, ← hn.look b]
    rfl

end Walk

end SceneAssembly
