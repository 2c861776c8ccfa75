/-
  SceneAssembly/Proofs/Textures/Slots.lean
  ========================================
  **Textures that share pixel sources, over any run of edits, fills and copies.**

  Slots hold textures.  All of them come from one texture by copying, so they
  share its pixel source, but each has a sampler, a transform, a list of mip
  levels and a version of its own; mip levels given before a copy are shared
  with it, later ones are not.  An edit changes the texture in one slot, and a
  fill changes a pixel source, which is seen in every slot that holds it
  (`Framed`).

  Versions count.  A log of steps tells how often a source was filled (`fills`)
  and how often a texture was changed in a way that has to be noticed
  (`changes`), and these are the versions (`Accounted`).
-/
import SceneAssembly.Proofs.Looks
import SceneAssembly.Proofs.Runs

namespace SceneAssembly

variable {K : Type}

/-! ## 1. What a texture holds -/

namespace Texture

/-- The pixel sources of a texture: its own, and those of its mip levels. -/
def sources (t : Texture K) : List SourceId := t.source :: t.mipmaps

/-- The pixel source of a mip level, or of the texture itself. -/
def level? (t : Texture K) : Option Nat → Option SourceId
  | none => some t.source
  | some level => t.mipmaps[level]?

variable {t : Texture K} {level : Option Nat} {j : SourceId}

theorem mem_sources_of_level? (h : t.level? level = some j) : j ∈ t.sources := by
  cases level with
  | none =>
    cases h
    exact List.mem_cons_self
  | some level => exact List.mem_cons_of_mem _ (List.mem_of_getElem? h)

theorem acceptsMipmap_iff : t.acceptsMipmap = true ↔ t.mipmaps.length < maxMipmaps :=
  decide_eq_true_iff

/-- The look of a texture is a matter of the sources that it holds. -/
theorem look_eq_iff {a b : Arena} :
    t.look a = t.look b ↔ ∀ j ∈ t.sources, a.sources[j]? = b.sources[j]? := by
  simp [look, sources, List.map_inj_left]

end Texture

namespace PixelSource

/-- A source that has pixels says so, and counts them. -/
structure Sound (s : PixelSource) : Prop where
  ready_iff : s.ready = true ↔ s.image.isSome = true
  version_iff : s.ready = true ↔ 1 ≤ s.version

theorem sound_pending (path : String) : (pending path).Sound :=
  ⟨by simp [pending], by simp [pending]⟩

theorem sound_fill (s : PixelSource) (image : ImageData) : (s.fill image).Sound :=
  ⟨by simp [fill], by simp [fill]⟩

theorem fill_ne (s : PixelSource) (image : ImageData) : s.fill image ≠ s := fun h =>
  absurd (congrArg version h) (Nat.succ_ne_self s.version)

end PixelSource

theorem Arena.getElem?_fillSource (a : Arena) (j : SourceId) (image : ImageData) (i : SourceId) :
    (fillSource j image a).2.sources[i]? =
      if j = i then a.sources[i]?.map (·.fill image) else a.sources[i]? :=
  Array.getElem?_modify

/-! ## 2. Slots and what is done with them -/

/-- Textures in numbered slots, and the pixel sources that they refer to. -/
structure Slots (K : Type) where
  arena : Arena
  textures : List (Texture K)

namespace Slots

/-- A change of one texture; a mip level is answered by whether there was room for it. -/
inductive Edit (K : Type) where
  | wrap (s u : Wrap)
  | mipmap (path : String) (pushed : Bool)
  | touch
  | video (on : Bool)
  | transform (transform : UvTransform K)

/-- Is the edit one that a texture's version counts? -/
def Edit.counts : Edit K → Bool
  | wrap _ _ => true
  | mipmap _ pushed => pushed
  | touch => true
  | video _ => false
  | transform _ => false

/-- A step: an edit of the texture in a slot, new pixels for a source that it holds, or a copy of
it in a new slot. -/
inductive Event (K : Type) where
  | edited (slot : Nat) (edit : Edit K)
  | filled (slot : Nat) (level : Option Nat) (source : SourceId) (image : ImageData)
  | copied (slot : Nat)

namespace Event

def edited? : Event K → Option Nat
  | edited slot _ => some slot
  | _ => none

def filled? : Event K → Option SourceId
  | filled _ _ source _ => some source
  | _ => none

/-- The slot whose version counts the step. -/
def counted? : Event K → Option Nat
  | edited slot edit => if edit.counts then some slot else none
  | _ => none

end Event

/-- How often a source was filled. -/
def fills (log : List (Event K)) (j : SourceId) : Nat := log.countP fun e => e.filled? == some j

/-- How often the texture in a slot was changed in a way that its version counts. -/
def changes (log : List (Event K)) (i : Nat) : Nat := log.countP fun e => e.counted? == some i

/-- What an edit makes of a texture.  A mip level comes with a new source that waits for its
pixels. -/
inductive Edits : Edit K → Texture K × Arena → Texture K × Arena → Prop
  | wrap {s u : Wrap} {t : Texture K} {a : Arena} : Edits (.wrap s u) (t, a) (t.setWrap s u, a)
  | mipmap {path : String} {pushed : Bool} {t : Texture K} {a b : Arena} {id : SourceId}
      (hpushed : t.acceptsMipmap = pushed) (h : Arena.addSource (.pending path) a = (id, b)) :
    Edits (.mipmap path pushed) (t, a) (t.pushMipmap id, b)
  | touch {t : Texture K} {a : Arena} : Edits .touch (t, a) (t.touch, a)
  | video {on : Bool} {t : Texture K} {a : Arena} :
    Edits (.video on) (t, a) ({ t with video := on }, a)
  | transform {transform : UvTransform K} {t : Texture K} {a : Arena} :
    Edits (.transform transform) (t, a) ({ t with transform := transform }, a)

inductive Does : Event K → Slots K → Slots K → Prop
  | edited {i : Nat} {edit : Edit K} {s : Slots K} {t t' : Texture K} {b : Arena}
      (ht : s.textures[i]? = some t) (h : Edits edit (t, s.arena) (t', b)) :
    Does (.edited i edit) s ⟨b, s.textures.set i t'⟩
  | filled {i : Nat} {level : Option Nat} {j : SourceId} {image : ImageData} {s : Slots K}
      {t : Texture K} (ht : s.textures[i]? = some t) (hj : t.level? level = some j) :
    Does (.filled i level j image) s ⟨(Arena.fillSource j image s.arena).2, s.textures⟩
  | copied {i : Nat} {s : Slots K} {t t' : Texture K} {b : Arena}
      (ht : s.textures[i]? = some t) (h : t.copy s.arena = (t', b)) :
    Does (.copied i) s ⟨b, s.textures ++ [t']⟩

/-- The one slot that a run starts with, in any arena: a texture of a colour, whose source has been
filled once, or of a source that waits for its pixels. -/
inductive Starts [Scalar K] (a : Arena) : Nat → Slots K → Prop
  | colored {name : String} {color : List UInt8} {t : Texture K} {b : Arena}
      (h : Texture.ofColor name color a = (t, b)) : Starts a 1 ⟨b, [t]⟩
  | pending {name path : String} {t : Texture K} {b c : Arena} {id : SourceId}
      (hid : Arena.addSource (.pending path) a = (id, b))
      (h : Texture.ofSource name id b = (t, c)) : Starts a 0 ⟨c, [t]⟩

/-! ## 3. What an edit does -/

variable {a b : Arena} {t t' : Texture K} {edit : Edit K}

/-- An edit keeps the source of its texture and counts itself in the version; the mip levels and
the sources stay, or gain one at the end together. -/
structure EditSpec (edit : Edit K) (t : Texture K) (a : Arena) (t' : Texture K) (b : Arena) :
    Prop where
  source : t'.source = t.source
  version : t'.version = t.version + if edit.counts then 1 else 0
  mipmaps : t'.mipmaps = t.mipmaps ∨
    t.mipmaps.length < Texture.maxMipmaps ∧ t'.mipmaps = t.mipmaps ++ [a.sources.size] ∧
      a.sources.size < b.sources.size
  sources : b.sources = a.sources ∨ ∃ path, b.sources = a.sources.push (.pending path)

theorem Edits.spec (h : Edits edit (t, a) (t', b)) : EditSpec edit t a t' b := by
  cases h with
  | wrap => exact ⟨rfl, rfl, .inl rfl, .inl rfl⟩
  | mipmap hpushed h =>
    cases hpushed
    cases h
    unfold Texture.pushMipmap
    split
    next hroom =>
      refine ⟨rfl, ?_, .inr ⟨Texture.acceptsMipmap_iff.mp hroom, rfl, ?_⟩, .inr ⟨_, rfl⟩⟩
      · simp [Edit.counts, hroom, Texture.touch]
      · simp
    next hfull =>
      refine ⟨rfl, ?_, .inl rfl, .inr ⟨_, rfl⟩⟩
      simp [Edit.counts, hfull]
  | touch => exact ⟨rfl, rfl, .inl rfl, .inl rfl⟩
  | video => exact ⟨rfl, rfl, .inl rfl, .inl rfl⟩
  | transform => exact ⟨rfl, rfl, .inl rfl, .inl rfl⟩

namespace EditSpec

theorem stays (h : EditSpec edit t a t' b) : a.Stays b := by
  rcases h.sources with hsame | ⟨path, hpush⟩
  · exact .of_sources hsame
  · exact (Arena.Stays.adding a (.pending path)).trans (.of_sources hpush)

theorem size_le (h : EditSpec edit t a t' b) : a.sources.size ≤ b.sources.size := by
  rcases h.sources with hsame | ⟨path, hpush⟩
  · exact Nat.le_of_eq (congrArg Array.size hsame.symm)
  · rw [hpush, Array.size_push]
    exact Nat.le_succ _

/-- Every source is an old one, or the new one, which waits for its pixels. -/
theorem getElem? (h : EditSpec edit t a t' b) {j : SourceId} {source : PixelSource}
    (hj : b.sources[j]? = some source) :
    a.sources[j]? = some source ∨ a.sources.size ≤ j ∧ ∃ path, source = .pending path := by
  rcases h.sources with hsame | ⟨path, hpush⟩
  · exact .inl (by rwa [← hsame])
  · rw [hpush, Array.getElem?_push] at hj
    split at hj
    next heq =>
      cases hj
      exact .inr ⟨Nat.le_of_eq heq.symm, path, rfl⟩
    next => exact .inl hj

/-- What an edited texture holds, it held before, or it is the new source. -/
theorem mem_sources (h : EditSpec edit t a t' b) {j : SourceId} (hj : j ∈ t'.sources) :
    j ∈ t.sources ∨ j = a.sources.size ∧ j < b.sources.size := by
  rw [Texture.sources, h.source, List.mem_cons] at hj
  rw [Texture.sources, List.mem_cons]
  rcases hj with hj | hj
  · exact .inl (.inl hj)
  · rcases h.mipmaps with hsame | ⟨-, hpush, hlt⟩
    · exact .inl (.inr (hsame ▸ hj))
    · rw [hpush, List.mem_append, List.mem_singleton] at hj
      rcases hj with hj | rfl
      · exact .inl (.inr hj)
      · exact .inr ⟨rfl, hlt⟩

theorem room (h : EditSpec edit t a t' b) (ht : t.mipmaps.length ≤ Texture.maxMipmaps) :
    t'.mipmaps.length ≤ Texture.maxMipmaps := by
  rcases h.mipmaps with hsame | ⟨hroom, hpush, -⟩
  · rwa [hsame]
  · rw [hpush, List.length_append, List.length_singleton]
    exact hroom

end EditSpec

/-! ## 4. What a log tells -/

/-- What a log tells of the slots that it leads to.  The sources of the run are those from `first`
on, of which the first had been filled `given` times before. -/
structure Accounted (first : SourceId) (given : Nat) (log : List (Event K)) (s : Slots K) :
    Prop where
  held : ∀ t ∈ s.textures, ∀ j ∈ t.sources, first ≤ j ∧ j < s.arena.sources.size
  base : ∀ t ∈ s.textures, t.source = first
  sound : ∀ j source, first ≤ j → s.arena.sources[j]? = some source →
    source.Sound ∧ source.version = (if j = first then given else 0) + fills log j
  room : ∀ t ∈ s.textures, t.mipmaps.length ≤ Texture.maxMipmaps
  version : ∀ i t, s.textures[i]? = some t → t.version = changes log i
  /-- Slots that are not there yet have no changes, -/
  changes_eq_zero : ∀ i, s.textures.length ≤ i → changes log i = 0
  /-- and sources that are not there yet no fills. -/
  fills_eq_zero : ∀ j, s.arena.sources.size ≤ j → fills log j = 0

section Counting

variable {e : Event K} {log : List (Event K)}

theorem fills_cons (j : SourceId) :
    fills (e :: log) j = fills log j + if e.filled? = some j then 1 else 0 := by
  simp [fills, List.countP_cons]

theorem changes_cons (i : Nat) :
    changes (e :: log) i = changes log i + if e.counted? = some i then 1 else 0 := by
  simp [changes, List.countP_cons]

end Counting

variable {first : SourceId} {given : Nat} {log : List (Event K)} {e : Event K} {s u : Slots K}

namespace Accounted

theorem first_lt (h : Accounted first given log s) {i : Nat} (ht : s.textures[i]? = some t) :
    first < s.arena.sources.size := by
  have hmem := List.mem_of_getElem? ht
  have hsource := h.base t hmem
  exact hsource ▸ (h.held t hmem t.source List.mem_cons_self).2

theorem edited (h : Accounted first given log s) {i : Nat} (ht : s.textures[i]? = some t)
    (hedit : Edits edit (t, s.arena) (t', b)) :
    Accounted first given (.edited i edit :: log) ⟨b, s.textures.set i t'⟩ := by
  have hspec := hedit.spec
  have hmem := List.mem_of_getElem? ht
  obtain ⟨hi, -⟩ := List.getElem?_eq_some_iff.mp ht
  have hfills : ∀ j, fills (.edited i edit :: log) j = fills log j := fun j => fills_cons j
  refine ⟨fun v hv j hj => ?_, fun v hv => ?_, fun j source hj hsource => ?_, fun v hv => ?_,
    fun k v hv => ?_, fun k hk => ?_, fun j hj => ?_⟩
  · rcases List.mem_or_eq_of_mem_set hv with hv | rfl
    · obtain ⟨hle, hlt⟩ := h.held v hv j hj
      exact ⟨hle, Nat.lt_of_lt_of_le hlt hspec.size_le⟩
    · rcases hspec.mem_sources hj with hj | ⟨rfl, hlt⟩
      · obtain ⟨hle, hlt⟩ := h.held t hmem j hj
        exact ⟨hle, Nat.lt_of_lt_of_le hlt hspec.size_le⟩
      · exact ⟨Nat.le_of_lt (h.first_lt ht), hlt⟩
  · rcases List.mem_or_eq_of_mem_set hv with hv | rfl
    · exact h.base v hv
    · exact hspec.source.trans (h.base t hmem)
  · rw [hfills]
    rcases hspec.getElem? hsource with hold | ⟨hnew, path, rfl⟩
    · exact h.sound j source hj hold
    · have hne : j ≠ first := Nat.ne_of_gt (Nat.lt_of_lt_of_le (h.first_lt ht) hnew)
      rw [h.fills_eq_zero j hnew, if_neg hne]
      exact ⟨PixelSource.sound_pending path, rfl⟩
  · rcases List.mem_or_eq_of_mem_set hv with hv | rfl
    · exact h.room v hv
    · exact hspec.room (h.room t hmem)
  · rw [changes_cons, Event.counted?]
    by_cases hk : i = k
    · subst hk
      rw [List.getElem?_set_self hi] at hv
      cases hv
      rw [hspec.version, h.version i t ht]
      cases edit.counts <;> simp
    · rw [List.getElem?_set_ne hk] at hv
      rw [h.version k v hv]
      cases edit.counts <;> simp [hk]
  · rw [List.length_set] at hk
    have hne : i ≠ k := Nat.ne_of_lt (Nat.lt_of_lt_of_le hi hk)
    rw [changes_cons, Event.counted?, h.changes_eq_zero k hk]
    cases edit.counts <;> simp [hne]
  · rw [hfills]
    exact h.fills_eq_zero j (Nat.le_trans hspec.size_le hj)

theorem filled (h : Accounted first given log s) {i : Nat} {level : Option Nat} {j : SourceId}
    (ht : s.textures[i]? = some t) (hj : t.level? level = some j) (image : ImageData) :
    Accounted first given (.filled i level j image :: log)
      ⟨(Arena.fillSource j image s.arena).2, s.textures⟩ := by
  have hsize : (Arena.fillSource j image s.arena).2.sources.size = s.arena.sources.size :=
    Array.size_modify
  have hheld := h.held t (List.mem_of_getElem? ht) j (Texture.mem_sources_of_level? hj)
  have hchanges : ∀ k, changes (.filled i level j image :: log) k = changes log k :=
    fun k => changes_cons k
  refine ⟨fun v hv k hk => ?_, h.base, fun k source hk hsource => ?_, h.room, fun k v hv => ?_,
    fun k hk => ?_, fun k hk => ?_⟩
  · rw [hsize]
    exact h.held v hv k hk
  · rw [Arena.getElem?_fillSource] at hsource
    rw [fills_cons, Event.filled?]
    split at hsource
    next heq =>
      subst heq
      obtain ⟨old, hold, rfl⟩ := Option.map_eq_some_iff.mp hsource
      refine ⟨PixelSource.sound_fill old image, ?_⟩
      rw [if_pos rfl, ← Nat.add_assoc, ← (h.sound j old hk hold).2]
      rfl
    next hne =>
      obtain ⟨hsound, hversion⟩ := h.sound k source hk hsource
      refine ⟨hsound, ?_⟩
      rw [if_neg (fun heq => hne (Option.some.inj heq)), hversion]
      rfl
  · rw [hchanges]
    exact h.version k v hv
  · rw [hchanges]
    exact h.changes_eq_zero k hk
  · rw [hsize] at hk
    have hne : j ≠ k := Nat.ne_of_lt (Nat.lt_of_lt_of_le hheld.2 hk)
    rw [fills_cons, Event.filled?, if_neg (fun heq => hne (Option.some.inj heq))]
    exact h.fills_eq_zero k hk

theorem copied (h : Accounted first given log s) {i : Nat} (ht : s.textures[i]? = some t)
    (hcopy : t.copy s.arena = (t', b)) :
    Accounted first given (.copied i :: log) ⟨b, s.textures ++ [t']⟩ := by
  cases hcopy
  have hmem := List.mem_of_getElem? ht
  have hchanges : ∀ k, changes (.copied i :: log) k = changes log k := fun k => changes_cons k
  have hfills : ∀ j, fills (.copied i :: log) j = fills log j := fun j => fills_cons j
  refine ⟨fun v hv => ?_, fun v hv => ?_, fun j source hj hsource => ?_, fun v hv => ?_,
    fun k v hv => ?_, fun k hk => ?_, fun j hj => ?_⟩
  · rcases List.mem_append.mp hv with hv | hv
    · exact h.held v hv
    · cases List.mem_singleton.mp hv
      exact h.held t hmem
  · rcases List.mem_append.mp hv with hv | hv
    · exact h.base v hv
    · cases List.mem_singleton.mp hv
      exact h.base t hmem
  · rw [hfills]
    exact h.sound j source hj hsource
  · rcases List.mem_append.mp hv with hv | hv
    · exact h.room v hv
    · cases List.mem_singleton.mp hv
      exact h.room t hmem
  · rw [hchanges]
    rcases Nat.lt_or_ge k s.textures.length with hk | hk
    · rw [List.getElem?_append_left hk] at hv
      exact h.version k v hv
    · rw [List.getElem?_append_right hk] at hv
      rw [h.changes_eq_zero k hk]
      cases List.mem_singleton.mp (List.mem_of_getElem? hv)
      rfl
  · rw [List.length_append] at hk
    rw [hchanges]
    exact h.changes_eq_zero k (Nat.le_trans (Nat.le_add_right _ _) hk)
  · rw [hfills]
    exact h.fills_eq_zero j hj

theorem does (h : Accounted first given log s) (hdoes : Does e s u) :
    Accounted first given (e :: log) u := by
  cases hdoes with
  | edited ht hedit => exact h.edited ht hedit
  | filled ht hj => exact h.filled ht hj _
  | copied ht hcopy => exact h.copied ht hcopy

/-- Slots with one new texture, over one new source, in an arena. -/
theorem single {source : PixelSource} (ht : t.source = a.sources.size) (hmip : t.mipmaps = [])
    (hversion : t.version = 0) (hb : b.sources = a.sources.push source) (hsound : source.Sound)
    (hgiven : source.version = given) : Accounted a.sources.size given [] (⟨b, [t]⟩ : Slots K) where
  held v hv j hj := by
    cases List.mem_singleton.mp hv
    rw [Texture.sources, ht, hmip] at hj
    cases List.mem_singleton.mp hj
    rw [hb, Array.size_push]
    exact ⟨Nat.le_refl _, Nat.lt_succ_self _⟩
  base v hv := by
    cases List.mem_singleton.mp hv
    exact ht
  sound j x hj hx := by
    rw [hb, Array.getElem?_push] at hx
    split at hx
    next heq =>
      cases hx
      exact ⟨hsound, by simp [heq, hgiven, fills]⟩
    next hne =>
      obtain ⟨hlt, -⟩ := Array.getElem?_eq_some_iff.mp hx
      exact absurd hlt (Nat.not_lt.mpr hj)
  room v hv := by
    cases List.mem_singleton.mp hv
    rw [hmip]
    exact Nat.zero_le _
  version i v hv := by
    cases List.mem_singleton.mp (List.mem_of_getElem? hv)
    exact hversion
  changes_eq_zero _ _ := rfl
  fills_eq_zero _ _ := rfl

theorem starts [Scalar K] (h : Starts a given s) : Accounted a.sources.size given [] s := by
  cases h with
  | @colored name color t b h =>
    cases h
    exact single rfl rfl rfl rfl (PixelSource.sound_fill (.pending name) (.solid color)) rfl
  | @pending name path t b c id hid h =>
    cases hid
    cases h
    exact single rfl rfl rfl rfl (PixelSource.sound_pending path) rfl

end Accounted

/-! ## 5. What a step leaves alone -/

/-- What a step does to the slots, and what of it is seen where. -/
structure Framed (e : Event K) (s u : Slots K) : Prop where
  /-- Only an edit changes a texture, and only the one in its slot. -/
  others : ∀ k < s.textures.length, e.edited? ≠ some k → u.textures[k]? = s.textures[k]?
  /-- New pixels, and nothing else, are seen from outside an edited slot, where their source is
  held. -/
  seen : ∀ k t, s.textures[k]? = some t → e.edited? ≠ some k →
    (t.look u.arena ≠ t.look s.arena ↔ ∃ j ∈ t.sources, e.filled? = some j)
  /-- A mip level finds room below the eighth, and otherwise nothing is changed. -/
  pushed : ∀ i path pushed t, e = .edited i (.mipmap path pushed) → s.textures[i]? = some t →
    (pushed = true ↔ t.mipmaps.length < Texture.maxMipmaps) ∧
    (pushed = true → u.textures[i]? = some { t with
      mipmaps := t.mipmaps ++ [s.arena.sources.size]
      version := t.version + 1 }) ∧
    (pushed = false → u.textures = s.textures)
  /-- A copy is a new texture at version zero, in a new slot. -/
  copied : ∀ i, e = .copied i → ∃ t serial, s.textures[i]? = some t ∧
    u.textures = s.textures ++ [{ t with serial := serial, version := 0 }]

theorem Edits.pushed {path : String} {pushed : Bool}
    (h : Edits (.mipmap path pushed) (t, a) (t', b)) :
    (pushed = true ↔ t.mipmaps.length < Texture.maxMipmaps) ∧
    (pushed = true → t' = { t with
      mipmaps := t.mipmaps ++ [a.sources.size]
      version := t.version + 1 }) ∧
    (pushed = false → t' = t) := by
  cases h with
  | mipmap hpushed h =>
    cases hpushed
    cases h
    refine ⟨Texture.acceptsMipmap_iff, fun hroom => ?_, fun hfull => ?_⟩
    · rw [Texture.pushMipmap, if_pos hroom]
      rfl
    · rw [Texture.pushMipmap, hfull]
      rfl

/-- An arena that keeps its sources looks the same to a texture that has all of its. -/
theorem look_of_stays (h : a.Stays b) (ht : ∀ j ∈ t.sources, j < a.sources.size) :
    t.look b = t.look a := by
  rw [Texture.look_eq_iff]
  intro j hj
  have hold := Array.getElem?_eq_getElem (ht j hj)
  rw [h j _ hold, hold]

/-- New pixels show where their source is held. -/
theorem look_fillSource_ne_iff (ht : ∀ j ∈ t.sources, j < a.sources.size) (j : SourceId)
    (image : ImageData) : t.look (Arena.fillSource j image a).2 ≠ t.look a ↔ j ∈ t.sources := by
  rw [Ne, Texture.look_eq_iff, not_iff_comm]
  constructor
  · intro hj k hk
    have hne : j ≠ k := fun heq => hj (heq ▸ hk)
    rw [Arena.getElem?_fillSource, if_neg hne]
  · intro hall hj
    have hsame := hall j hj
    rw [Arena.getElem?_fillSource, if_pos rfl, Array.getElem?_eq_getElem (ht j hj)] at hsame
    exact PixelSource.fill_ne _ _ (Option.some.inj hsame)

theorem Accounted.framed (h : Accounted first given log s) (hdoes : Does e s u) :
    Framed e s u := by
  have hheld : ∀ {k : Nat} {t : Texture K}, s.textures[k]? = some t →
      ∀ j ∈ t.sources, j < s.arena.sources.size :=
    fun ht j hj => (h.held _ (List.mem_of_getElem? ht) j hj).2
  cases hdoes with
  | @edited i edit s t t' b ht hedit =>
    refine ⟨fun k _ hne => ?_, fun k v hv _ => ?_, fun k path pushed v heq hv => ?_, ?_⟩
    · exact List.getElem?_set_ne fun heq => hne (congrArg some heq)
    · simp [look_of_stays hedit.spec.stays (hheld hv), Event.filled?]
    · cases heq
      cases ht.symm.trans hv
      obtain ⟨hiff, hpushed, hfull⟩ := hedit.pushed
      obtain ⟨hi, hget⟩ := List.getElem?_eq_some_iff.mp ht
      refine ⟨hiff, fun hp => ?_, fun hp => ?_⟩
      · rw [← hpushed hp]
        exact List.getElem?_set_self hi
      · rw [hfull hp, ← hget]
        exact List.set_getElem_self hi
    · intro k heq
      cases heq
  | @filled i level j image s t ht hj =>
    refine ⟨fun _ _ _ => rfl, fun k v hv _ => ?_, fun k path pushed v heq _ => ?_, ?_⟩
    · rw [look_fillSource_ne_iff (hheld hv)]
      simp [Event.filled?]
    · cases heq
    · intro k heq
      cases heq
  | @copied i s t t' b ht hcopy =>
    cases hcopy
    refine ⟨fun k hk _ => List.getElem?_append_left hk, fun k v hv _ => ?_,
      fun k path pushed v heq _ => ?_, ?_⟩
    · simp [Event.filled?, Texture.look]
    · cases heq
    · intro k heq
      cases heq
      exact ⟨t, _, ht, rfl⟩

/-- **Textures that share pixel sources, over any run.**  Start with one texture in one slot, and
edit, fill and copy in any order.  All slots have the first source; a source is ready where it has
pixels and its version counts its fills; mip levels stop at eight; and the version of a texture
counts its changes.  Whatever step comes next, an edit leaves every other slot alone, and new pixels
show in just the slots that hold their source. -/
theorem slots_over_runs [Scalar K] {start : Slots K} (hstart : Starts a given start)
    (h : Run Does start log s) :
    Accounted a.sources.size given log s ∧ ∀ e u, Does e s u → Framed e s u := by
  have haccounted : Accounted a.sources.size given log s :=
    h.invariant (Accounted.starts hstart) Accounted.does
  exact ⟨haccounted, fun e u => haccounted.framed⟩

/-- A texture of one colour in the first slot. -/
def painted : Slots Float32 :=
  let (t, a) := Texture.ofColor "paint" [255, 0, 0, 255] .empty
  ⟨a, [t]⟩

/-- A painted texture is copied, its copy gets a mip level with pixels, and both are edited. -/
theorem slots_over_runs_painted :
    ∃ s, Starts .empty 1 painted ∧
      Run Does painted [.edited 0 (.video true), .filled 1 (some 0) 1 (.solid [0, 0, 0, 255]),
        .edited 1 (.mipmap "half.png" true), .edited 1 .touch, .copied 0] s ∧
      Accounted 0 1 [.edited 0 (.video true), .filled 1 (some 0) 1 (.solid [0, 0, 0, 255]),
        .edited 1 (.mipmap "half.png" true), .edited 1 .touch, .copied 0] s ∧
      ∀ e u, Does e s u → Framed e s u := by
  have hstart : Starts .empty 1 painted := .colored rfl
  have hcopied : Run Does painted [.copied 0] _ := .step .refl (.copied rfl rfl)
  have htouched : Run Does painted [.edited 1 .touch, .copied 0] _ :=
    hcopied.step (.edited rfl .touch)
  have hpushed : Run Does painted (.edited 1 (.mipmap "half.png" true) :: _) _ :=
    htouched.step (.edited rfl (.mipmap rfl rfl))
  have hfilled : Run Does painted (.filled 1 (some 0) 1 (.solid [0, 0, 0, 255]) :: _) _ :=
    hpushed.step (.filled rfl rfl)
  have hrun : Run Does painted (.edited 0 (.video true) :: _) _ :=
    hfilled.step (.edited rfl .video)
  exact ⟨_, hstart, hrun, slots_over_runs hstart hrun⟩

end Slots

end SceneAssembly
