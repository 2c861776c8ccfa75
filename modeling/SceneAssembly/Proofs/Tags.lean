/-
  SceneAssembly/Proofs/Tags.lean
  ==============================
  **Tags that are not known.**

  Four kinds of values are objects with a tag that selects what else is read of
  them: kinds of elements, shapes, transformation steps and lights.  A tag that
  is not known selects nothing, so the value should be accepted and keep its
  tag, to be reported later.

  Elements, shapes and steps do so, whatever their other members are.  A light
  does so exactly if the members that all lights have, as far as they are there,
  can be read (`unknown_tags_kept`); else it is refused, and with it the whole
  document (`warm_arealight_refused`).
-/
import SceneAssembly.Document.Decoding.Basic

namespace SceneAssembly

/-! ## 1. Objects -/

namespace Json

/-- The object with the members of a table. -/
def ofTable (members : Table Json) : Json := object (members.entries.map fun m => (some m.1, m.2))

theorem lookup_named (key : String) (entries : List (String × Json)) :
    (entries.map fun m => (some m.1, m.2)).lookup (some key) = entries.lookup key := by
  induction entries with
  | nil => rfl
  | cons m rest ih =>
    obtain ⟨k, v⟩ := m
    by_cases h : key = k
    · simp [h]
    · simp [List.lookup_cons, beq_eq_false_iff_ne.mpr h, ih]

theorem member?_ofTable (members : Table Json) (key : String) :
    (ofTable members).member? key = members.find? key :=
  lookup_named key members.entries

theorem tag?_ofTable_iff {members : Table Json} {key tag : String} :
    (ofTable members).tag? key = some tag ↔ members.find? key = some (.text (some tag)) := by
  unfold tag?
  rw [member?_ofTable]
  split
  next s h => simp [h]
  next h =>
    constructor
    · intro hnone
      cases hnone
    · intro htext
      exact absurd htext (h (some tag))

/-- Where an object is kept, the last member of each key is: what is kept is a table. -/
theorem exists_ofTable_of_strict {depth : Nat} {members : List (Option String × Json)} {kept : Json}
    (h : (object members).strict depth = some kept) : ∃ table, kept = ofTable table := by
  cases depth with
  | zero => simp [strict] at h
  | succ depth =>
    simp only [strict, Option.map_eq_some_iff, Option.bind_eq_some_iff, lastWins] at h
    obtain ⟨_, ⟨_, _, named, _, rfl⟩, rfl⟩ := h
    exact ⟨_, rfl⟩

end Json

/-! ## 2. Records in objects -/

namespace Fields

theorem lookup_filter {p : String → Bool} {key : String} (hkey : p key = true) (fields : Fields) :
    (fields.filter fun m => p m.1).lookup key = fields.lookup key := by
  induction fields with
  | nil => rfl
  | cons m rest ih =>
    obtain ⟨k, v⟩ := m
    by_cases h : key = k
    · subst h
      simp [hkey]
    · rw [List.lookup_cons, beq_eq_false_iff_ne.mpr h, List.filter_cons]
      split
      · rw [List.lookup_cons, beq_eq_false_iff_ne.mpr h, ih]
      · exact ih

theorem mapM_named (entries : List (String × Json)) :
    (entries.map fun m => (some m.1, m.2)).mapM
      (fun m : Option String × Json => (do return (← m.1, m.2) : Option (String × Json))) =
        some entries := by
  induction entries with
  | nil => rfl
  | cons m rest ih => rw [List.map_cons, List.mapM_cons, ih]; rfl

/-- The members of a table are the fields of a record, those of other names being ignored. -/
theorem exists_ofJson (names : List String) (members : Table Json) :
    ∃ fields, Fields.ofJson names (Json.ofTable members) = some fields ∧
      ∀ name ∈ names, fields.lookup name = members.find? name := by
  refine ⟨members.entries.filter fun m => names.contains m.1, ?_, ?_⟩
  · have hnodup : ((members.entries.filter fun m => names.contains m.1).map Prod.fst).Nodup :=
      (List.filter_sublist.map Prod.fst).nodup members.nodup
    show (List.mapM _ _ >>= fun named => _) = _
    rw [mapM_named]
    exact if_pos hnodup
  · intro name hname
    exact lookup_filter (p := fun key => names.contains key) (List.contains_iff_mem.mpr hname) _

/-- A field that may be left out is refused only if it is there and cannot be read. -/
theorem exists_optional_iff {α : Type} {fields : Fields} {name : String} {value : Decoder α}
    {default : α} :
    (∃ x, fields.optional name value default = some x) ↔
      ∀ j, fields.lookup name = some j → (value j).isSome := by
  unfold optional
  split
  next h => simp [h]
  next j h => simp [h, Option.isSome_iff_exists]

end Fields

/-! ## 3. What is known -/

def ElementKind.tags : List String := ["group", "primitive", "light", "lod"]

def ShapeSpec.tags : List String := ["rectangle", "box", "cylinder", "sphere", "triangle",
  "polygon", "skybox", "nurbs", "track", "tube", "model3d", "model"]

def TransformStep.tags : List String := ["T", "translate", "R", "rotate", "S", "scale"]

def LightType.tags : List String :=
  ["pointlight", "point", "spotlight", "spot", "directionallight", "directional"]

/-- The members that all lights have, with the test that each has to pass. -/
def LightCommon.checks : List (String × (Json → Bool)) := [
  ("color", fun j => (Decoder.vec3 j).isSome), ("intensity", fun j => (Decoder.single j).isSome),
  ("enabled", fun j => (Decoder.bool j).isSome), ("position", fun j => (Decoder.vec3 j).isSome),
  ("castShadow", fun j => (Decoder.bool j).isSome),
  ("shadowMapSize", fun j => (Decoder.count j).isSome),
  ("shadowFar", fun j => (Decoder.single j).isSome)]

/-- Every member that all lights have passes its test, if it is there. -/
def LightCommon.IsReadable (members : Table Json) : Prop :=
  ∀ check ∈ LightCommon.checks, ∀ j, members.find? check.1 = some j → check.2 j = true

theorem LightCommon.isSome_ofJson_iff {members : Table Json} :
    (LightCommon.ofJson (.ofTable members)).isSome ↔ LightCommon.IsReadable members := by
  obtain ⟨fields, hfields, hlookup⟩ := Fields.exists_ofJson (checks.map Prod.fst) members
  have hbind : ∀ {α β : Type} (o : Option α) (k : α → Option β),
      (o.bind k).isSome ↔ ∃ x, o = some x ∧ (k x).isSome := by
    intro α β o k
    cases o <;> simp
  unfold LightCommon.ofJson IsReadable
  show (Option.bind (Fields.ofJson (checks.map Prod.fst) _) _).isSome ↔ _
  rw [hfields]
  -- The fields are read one after the other, and none of them depends on another.
  simp only [Option.bind_some, Option.bind_eq_bind, Option.pure_def, hbind, Option.isSome_some,
    and_true, exists_and_right, Fields.exists_optional_iff]
  simp only [checks, List.map_cons, List.map_nil, List.forall_mem_cons] at hlookup ⊢
  simp only [hlookup, List.not_mem_nil, false_implies, implies_true, and_true]

/-! ## 4. What is kept -/

section Kept

variable {j : Json} {tag : String}

theorem ElementKind.ofJson_eq_unsupported_iff :
    ElementKind.ofJson j = some (.unsupported tag) ↔
      j.tag? "kind" = some tag ∧ tag ∉ ElementKind.tags := by
  unfold ElementKind.ofJson
  cases htag : j.tag? "kind" with
  | none => simp
  | some name =>
    simp only [Option.bind_eq_bind, Option.bind_some]
    split <;> simp_all [ElementKind.tags, Option.bind_eq_some_iff]
    rintro rfl
    simp_all

theorem ShapeSpec.ofJson_eq_unsupported_iff :
    ShapeSpec.ofJson j = some (.unsupported tag) ↔
      j.tag? "subtype" = some tag ∧ tag ∉ ShapeSpec.tags := by
  unfold ShapeSpec.ofJson
  cases htag : j.tag? "subtype" with
  | none => simp
  | some name =>
    simp only [Option.bind_eq_bind, Option.bind_some]
    split <;> simp_all [ShapeSpec.tags, Option.bind_eq_some_iff]
    rintro rfl
    simp_all

theorem TransformStep.ofJson_eq_unsupported_iff :
    TransformStep.ofJson j = some (.unsupported tag) ↔
      j.tag? "type" = some tag ∧ tag ∉ TransformStep.tags ∧ tag ≠ "" := by
  unfold TransformStep.ofJson
  cases htag : j.tag? "type" with
  | none => simp
  | some name =>
    simp only [Option.bind_eq_bind, Option.bind_some]
    split <;> simp_all [TransformStep.tags, Option.bind_eq_some_iff]
    rintro rfl
    simp_all

theorem LightSpec.ofJson_eq_unsupported_iff :
    (∃ common, LightSpec.ofJson j = some ⟨common, .unsupported tag⟩) ↔
      j.tag? "type" = some tag ∧ tag ∉ LightType.tags ∧ (LightCommon.ofJson j).isSome := by
  unfold LightSpec.ofJson
  cases htag : j.tag? "type" with
  | none => simp
  | some name =>
    cases hcommon : LightCommon.ofJson j with
    | none => simp
    | some common =>
      simp only [Option.bind_eq_bind, Option.bind_some]
      split <;> simp_all [LightType.tags, Option.bind_eq_some_iff]
      rintro rfl
      simp_all

end Kept

/-- **Unknown tags are kept.**  Every object that is kept of a document is a table, and a table with
    an unknown tag is read as the variant with this tag; a light only if the members that all lights
    have can be read. -/
theorem unknown_tags_kept (tag : String) :
    (∀ depth written kept, (Json.object written).strict depth = some kept →
      ∃ members, kept = .ofTable members) ∧
    ∀ members : Table Json,
      (ElementKind.ofJson (.ofTable members) = some (.unsupported tag) ↔
        members.find? "kind" = some (.text (some tag)) ∧ tag ∉ ElementKind.tags) ∧
      (ShapeSpec.ofJson (.ofTable members) = some (.unsupported tag) ↔
        members.find? "subtype" = some (.text (some tag)) ∧ tag ∉ ShapeSpec.tags) ∧
      (TransformStep.ofJson (.ofTable members) = some (.unsupported tag) ↔
        members.find? "type" = some (.text (some tag)) ∧ tag ∉ TransformStep.tags ∧ tag ≠ "") ∧
      ((∃ common, LightSpec.ofJson (.ofTable members) = some ⟨common, .unsupported tag⟩) ↔
        members.find? "type" = some (.text (some tag)) ∧ tag ∉ LightType.tags ∧
          LightCommon.IsReadable members) := by
  constructor
  · intro depth written kept h
    exact Json.exists_ofTable_of_strict h
  · intro members
    rw [ElementKind.ofJson_eq_unsupported_iff, ShapeSpec.ofJson_eq_unsupported_iff,
      TransformStep.ofJson_eq_unsupported_iff, LightSpec.ofJson_eq_unsupported_iff,
      LightCommon.isSome_ofJson_iff]
    simp only [Json.tag?_ofTable_iff, and_self]

/-- A light of an unknown type that casts shadows. -/
def LightSpec.casting : Table Json :=
  (Table.empty.insert "type" (.text (some "arealight"))).insert "castShadow" (.bool true)

/-- Of two types that are written the last one counts, and the light is kept by it. -/
theorem unknown_tags_kept_casting :
    (Json.object [(some "type", .text (some "spot")), (some "type", .text (some "arealight")),
        (some "castShadow", .bool true)]).strict 2 = some (.ofTable LightSpec.casting) ∧
      ∃ common, LightSpec.ofJson (.ofTable LightSpec.casting) =
        some ⟨common, .unsupported "arealight"⟩ := by
  have hreadable : LightCommon.IsReadable LightSpec.casting :=
    LightCommon.isSome_ofJson_iff.mp rfl
  refine ⟨rfl, ?_⟩
  exact ((unknown_tags_kept "arealight").2 LightSpec.casting).2.2.2.mpr ⟨rfl, by decide, hreadable⟩

/-- A light of an unknown type with a colour in words. -/
def LightSpec.warm : Table Json :=
  (Table.empty.insert "type" (.text (some "arealight"))).insert "color" (.text (some "warm"))

/-- A document whose only element is a light. -/
def Json.lit (light : Table Json) : Json :=
  .object [(some "rootId", .text (some "lamp")), (some "nodes", .object [(some "lamp", .object [
    (some "kind", .text (some "light")), (some "light", .ofTable light)])])]

/-- The light is not kept by its type, and the document is refused. -/
theorem warm_arealight_refused :
    LightSpec.warm.find? "type" = some (.text (some "arealight")) ∧
      "arealight" ∉ LightType.tags ∧ LightSpec.ofJson (.ofTable LightSpec.warm) = none ∧
      Document.ofJson (.lit LightSpec.warm) = none :=
  ⟨rfl, by decide, rfl, rfl⟩

end SceneAssembly
