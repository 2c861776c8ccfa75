/-
  SceneAssembly/Proofs/Textures/Runs.lean
  =======================================
  **A registry of textures over any run of calls.**

  A request for an identifier can go in three ways (`Resolution`): the texture is
  there, there is nothing to make it of, or it is made, and only then the loader
  is asked.  A log of calls therefore tells what the loader was asked for
  (`imports`), how many textures are kept (`served`), and which answer a request
  gets (`textures_over_runs`).
-/
import SceneAssembly.Proofs.Looks
import SceneAssembly.Proofs.Runs

namespace SceneAssembly

variable {K : Type}

/-- The images of a description: its own, and those of the first eight mip levels. -/
def TextureSpec.images (spec : TextureSpec) : List String := spec.path :: spec.mipmaps.take 8

namespace TextureRegistry

/-! ## 1. One request -/

/-- The paths asked of the loader, the first one first. -/
def paths (r : TextureRegistry K) : List String := r.requests.map ImageRequest.path

/-- The paths to ask for to make the texture of an identifier. -/
def batch (records : Table TextureSpec) (assetDir id : String) : List String :=
  match records.find? id with
  | none => []
  | some spec => spec.images.map (AssetPath.join assetDir)

theorem find?_insert (id : String) (x : Shared (Texture K)) (s : TextureRegistry K × Arena)
    (id' : String) : (insert id x s).2.1.handles.find? id' =
      if id' = id then some x else s.1.handles.find? id' :=
  Table.find?_insert _ _ _ _

/-- How a request for a texture can go. -/
inductive Resolution (s : TextureRegistry K × Arena) (id : String) :
    Option (Shared (Texture K)) → TextureRegistry K × Arena → Prop
  | kept {t : Shared (Texture K)} (h : s.1.handles.find? id = some t) : Resolution s id (some t) s
  | unknown (h : s.1.handles.find? id = none) (hrec : s.1.records.find? id = none) :
    Resolution s id none s
  | made {spec : TextureSpec} {t : Shared (Texture K)} {requests : List ImageRequest} {b : Arena}
      (h : s.1.handles.find? id = none) (hrec : s.1.records.find? id = some spec)
      (hnew : s.2.next ≤ t.id) (hnext : t.id < b.next) (hstays : s.2.Stays b)
      (hpaths : requests.map ImageRequest.path =
        s.1.paths ++ spec.images.map (AssetPath.join s.1.assetDir)) :
    Resolution s id (some t)
      ({ s.1 with handles := s.1.handles.insert id t, requests := requests }, b)

theorem paths_request (path : String) (s : TextureRegistry K × Arena) :
    (request path s).2.1.paths = s.1.paths ++ [AssetPath.join s.1.assetDir path] :=
  List.map_append

theorem paths_pushMipmaps (t : Texture K) (levels : List String)
    (s : TextureRegistry K × Arena) : (pushMipmaps t levels s).2.1.paths =
      s.1.paths ++ levels.map (AssetPath.join s.1.assetDir) := by
  induction levels generalizing t s with
  | nil => exact (List.append_nil _).symm
  | cons path rest ih =>
    refine (ih (t.pushMipmap (request path s).1) (request path s).2).trans ?_
    rw [paths_request, List.append_assoc]
    rfl

namespace Resolution

variable {s u : TextureRegistry K × Arena} {id : String} {found : Option (Shared (Texture K))}

/-- The answer is what is then kept under the identifier, and nothing else is changed. -/
theorem find?_eq (h : Resolution s id found u) (id' : String) :
    u.1.handles.find? id' = if id' = id then found else s.1.handles.find? id' := by
  cases h with
  | kept h =>
    split
    next heq => rw [heq, h]
    next => rfl
  | unknown h =>
    split
    next heq => rw [heq, h]
    next => rfl
  | made => exact Table.find?_insert _ _ _ _

/-- What an identifier that has been asked for has, no request changes. -/
theorem find?_of_settled (h : Resolution s id found u) {id' : String} (hid : s.1.Settled id') :
    u.1.handles.find? id' = s.1.handles.find? id' := by
  rw [h.find?_eq]
  split
  next heq =>
    subst heq
    cases h with
    | kept h => exact h.symm
    | unknown h => exact h.symm
    | made h hrec =>
      rw [hid h] at hrec
      cases hrec
  next => rfl

theorem records (h : Resolution s id found u) :
    u.1.records = s.1.records ∧ u.1.assetDir = s.1.assetDir := by
  cases h <;> exact ⟨rfl, rfl⟩

theorem settled (h : Resolution s id found u) : u.1.Settled id := by
  intro hnone
  rw [h.find?_eq, if_pos rfl] at hnone
  cases h with
  | kept => cases hnone
  | unknown _ hrec => exact hrec
  | made => cases hnone

theorem paths_eq (h : Resolution s id found u) :
    u.1.paths = s.1.paths ++
      if (s.1.handles.find? id).isNone then batch s.1.records s.1.assetDir id else [] := by
  cases h with
  | kept h => simp [h]
  | unknown h hrec => simp [h, batch, hrec]
  | made h hrec _ _ _ hpaths =>
    simp only [h, batch, hrec, Option.isNone_none, if_true]
    exact hpaths

theorem next (h : Resolution s id found u) : s.2.next ≤ u.2.next := by
  cases h with
  | kept => exact Nat.le_refl _
  | unknown => exact Nat.le_refl _
  | made _ _ hnew hnext => exact Nat.le_of_lt (Nat.lt_of_le_of_lt hnew hnext)

theorem stays (h : Resolution s id found u) : s.2.Stays u.2 := by
  cases h with
  | kept => exact .refl _
  | unknown => exact .refl _
  | made _ _ _ _ hstays => exact hstays

/-- The numbers of the textures that are kept have been given out. -/
theorem kept_lt (h : Resolution s id found u)
    (hs : ∀ id x, s.1.handles.find? id = some x → x.id < s.2.next) (id' : String)
    (x : Shared (Texture K)) (hx : u.1.handles.find? id' = some x) : x.id < u.2.next := by
  cases h with
  | kept => exact hs id' x hx
  | unknown => exact hs id' x hx
  | made _ _ hnew hnext =>
    have hx := (Table.find?_insert _ _ _ _).symm.trans hx
    split at hx
    · cases hx
      exact hnext
    · exact Nat.lt_trans (Nat.lt_of_lt_of_le (hs id' x hx) hnew) hnext

end Resolution

section Requests

variable [Scalar K] {s : TextureRegistry K × Arena}

theorem paths_create (id : String) (spec : TextureSpec) :
    (create (K := K) id spec s).2.1.paths =
      s.1.paths ++ spec.images.map (AssetPath.join s.1.assetDir) := by
  refine (paths_pushMipmaps _ _ _).trans ?_
  exact (congrArg (· ++ _) (paths_request spec.path s)).trans (List.append_assoc _ _ _)

theorem resolution_resolve (id : String) :
    Resolution s id (resolve (K := K) id s).1 (resolve id s).2 := by
  cases h : s.1.handles.find? id with
  | some t =>
    rw [resolve_handle h]
    exact .kept h
  | none =>
    cases hrec : s.1.records.find? id with
    | none =>
      rw [resolve_unknown h hrec]
      exact .unknown h hrec
    | some spec =>
      obtain ⟨t, requests, a, hcreate, hstays, -⟩ := create_look (r := s.1) (a := s.2) id spec
      obtain ⟨t', r', a', hcreate', heq⟩ := resolve_record h hrec
      rw [hcreate] at hcreate'
      cases hcreate'
      have hnext := (growth_create (s := s) id spec).next
      have hpaths := paths_create (s := s) id spec
      rw [hcreate] at hnext hpaths
      rw [heq]
      exact .made h hrec hnext (Nat.lt_succ_self _) (hstays.trans (.of_sources rfl)) hpaths

theorem resolveTiled_none {id : String} {u : TextureRegistry K × Arena}
    (h : resolve id s = (none, u)) (tiling : Vec2 K) : resolveTiled id tiling s = (none, u) := by
  simp only [resolveTiled, bind, StateT.bind, h]
  rfl

theorem resolveTiled_some {id : String} {t : Shared (Texture K)} {u : TextureRegistry K × Arena}
    (h : resolve id s = (some t, u)) (tiling : Vec2 K) :
    resolveTiled id tiling s =
      (some ⟨u.2.next + 1, { t.value with
        serial := u.2.next
        version := 0
        transform := { t.value.transform with tiling := tiling } }⟩,
      (u.1, { u.2 with next := u.2.next + 2 })) := by
  simp only [resolveTiled, bind, StateT.bind, h]
  rfl

end Requests

/-! ## 2. Calls and logs -/

/-- A call with its answer, or work that leaves the registry alone. -/
inductive Call (K : Type) where
  | resolved (id : String) (found : Option (Shared (Texture K)))
  | tiled (id : String) (tiling : Vec2 K) (found : Option (Shared (Texture K)))
  | inserted (id : String) (t : Shared (Texture K))
  | elsewhere

namespace Call

def asked? : Call K → Option String
  | resolved id _ => some id
  | tiled id _ _ => some id
  | _ => none

def inserted? : Call K → Option String
  | inserted id _ => some id
  | _ => none

/-- The identifier that a call asks for or puts a texture in under. -/
def named? (e : Call K) : Option String := e.asked?.or e.inserted?

/-- The texture that a call hands out or puts in. -/
def object? : Call K → Option (Shared (Texture K))
  | resolved _ found => found
  | tiled _ _ found => found
  | inserted _ t => some t
  | elsewhere => none

/-- The identifier that a call leaves with a texture. -/
def served? (e : Call K) : Option String := e.object?.bind fun _ => e.named?

/-- The paths that the loader is asked for in a call. -/
def wanted (e : Call K) (r : TextureRegistry K) : List String :=
  match e.asked? with
  | none => []
  | some id => if (r.handles.find? id).isNone then batch r.records r.assetDir id else []

end Call

/-- The identifiers resolved with success, or put in. -/
def served (log : List (Call K)) : List String := log.filterMap Call.served?

/-- The identifiers that textures were put in under. -/
def insertedIds (log : List (Call K)) : List String := log.filterMap Call.inserted?

/-- The identifiers asked for or put in. -/
def named (log : List (Call K)) : List String := log.filterMap Call.named?

/-- The textures handed out or put in. -/
def objects (log : List (Call K)) : List (Shared (Texture K)) := log.filterMap Call.object?

/-- The identifiers with a description that were asked for before they were named in any other way,
the first one first. -/
def imports (records : Table TextureSpec) (log : List (Call K)) : List String :=
  (firstAsked Call.asked? id Call.named? log).filter fun id => (records.find? id).isSome

theorem mem_named_of_served {log : List (Call K)} {id : String} (h : id ∈ served log) :
    id ∈ named log := by
  obtain ⟨e, he, hid⟩ := List.mem_filterMap.mp h
  obtain ⟨_, -, hname⟩ := Option.bind_eq_some_iff.mp hid
  exact List.mem_filterMap.mpr ⟨e, he, hname⟩

/-- No identifier is imported twice. -/
theorem nodup_imports (records : Table TextureSpec) (log : List (Call K)) :
    (imports records log).Nodup := by
  have hnamed : ∀ e ∈ log, ∀ id, e.asked? = some id → e.named? = some id := by
    intro e _ id he
    rw [Call.named?, he, Option.some_or]
  have hnodup : ((firstAsked Call.asked? id Call.named? log).map id).Nodup :=
    nodup_firstAsked hnamed
  rw [List.map_id] at hnodup
  exact hnodup.filter _

/-- What a log tells of the registry that it leads to. -/
structure Recorded (records : Table TextureSpec) (assetDir : String) (log : List (Call K))
    (s : TextureRegistry K × Arena) : Prop where
  records_eq : s.1.records = records
  assetDir_eq : s.1.assetDir = assetDir
  paths_eq : s.1.paths = (imports records log).flatMap (batch records assetDir)
  isSome_iff : ∀ id, (s.1.handles.find? id).isSome ↔ id ∈ served log
  settled : ∀ id ∈ named log, s.1.Settled id
  kept_lt : ∀ id x, s.1.handles.find? id = some x → x.id < s.2.next
  object_lt : ∀ x ∈ objects log, x.id < s.2.next

/-- The identifiers of a call that are new to a log are those that the loader is asked for. -/
theorem Recorded.wanted_eq {records : Table TextureSpec} {assetDir : String} {log : List (Call K)}
    {s : TextureRegistry K × Arena} (h : Recorded records assetDir log s) (e : Call K) :
    e.wanted s.1 =
      ((e.asked?.toList.filter fun id => id ∉ named log).filter fun id =>
        (records.find? id).isSome).flatMap (batch records assetDir) := by
  unfold Call.wanted
  cases e.asked? with
  | none => rfl
  | some id =>
    rw [h.records_eq, h.assetDir_eq]
    cases hrec : records.find? id with
    | none => simp [batch, hrec]
    | some spec =>
      have hiff : (s.1.handles.find? id).isNone ↔ id ∉ named log := by
        rw [← Option.not_isSome, Bool.not_eq_true', ← Bool.not_eq_true]
        refine not_congr ⟨fun hs => mem_named_of_served ((h.isSome_iff id).mp hs), fun hid => ?_⟩
        cases hs : s.1.handles.find? id with
        | some x => rfl
        | none =>
          have := h.settled id hid hs
          rw [h.records_eq, hrec] at this
          cases this
      by_cases hid : id ∈ named log
      · simp [hid, mt hiff.mp (not_not_intro hid)]
      · simp [hrec, hid, hiff.mpr hid]

/-- A copy that is made after a request is none of the objects so far. -/
theorem Recorded.ne_copy {records : Table TextureSpec} {assetDir : String} {log : List (Call K)}
    {s u : TextureRegistry K × Arena} {id : String} {found : Option (Shared (Texture K))}
    (h : Recorded records assetDir log s) (hres : Resolution s id found u) :
    (∀ x ∈ objects log, x.id ≠ u.2.next + 1) ∧
      ∀ id x, u.1.handles.find? id = some x → x.id ≠ u.2.next + 1 := by
  constructor
  · intro x hx
    have hlt := h.object_lt x hx
    have hle := hres.next
    omega
  · intro id' x hx
    have hlt := hres.kept_lt h.kept_lt id' x hx
    omega

/-! ## 3. What a call does -/

section Steps

variable [Scalar K]

/-- The calls of a registry.  Work elsewhere makes new objects and may fill pixel sources. -/
inductive Does : Call K → TextureRegistry K × Arena → TextureRegistry K × Arena → Prop
  | resolved {id : String} {found : Option (Shared (Texture K))}
      {s t : TextureRegistry K × Arena} (h : resolve id s = (found, t)) :
    Does (.resolved id found) s t
  | tiled {id : String} {tiling : Vec2 K} {found : Option (Shared (Texture K))}
      {s t : TextureRegistry K × Arena} (h : resolveTiled id tiling s = (found, t)) :
    Does (.tiled id tiling found) s t
  | inserted {id : String} {x : Shared (Texture K)} {s : TextureRegistry K × Arena}
      (h : x.id < s.2.next) : Does (.inserted id x) s (insert id x s).2
  | elsewhere {s : TextureRegistry K × Arena} {b : Arena} (h : s.2.next ≤ b.next) :
    Does .elsewhere s (s.1, b)

variable {e : Call K} {s t : TextureRegistry K × Arena} {id : String}

/-- A call that asks is a request, after which a copy may be made. -/
structure Answers (e : Call K) (id : String) (s t : TextureRegistry K × Arena)
    (found : Option (Shared (Texture K))) (u : TextureRegistry K × Arena) : Prop where
  asked : e.asked? = some id
  inserted : e.inserted? = none
  served : e.served? = found.map fun _ => id
  resolution : Resolution s id found u
  registry : t.1 = u.1
  next : u.2.next ≤ t.2.next
  sources : t.2.sources = u.2.sources
  object : ∀ x, e.object? = some x → found = some x ∨ x.id < t.2.next

theorem Does.cases (h : Does e s t) :
    (∃ id found u, Answers e id s t found u) ∨
    (∃ id x, e = .inserted id x ∧ x.id < s.2.next ∧ t = (insert id x s).2) ∨
    (e = .elsewhere ∧ t.1 = s.1 ∧ s.2.next ≤ t.2.next) := by
  cases h with
  | @resolved id found s t h =>
    have hres := resolution_resolve (s := s) id
    rw [h] at hres
    refine .inl ⟨id, found, t, rfl, rfl, ?_, hres, rfl, Nat.le_refl _, rfl, fun x hx => .inl hx⟩
    cases found <;> rfl
  | @tiled id tiling found s t h =>
    have hres := resolution_resolve (s := s) id
    obtain ⟨base, u, heq⟩ : ∃ base u, resolve id s = (base, u) := ⟨_, _, rfl⟩
    rw [heq] at hres
    cases base with
    | none =>
      rw [resolveTiled_none heq] at h
      cases h
      exact .inl ⟨id, none, _, rfl, rfl, rfl, hres, rfl, Nat.le_refl _, rfl, fun x hx => .inl hx⟩
    | some base =>
      rw [resolveTiled_some heq] at h
      cases h
      refine .inl ⟨id, some base, u, rfl, rfl, rfl, hres, rfl, Nat.le_add_right _ 2, rfl, ?_⟩
      intro x hx
      cases hx
      exact .inr (Nat.lt_succ_self _)
  | inserted h => exact .inr (.inl ⟨_, _, rfl, h, rfl⟩)
  | elsewhere h => exact .inr (.inr ⟨rfl, rfl, h⟩)

namespace Does

theorem records (h : Does e s t) :
    t.1.records = s.1.records ∧ t.1.assetDir = s.1.assetDir := by
  rcases h.cases with ⟨id, found, u, ha⟩ | ⟨id, x, -, -, rfl⟩ | ⟨-, ht, -⟩
  · rw [ha.registry]
    exact ha.resolution.records
  · exact ⟨rfl, rfl⟩
  · rw [ht]
    exact ⟨rfl, rfl⟩

theorem next (h : Does e s t) : s.2.next ≤ t.2.next := by
  rcases h.cases with ⟨id, found, u, ha⟩ | ⟨id, x, -, -, rfl⟩ | ⟨-, -, ht⟩
  · exact Nat.le_trans ha.resolution.next ha.next
  · exact Nat.le_refl _
  · exact ht

/-- The loader is asked in a call for an identifier that has a description and no texture yet, and
then for the images of the description. -/
theorem paths_eq (h : Does e s t) : t.1.paths = s.1.paths ++ e.wanted s.1 := by
  rcases h.cases with ⟨id, found, u, ha⟩ | ⟨id, x, rfl, -, rfl⟩ | ⟨rfl, ht, -⟩
  · rw [ha.registry, ha.resolution.paths_eq, Call.wanted, ha.asked]
  · exact (List.append_nil _).symm
  · rw [ht]
    exact (List.append_nil _).symm

/-- What an identifier that has been asked for has is left as it is, unless another texture is put
in its place. -/
theorem find?_of_settled (h : Does e s t) (hid : s.1.Settled id) (hne : e.inserted? ≠ some id) :
    t.1.handles.find? id = s.1.handles.find? id := by
  rcases h.cases with ⟨id', found, u, ha⟩ | ⟨id', y, rfl, -, rfl⟩ | ⟨-, ht, -⟩
  · rw [ha.registry]
    exact ha.resolution.find?_of_settled hid
  · have hother : id ≠ id' := fun heq => hne (heq ▸ rfl)
    exact (find?_insert _ _ _ _).trans (if_neg hother)
  · rw [ht]

theorem keeps (h : Does e s t) {x : Shared (Texture K)} (hne : e.inserted? ≠ some id)
    (hx : s.1.handles.find? id = some x) : t.1.handles.find? id = some x := by
  have hsettled : s.1.Settled id := fun hnone => by rw [hx] at hnone; cases hnone
  rw [h.find?_of_settled hsettled hne, hx]

/-- A call keeps all pixel sources. -/
theorem stays (h : Does e s t) (he : e ≠ .elsewhere) : s.2.Stays t.2 := by
  rcases h.cases with ⟨id', found, u, ha⟩ | ⟨id', y, -, -, rfl⟩ | ⟨rfl, -, -⟩
  · exact ha.resolution.stays.trans (.of_sources ha.sources)
  · exact .refl _
  · exact absurd rfl he

theorem isSome_iff (h : Does e s t) (id : String) :
    (t.1.handles.find? id).isSome ↔ e.served? = some id ∨ (s.1.handles.find? id).isSome := by
  rcases h.cases with ⟨id', found, u, ha⟩ | ⟨id', y, rfl, -, rfl⟩ | ⟨rfl, ht, -⟩
  · rw [ha.registry, ha.served, ha.resolution.find?_eq]
    split
    next heq =>
      subst heq
      cases found with
      | some x => simp
      | none =>
        have hnone : s.1.handles.find? id = none := by
          cases ha.resolution with
          | unknown h => exact h
        simp [hnone]
    next hne => cases found <;> simp [Ne.symm hne]
  · rw [find?_insert]
    split
    next heq => simp [Call.served?, Call.object?, Call.named?, Call.asked?, Call.inserted?, heq]
    next hne =>
      simp [Call.served?, Call.object?, Call.named?, Call.asked?, Call.inserted?, Ne.symm hne]
  · simp [ht, Call.served?, Call.object?]

theorem settled (h : Does e s t) (hid : s.1.Settled id) : t.1.Settled id := by
  intro hnone
  rw [h.records.1]
  apply hid
  rw [← Option.not_isSome_iff_eq_none] at hnone ⊢
  exact fun hs => hnone ((h.isSome_iff id).mpr (.inr hs))

/-- An identifier that a call names is settled. -/
theorem settled_of_named (h : Does e s t) (hid : e.named? = some id) :
    t.1.Settled id := by
  rcases h.cases with ⟨id', found, u, ha⟩ | ⟨id', y, rfl, -, rfl⟩ | ⟨rfl, -, -⟩
  · rw [Call.named?, ha.asked, Option.some_or] at hid
    cases hid
    intro hnone
    rw [ha.registry] at hnone ⊢
    exact ha.resolution.settled hnone
  · cases hid
    intro hnone
    rw [find?_insert, if_pos rfl] at hnone
    cases hnone
  · cases hid

end Does

/-! ## 4. Runs -/

theorem Recorded.does {records : Table TextureSpec} {assetDir : String} {log : List (Call K)}
    (h : Recorded records assetDir log s) (hdoes : Does e s t) :
    Recorded records assetDir (e :: log) t where
  records_eq := hdoes.records.1.trans h.records_eq
  assetDir_eq := hdoes.records.2.trans h.assetDir_eq
  paths_eq := by
    rw [hdoes.paths_eq, h.paths_eq, h.wanted_eq, imports, imports, firstAsked, List.filter_append,
      List.flatMap_append]
    rfl
  isSome_iff id := by
    rw [hdoes.isSome_iff, h.isSome_iff, served, served, mem_told_cons]
  settled id hid := by
    rcases mem_told_cons.mp hid with hid | hid
    · exact hdoes.settled_of_named hid
    · exact hdoes.settled (h.settled id hid)
  kept_lt id x hx := by
    rcases hdoes.cases with ⟨id', found, u, ha⟩ | ⟨id', y, rfl, hy, rfl⟩ | ⟨rfl, ht, hnext⟩
    · rw [ha.registry] at hx
      exact Nat.lt_of_lt_of_le (ha.resolution.kept_lt h.kept_lt id x hx) ha.next
    · rw [find?_insert] at hx
      split at hx
      · cases hx
        exact hy
      · exact h.kept_lt id x hx
    · rw [ht] at hx
      exact Nat.lt_of_lt_of_le (h.kept_lt id x hx) hnext
  object_lt x hx := by
    rcases mem_told_cons.mp hx with hobject | hx
    · rcases hdoes.cases with ⟨id', found, u, ha⟩ | ⟨id', y, rfl, hy, rfl⟩ | ⟨rfl, -, -⟩
      · rcases ha.object x hobject with rfl | hlt
        · have hkept := (ha.resolution.find?_eq id').trans (if_pos rfl)
          exact Nat.lt_of_lt_of_le (ha.resolution.kept_lt h.kept_lt id' x hkept) ha.next
        · exact hlt
      · cases hobject
        exact hy
      · cases hobject
    · exact Nat.lt_of_lt_of_le (h.object_lt x hx) hdoes.next

theorem recorded_of_run {records : Table TextureSpec} {assetDir : String} {loader : ImageLoader}
    {a : Arena} {log : List (Call K)}
    (h : Run Does (ofRecords records assetDir loader, a) log s) :
    Recorded records assetDir log s := by
  refine h.invariant ⟨rfl, rfl, rfl, fun id => ?_, ?_, fun id x hx => ?_, ?_⟩ Recorded.does
  · simp [ofRecords, Table.empty, Table.find?, served]
  · intro id hid
    cases hid
  · cases hx
  · intro x hx
    cases hx

/-- Without another texture put in its place, what an identifier has stays. -/
theorem find?_of_run {log : List (Call K)} (h : Run Does s log t) (hid : s.1.Settled id)
    (hlog : id ∉ insertedIds log) :
    t.1.Settled id ∧ t.1.handles.find? id = s.1.handles.find? id := by
  let Same (t : TextureRegistry K × Arena) : Prop :=
    t.1.Settled id ∧ t.1.handles.find? id = s.1.handles.find? id
  refine h.keeps_of_log (P := Same) (told_ne_of_notMem hlog) ⟨hid, rfl⟩
    fun hne ⟨hsettled, hfind⟩ hdoes => ?_
  exact ⟨hdoes.settled hsettled, (hdoes.find?_of_settled hsettled hne).trans hfind⟩

/-- **Textures over any run of calls.**  The loader was asked for one batch of images for each
identifier that was imported, and is asked for another one only in a call for an identifier with a
description and without a texture.  As many textures are kept as there are identifiers resolved or
put in.  Calls change neither a texture that is kept nor a pixel source.  An identifier keeps its
answer until a texture is put in under it, which is then the answer.  A tiled copy is there if the
texture is, and is a new object with the same sources. -/
theorem textures_over_runs {records : Table TextureSpec} {assetDir : String} {loader : ImageLoader}
    {a : Arena} {log : List (Call K)}
    (h : Run Does (ofRecords records assetDir loader, a) log s) :
    (s.1.paths = (imports records log).flatMap (batch records assetDir) ∧
      (imports records log).Nodup) ∧
    s.1.handles.size = (served log).dedup.length ∧
    (∀ e t, Does e s t →
      t.1.paths = s.1.paths ++ e.wanted s.1 ∧
      (∀ id x, s.1.handles.find? id = some x → e.inserted? ≠ some id →
        t.1.handles.find? id = some x) ∧
      (e ≠ .elsewhere → s.2.Stays t.2)) ∧
    (∀ id later t, Run Does (resolve id s).2 later t → id ∉ insertedIds later →
      (resolve id t).1 = (resolve id s).1) ∧
    (∀ id x later t, Run Does (insert id x s).2 later t → id ∉ insertedIds later →
      resolve id t = (some x, t)) ∧
    (∀ id, records.find? id = none → id ∉ insertedIds log →
      resolve id s = (none, s) ∧ ∀ tiling, resolveTiled id tiling s = (none, s)) ∧
    (∀ id tiling, (resolveTiled id tiling s).1 = none ↔ (resolve id s).1 = none) ∧
    ∀ id tiling base u, resolve id s = (some base, u) →
      u.1.handles.find? id = some base ∧
      ∃ copy serial b, resolveTiled id tiling s = (some copy, (u.1, b)) ∧
        copy.value = { base.value with
          serial := serial
          version := 0
          transform := { base.value.transform with tiling := tiling } } ∧
        (∀ x ∈ objects log, x.id ≠ copy.id) ∧
        ∀ id x, u.1.handles.find? id = some x → x.id ≠ copy.id := by
  have hrec := recorded_of_run h
  refine ⟨⟨hrec.paths_eq, nodup_imports records log⟩, Table.size_eq_of_keys hrec.isSome_iff, ?_, ?_,
    ?_, ?_, ?_, ?_⟩
  · intro e t hdoes
    exact ⟨hdoes.paths_eq, fun id x hx hne => hdoes.keeps hne hx, hdoes.stays⟩
  · intro id later t hrun hlater
    obtain ⟨heq, hsettled⟩ := resolve_eq_find? (s := s) id
    obtain ⟨hsettled', hfind⟩ := find?_of_run hrun hsettled hlater
    rw [resolve_of_settled hsettled', hfind, heq]
  · intro id x later t hrun hlater
    have hx : (insert id x s).2.1.handles.find? id = some x :=
      (find?_insert _ _ _ _).trans (if_pos rfl)
    obtain ⟨-, hfind⟩ := find?_of_run hrun (fun hnone => by rw [hx] at hnone; cases hnone) hlater
    exact resolve_handle (hfind.trans hx)
  · intro id hnone hlog
    obtain ⟨-, hfind⟩ := find?_of_run h (fun _ => hnone) hlog
    have hresolve := resolve_unknown hfind (hrec.records_eq ▸ hnone)
    exact ⟨hresolve, resolveTiled_none hresolve⟩
  · intro id tiling
    obtain ⟨found, u, heq⟩ : ∃ found u, resolve id s = (found, u) := ⟨_, _, rfl⟩
    cases found with
    | none => rw [resolveTiled_none heq, heq]
    | some base => simp [resolveTiled_some heq, heq]
  · intro id tiling base u heq
    have hres := resolution_resolve (s := s) id
    rw [heq] at hres
    refine ⟨(hres.find?_eq id).trans (if_pos rfl), _, _, _, resolveTiled_some heq tiling, rfl, ?_⟩
    exact hrec.ne_copy hres

/-- A brick texture with more mip levels than are used. -/
def brickwork : Table TextureSpec :=
  Table.empty.insert "brick" { TextureSpec.standard with
    path := "brick.png"
    mipmaps := List.replicate 10 "level.png" }

theorem textures_over_runs_brickwork :
    ∃ (base copy : Shared (Texture Float32)) (s : TextureRegistry Float32 × Arena),
      Run Does (ofRecords brickwork "assets" .deferred, .empty)
        [.resolved "brick" (some copy), .inserted "brick" copy, .resolved "ghost" none,
          .resolved "brick" (some base), .tiled "brick" ⟨2, 2⟩ (some copy)] s ∧
      s.1.paths = batch brickwork "assets" "brick" ∧ s.1.paths.length = 9 ∧
      s.1.handles.size = 1 ∧ resolve "brick" s = (some copy, s) ∧ base.id ≠ copy.id := by
  let start : TextureRegistry Float32 × Arena := (ofRecords brickwork "assets" .deferred, .empty)
  obtain ⟨base, u, hbase⟩ : ∃ base u, resolve "brick" start = (some base, u) := by
    have hnone : start.1.handles.find? "brick" = none := rfl
    obtain ⟨t, r, b, -, heq⟩ := resolve_record hnone rfl
    exact ⟨_, _, heq⟩
  have hres := resolution_resolve (s := start) "brick"
  rw [hbase] at hres
  have hkept : u.1.handles.find? "brick" = some base := (hres.find?_eq _).trans (if_pos rfl)
  have hghost : u.1.handles.find? "ghost" = none := hres.find?_of_settled fun _ => rfl
  have hnone : u.1.records.find? "ghost" = none := by
    rw [hres.records.1]
    rfl
  obtain ⟨copy, hcopy, heq⟩ : ∃ copy : Shared (Texture Float32), copy.id = u.2.next + 1 ∧
      resolveTiled "brick" ⟨2, 2⟩ start =
        (some copy, (u.1, { u.2 with next := u.2.next + 2 })) :=
    ⟨_, rfl, resolveTiled_some hbase _⟩
  have hput : copy.id < u.2.next + 2 := hcopy ▸ Nat.lt_succ_self _
  have hrun : Run Does start [.resolved "brick" (some copy), .inserted "brick" copy,
      .resolved "ghost" none, .resolved "brick" (some base), .tiled "brick" ⟨2, 2⟩ (some copy)]
      (insert "brick" copy (u.1, { u.2 with next := u.2.next + 2 })).2 :=
    .step (.step (.step (.step (.step .refl (.tiled heq)) (.resolved (resolve_handle hkept)))
      (.resolved (resolve_unknown hghost hnone))) (.inserted hput))
      (.resolved (resolve_handle ((find?_insert _ _ _ _).trans (if_pos rfl))))
  obtain ⟨⟨hpaths, -⟩, hsize, -⟩ := textures_over_runs hrun
  refine ⟨base, copy, _, hrun, hpaths.trans rfl, hpaths ▸ rfl, hsize, ?_, ?_⟩
  · exact resolve_handle ((find?_insert _ _ _ _).trans (if_pos rfl))
  · have hlt : base.id < u.2.next := hres.kept_lt (fun _ _ hx => by cases hx) "brick" base hkept
    exact Nat.ne_of_lt (hcopy ▸ Nat.lt_succ_of_lt hlt)

end Steps

end TextureRegistry

end SceneAssembly
