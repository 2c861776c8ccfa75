/-
  SceneAssembly/Proofs/ModelRuns.lean
  ===================================
  **A library of models over any run of calls.**

  The two tables of a library are inverse to each other (`IsIndex`): a path has
  the key of a template of that path, and every template is found under its
  path.  All calls change a library by `put` alone, or not at all, so a log tells
  which paths have a template (`registered`) and what the loader was asked for
  (`imports`).
-/
import SceneAssembly.Proofs.Models
import SceneAssembly.Proofs.Runs

namespace SceneAssembly

variable {K : Type}

theorem Table.size_insert_of_none {α : Type} {t : Table α} {key : String} (value : α)
    (h : t.find? key = none) : (t.insert key value).size = t.size + 1 := by
  have hnew : key ∉ t.keys := by
    intro hmem
    rw [Table.mem_keys_iff, h] at hmem
    cases hmem
  have hkeys : ∀ k, ((t.insert key value).find? k).isSome ↔ k ∈ key :: t.keys := by
    intro k
    rw [Table.find?_insert, List.mem_cons, Table.mem_keys_iff]
    by_cases hk : k = key <;> simp [hk]
  have hnodup : t.keys.Nodup := t.nodup
  rw [Table.size_eq_of_keys hkeys, List.dedup_cons_of_notMem hnew, hnodup.dedup, List.length_cons]
  exact congrArg (· + 1) (List.length_map _)

namespace ModelLibrary

/-! ## 1. Paths and keys -/

/-- Each path has the key of a template of that path, and each template is found under its path. -/
structure IsIndex (l : ModelLibrary K) : Prop where
  filed : ∀ {path key}, l.keys.find? path = some key →
    ∃ t, l.get? key = some t ∧ t.value.path = path
  reached : ∀ {key t}, l.get? key = some t → l.keys.find? t.value.path = some key
  size_eq : l.keys.size = l.size

section Put

variable {l : ModelLibrary K} {t : Shared (ModelTemplate K)} {key : ModelKey}

theorem put_known (h : l.keys.find? t.value.path = some key) :
    l.put t = (key, { l with templates := l.templates.modify key fun _ => t }) := by
  unfold put
  rw [h]

theorem put_new (h : l.keys.find? t.value.path = none) :
    l.put t = (l.templates.size, { l with
      templates := l.templates.push t
      keys := l.keys.insert t.value.path l.templates.size }) := by
  unfold put
  rw [h]

/-- What `put` does to the keys. -/
theorem keys_put (l : ModelLibrary K) (t : Shared (ModelTemplate K)) (path : String) :
    (l.put t).2.keys.find? path =
      if path = t.value.path then some (l.put t).1 else l.keys.find? path := by
  cases h : l.keys.find? t.value.path with
  | some key =>
    rw [put_known h]
    split
    next heq => rw [heq, h]
    next => rfl
  | none =>
    rw [put_new h]
    exact Table.find?_insert _ _ _ _

@[simp] theorem put_loads (l : ModelLibrary K) (t : Shared (ModelTemplate K)) :
    (l.put t).2.loads = l.loads := by
  unfold put
  split <;> rfl

end Put

namespace IsIndex

variable {l : ModelLibrary K}

theorem start (loader : Option (ModelLoader K)) : IsIndex { empty with loader := loader } where
  filed h := by cases h
  reached h := by simp [get?, empty] at h
  size_eq := rfl

/-- Different paths have different keys. -/
theorem apart (h : l.IsIndex) {path path' : String} {key : ModelKey}
    (hpath : l.keys.find? path = some key) (hpath' : l.keys.find? path' = some key) :
    path = path' := by
  obtain ⟨t, ht, rfl⟩ := h.filed hpath
  obtain ⟨t', ht', rfl⟩ := h.filed hpath'
  rw [ht] at ht'
  rw [Option.some.inj ht']

theorem key_lt (h : l.IsIndex) {path : String} {key : ModelKey}
    (hpath : l.keys.find? path = some key) : key < l.templates.size := by
  obtain ⟨t, ht, -⟩ := h.filed hpath
  exact (Array.getElem?_eq_some_iff.mp ht).1

theorem find?_eq_none_iff (h : l.IsIndex) {path : String} :
    l.find? path = none ↔ l.keys.find? path = none := by
  unfold ModelLibrary.find?
  cases hpath : l.keys.find? path with
  | none => simp
  | some key =>
    obtain ⟨t, ht, -⟩ := h.filed hpath
    simp [ht]

/-- What `put` does to the templates. -/
theorem get?_put (h : l.IsIndex) (t : Shared (ModelTemplate K)) (key : ModelKey) :
    (l.put t).2.get? key = if key = (l.put t).1 then some t else l.get? key := by
  cases hpath : l.keys.find? t.value.path with
  | some old =>
    have hlt := h.key_lt hpath
    rw [put_known hpath]
    by_cases hkey : key = old
    · simp [get?, Array.getElem_modify, hkey, hlt]
    · simp [get?, Array.getElem?_modify, hkey, Ne.symm hkey]
  | none =>
    rw [put_new hpath]
    exact Array.getElem?_push

/-- The key of another path is not the one that `put` gives. -/
theorem ne_put_key (h : l.IsIndex) {t : Shared (ModelTemplate K)} {path : String} {key : ModelKey}
    (hpath : l.keys.find? path = some key) (hne : path ≠ t.value.path) : key ≠ (l.put t).1 := by
  intro hkey
  cases hold : l.keys.find? t.value.path with
  | some old =>
    rw [put_known hold] at hkey
    subst hkey
    exact hne (h.apart hpath hold)
  | none =>
    rw [put_new hold] at hkey
    exact Nat.ne_of_lt (h.key_lt hpath) hkey

theorem get?_put_of_ne (h : l.IsIndex) {t u : Shared (ModelTemplate K)} {key : ModelKey}
    (hu : l.get? key = some u) (hne : u.value.path ≠ t.value.path) :
    (l.put t).2.get? key = some u := by
  rw [h.get?_put, if_neg (h.ne_put_key (h.reached hu) hne), hu]

/-- A template is found under its path. -/
theorem find?_of_get? (h : l.IsIndex) {t : Shared (ModelTemplate K)} {key : ModelKey}
    (ht : l.get? key = some t) : l.find? t.value.path = some t := by
  unfold ModelLibrary.find?
  rw [h.reached ht, Option.bind_some, ht]

/-- What `put` does to a look-up by path. -/
theorem find?_put (h : l.IsIndex) (t : Shared (ModelTemplate K)) (path : String) :
    (l.put t).2.find? path = if path = t.value.path then some t else l.find? path := by
  unfold ModelLibrary.find?
  rw [keys_put]
  split
  next => simp [h.get?_put]
  next hne =>
    cases hpath : l.keys.find? path with
    | none => rfl
    | some key =>
      rw [Option.bind_some, Option.bind_some, h.get?_put, if_neg (h.ne_put_key hpath hne)]

theorem put (h : l.IsIndex) (t : Shared (ModelTemplate K)) : (l.put t).2.IsIndex where
  filed {path key} hpath := by
    rw [keys_put] at hpath
    split at hpath
    next heq =>
      cases hpath
      exact ⟨t, by rw [h.get?_put, if_pos rfl], heq.symm⟩
    next hne =>
      obtain ⟨u, hu, hpath'⟩ := h.filed hpath
      exact ⟨u, by rw [h.get?_put, if_neg (h.ne_put_key hpath hne), hu], hpath'⟩
  reached {key u} hu := by
    rw [h.get?_put] at hu
    rw [keys_put]
    split at hu
    next heq =>
      cases hu
      rw [if_pos rfl, heq]
    next hne =>
      have hkey := h.reached hu
      rw [if_neg, hkey]
      intro hpath
      rw [put_known (hpath ▸ hkey)] at hne
      exact hne rfl
  size_eq := by
    cases hpath : l.keys.find? t.value.path with
    | some key =>
      rw [put_known hpath]
      exact h.size_eq.trans Array.size_modify.symm
    | none =>
      rw [put_new hpath]
      refine (Table.size_insert_of_none _ hpath).trans ?_
      rw [h.size_eq]
      exact (Array.size_push _).symm

/-- What the loader was asked for does not matter. -/
theorem asking (h : l.IsIndex) (path : String) : (l.asking path).IsIndex :=
  ⟨h.filed, h.reached, h.size_eq⟩

end IsIndex

/-! ## 2. One request -/

namespace Served

variable {l l' : ModelLibrary K} {path assetDir : String} {a b : Arena}
  {found : Except (Diagnostic K) (Shared (ModelTemplate K))}

theorem isIndex (h : Served l path assetDir a found l' b) (hl : l.IsIndex) : l'.IsIndex := by
  cases h with
  | kept => exact hl
  | unavailable => exact hl
  | failed => exact hl.asking _
  | imported => exact (hl.asking _).put _

/-- A request that fails leaves the library without the model, and as it was. -/
theorem of_error (h : Served l path assetDir a found l' b) {d : Diagnostic K}
    (hd : found = .error d) :
    l.find? path = none ∧ l'.templates = l.templates ∧ l'.keys = l.keys ∧
      ((l.loader = none ∧ d = .resource path "no model loader configured") ∨
        ∃ load, l.loader = some load ∧ (load (AssetPath.join assetDir path) a).1 = .error d) := by
  cases h with
  | kept => cases hd
  | unavailable hnone hload =>
    cases hd
    exact ⟨hnone, rfl, rfl, .inl ⟨hload, rfl⟩⟩
  | failed hnone hload heq =>
    cases hd
    exact ⟨hnone, rfl, rfl, .inr ⟨_, hload, by rw [heq]⟩⟩
  | imported => cases hd

/-- A request that succeeds has the template that was there, or the model from the loader. -/
theorem of_ok (h : Served l path assetDir a found l' b) {t : Shared (ModelTemplate K)}
    (ht : found = .ok t) :
    (l.find? path = some t ∧ l' = l) ∨
      l.find? path = none ∧ ∃ load root, l.loader = some load ∧
        (load (AssetPath.join assetDir path) a).1 = .ok root ∧ t.value = ⟨path, root⟩ ∧
        l' = ((l.asking (AssetPath.join assetDir path)).put t).2 := by
  cases h with
  | kept hfind =>
    cases ht
    exact .inl ⟨hfind, rfl⟩
  | unavailable => cases ht
  | failed => cases ht
  | imported hnone hload heq =>
    cases ht
    exact .inr ⟨hnone, _, _, hload, by rw [heq], rfl, rfl⟩

section Answers

variable {t : Shared (ModelTemplate K)} {load : ModelLoader K}

theorem of_find? (h : Served l path assetDir a found l' b) (ht : l.find? path = some t) :
    found = .ok t ∧ l' = l := by
  cases hfound : found with
  | error d =>
    obtain ⟨hnone, -⟩ := h.of_error hfound
    rw [ht] at hnone
    cases hnone
  | ok u =>
    rcases h.of_ok hfound with ⟨hu, hl⟩ | ⟨hnone, -⟩
    · rw [ht] at hu
      exact ⟨congrArg _ (Option.some.inj hu).symm, hl⟩
    · rw [ht] at hnone
      cases hnone

theorem of_loader_none (h : Served l path assetDir a found l' b) (hnone : l.find? path = none)
    (hload : l.loader = none) : found = .error (.resource path "no model loader configured") := by
  cases h with
  | kept ht => rw [ht] at hnone; cases hnone
  | unavailable => rfl
  | failed _ hsome => rw [hload] at hsome; cases hsome
  | imported _ hsome => rw [hload] at hsome; cases hsome

theorem of_load (h : Served l path assetDir a found l' b) (hnone : l.find? path = none)
    (hload : l.loader = some load) :
    (∀ d, (load (AssetPath.join assetDir path) a).1 = .error d → found = .error d) ∧
      ∀ root, (load (AssetPath.join assetDir path) a).1 = .ok root →
        ∃ t, found = .ok t ∧ t.value = ⟨path, root⟩ := by
  cases h with
  | kept ht => rw [ht] at hnone; cases hnone
  | unavailable _ hmissing => rw [hload] at hmissing; cases hmissing
  | failed _ hsome heq =>
    rw [hload] at hsome
    cases hsome
    rw [heq]
    exact ⟨fun d hd => congrArg _ (Except.error.inj hd), nofun⟩
  | imported _ hsome heq =>
    rw [hload] at hsome
    cases hsome
    rw [heq]
    exact ⟨nofun, fun root hroot => ⟨_, rfl, congrArg _ (Except.ok.inj hroot)⟩⟩

end Answers

/-- A request leaves all templates in their places. -/
theorem keeps (h : Served l path assetDir a found l' b) (hl : l.IsIndex)
    {u : Shared (ModelTemplate K)} {key : ModelKey} (hu : l.get? key = some u) :
    l'.get? key = some u := by
  cases h with
  | kept => exact hu
  | unavailable => exact hu
  | failed => exact hu
  | imported hnone =>
    refine (hl.asking _).get?_put_of_ne hu fun heq => ?_
    have hfind := hl.find?_of_get? hu
    rw [heq, hnone] at hfind
    cases hfind

theorem loads_eq (h : Served l path assetDir a found l' b) :
    l'.loads = l.loads ++
      if (l.find? path).isNone ∧ l.loader.isSome then [AssetPath.join assetDir path] else [] := by
  cases h with
  | kept hfind => simp [hfind]
  | unavailable _ hload => simp [hload]
  | failed hnone hload => simp [hnone, hload, asking]
  | imported hnone hload => simp [hnone, hload, asking]

theorem find?_of_ne (h : Served l path assetDir a found l' b) (hl : l.IsIndex) {path' : String}
    (hne : path' ≠ path) : l'.find? path' = l.find? path' := by
  cases h with
  | kept => rfl
  | unavailable => rfl
  | failed => rfl
  | imported => exact ((hl.asking _).find?_put _ path').trans (if_neg hne)

theorem find?_of_ok (h : Served l path assetDir a found l' b) (hl : l.IsIndex)
    {t : Shared (ModelTemplate K)} (ht : found = .ok t) : l'.find? path = some t := by
  rcases h.of_ok ht with ⟨hfind, rfl⟩ | ⟨-, load, root, -, -, hvalue, rfl⟩
  · exact hfind
  · rw [(hl.asking _).find?_put, hvalue, if_pos rfl]

/-- After a request its path has what the request found. -/
theorem find?_eq (h : Served l path assetDir a found l' b) (hl : l.IsIndex) :
    l'.find? path = found.toOption := by
  cases hfound : found with
  | error d =>
    obtain ⟨hnone, htemplates, hkeys, -⟩ := h.of_error hfound
    unfold ModelLibrary.find? ModelLibrary.get? at hnone ⊢
    rw [htemplates, hkeys, hnone]
    rfl
  | ok t => exact h.find?_of_ok hl hfound

theorem isSome_iff (h : Served l path assetDir a found l' b) (hl : l.IsIndex) (path' : String) :
    (l'.find? path').isSome ↔
      (found.toOption.isSome ∧ path' = path) ∨ (l.find? path').isSome := by
  by_cases hpath : path' = path
  · subst hpath
    rw [h.find?_eq hl]
    cases hfound : found with
    | error d => simp [(h.of_error hfound).1, Except.toOption]
    | ok t => simp [Except.toOption]
  · rw [h.find?_of_ne hl hpath]
    simp [hpath]

end Served

/-- An instance is there if the template is, and leaves the same library. -/
theorem instantiate_template [Scalar K] (l : ModelLibrary K) (path assetDir : String)
    (parent : Shared (Affine K)) (a : Arena) :
    (l.instantiate path assetDir parent a).1.2 = (l.template path assetDir a).1.2 ∧
      ∀ d, (l.instantiate path assetDir parent a).1.1 = .error d ↔
        (l.template path assetDir a).1.1 = .error d := by
  obtain ⟨found, l', b, heq⟩ : ∃ found l' b, l.template path assetDir a = ((found, l'), b) :=
    ⟨_, _, _, rfl⟩
  simp only [instantiate, bind, StateT.bind, heq]
  cases found with
  | error e =>
    refine ⟨rfl, fun d => ?_⟩
    constructor
    · exact fun h => congrArg _ (Except.error.inj h)
    · exact fun h => congrArg _ (Except.error.inj h)
  | ok t =>
    refine ⟨rfl, fun d => ?_⟩
    constructor
    · intro h
      cases h
    · intro h
      cases h

/-! ## 3. Calls and logs -/

/-- A call with its answer, or work that leaves the library alone. -/
inductive Call (K : Type) where
  | inserted (path : String) (root : SceneNode K) (key : ModelKey)
  | got (key : ModelKey) (found : Option (Shared (ModelTemplate K)))
  | found (path : String) (found : Option (Shared (ModelTemplate K)))
  | requested (path assetDir : String)
    (answer : Except (Diagnostic K) (Shared (ModelTemplate K)))
  | instantiated (path assetDir : String) (parent : Shared (Affine K))
    (answer : Except (Diagnostic K) (SceneNode K))
  | elsewhere

namespace Call

/-- The path whose model a call asks for, and the directory of assets. -/
def asked? : Call K → Option (String × String)
  | requested path assetDir _ => some (path, assetDir)
  | instantiated path assetDir _ _ => some (path, assetDir)
  | _ => none

def inserted? : Call K → Option String
  | inserted path _ _ => some path
  | _ => none

def failed : Call K → Bool
  | requested _ _ (.error _) => true
  | instantiated _ _ _ (.error _) => true
  | _ => false

/-- The path that a call leaves with a template. -/
def registered? (e : Call K) : Option String :=
  if e.failed then none else (e.asked?.map Prod.fst).or e.inserted?

/-- The paths that the loader is asked for in a call. -/
def wanted (e : Call K) (l : ModelLibrary K) : List String :=
  match e.asked? with
  | none => []
  | some (path, assetDir) =>
    if (l.find? path).isNone ∧ l.loader.isSome then [AssetPath.join assetDir path] else []

end Call

/-- The paths inserted, or asked for with success. -/
def registered (log : List (Call K)) : List String := log.filterMap Call.registered?

/-- The paths that models were put in under. -/
def insertedPaths (log : List (Call K)) : List String := log.filterMap Call.inserted?

/-- The paths asked for, each with the directory of assets, when they had no template, the first one
first. -/
def imports (log : List (Call K)) : List (String × String) :=
  firstAsked Call.asked? Prod.fst Call.registered? log

/-- If nothing fails, no path is imported twice. -/
theorem nodup_imports {log : List (Call K)} (h : ∀ e ∈ log, e.failed = false) :
    ((imports log).map Prod.fst).Nodup := by
  apply nodup_firstAsked
  intro e he x hx
  simp [Call.registered?, h e he, hx]

/-- What a log tells of the library that it leads to. -/
structure Recorded (loader : Option (ModelLoader K)) (log : List (Call K)) (l : ModelLibrary K) :
    Prop where
  index : l.IsIndex
  loader_eq : l.loader = loader
  isSome_iff : ∀ path, (l.find? path).isSome ↔ path ∈ registered log
  loads_eq : l.loads =
    if loader.isSome then (imports log).map fun (path, assetDir) => AssetPath.join assetDir path
    else []

namespace Recorded

variable {loader : Option (ModelLoader K)} {log : List (Call K)} {l : ModelLibrary K}

theorem size_eq (h : Recorded loader log l) : l.size = (registered log).dedup.length := by
  rw [← h.index.size_eq]
  apply Table.size_eq_of_keys
  intro path
  rw [← h.isSome_iff, ← not_iff_not, Option.not_isSome_iff_eq_none, Option.not_isSome_iff_eq_none]
  exact h.index.find?_eq_none_iff.symm

/-- What a call asks for that is new to a log is what the loader is asked for. -/
theorem wanted_eq (h : Recorded loader log l) (e : Call K) :
    e.wanted l = if loader.isSome then
      (e.asked?.toList.filter fun x => x.1 ∉ registered log).map
        fun (path, assetDir) => AssetPath.join assetDir path
    else [] := by
  unfold Call.wanted
  rw [h.loader_eq]
  cases e.asked? with
  | none => simp
  | some x =>
    obtain ⟨path, assetDir⟩ := x
    have hiff := h.isSome_iff path
    by_cases hpath : path ∈ registered log
    · simp [hpath, Option.isSome_iff_ne_none.mp (hiff.mpr hpath)]
    · have hnone : l.find? path = none :=
        Option.not_isSome_iff_eq_none.mp (mt hiff.mp hpath)
      simp [hpath, hnone]

end Recorded

/-! ## 4. What a call does -/

/-- A call that asks for a model is served, and fails when that does. -/
structure Answers (e : Call K) (path assetDir : String) (s t : ModelLibrary K × Arena)
    (found : Except (Diagnostic K) (Shared (ModelTemplate K))) (b : Arena) : Prop where
  asked : e.asked? = some (path, assetDir)
  inserted : e.inserted? = none
  failed : e.failed = found.toOption.isNone
  served : Served s.1 path assetDir s.2 found t.1 b

theorem Answers.registered?_eq {e : Call K} {path assetDir : String}
    {s t : ModelLibrary K × Arena} {found : Except (Diagnostic K) (Shared (ModelTemplate K))}
    {b : Arena} (h : Answers e path assetDir s t found b) :
    e.registered? = found.toOption.map fun _ => path := by
  rw [Call.registered?, h.failed, h.asked]
  cases found <;> rfl

section Steps

variable [Scalar K]

/-- The calls of a library.  Work elsewhere makes objects and may fill pixel sources. -/
inductive Does : Call K → ModelLibrary K × Arena → ModelLibrary K × Arena → Prop
  | inserted {path : String} {root : SceneNode K} {key : ModelKey} {l l' : ModelLibrary K}
      {a b : Arena} (h : l.insert path root a = ((key, l'), b)) :
    Does (.inserted path root key) (l, a) (l', b)
  | got {key : ModelKey} {found : Option (Shared (ModelTemplate K))} {l : ModelLibrary K}
      {a : Arena} (h : l.get? key = found) : Does (.got key found) (l, a) (l, a)
  | found {path : String} {found : Option (Shared (ModelTemplate K))} {l : ModelLibrary K}
      {a : Arena} (h : l.find? path = found) : Does (.found path found) (l, a) (l, a)
  | requested {path assetDir : String} {answer : Except (Diagnostic K) (Shared (ModelTemplate K))}
      {l l' : ModelLibrary K} {a b : Arena} (h : l.template path assetDir a = ((answer, l'), b)) :
    Does (.requested path assetDir answer) (l, a) (l', b)
  | instantiated {path assetDir : String} {parent : Shared (Affine K)}
      {answer : Except (Diagnostic K) (SceneNode K)} {l l' : ModelLibrary K} {a b : Arena}
      (h : l.instantiate path assetDir parent a = ((answer, l'), b)) :
    Does (.instantiated path assetDir parent answer) (l, a) (l', b)
  | elsewhere {l : ModelLibrary K} {a b : Arena} : Does .elsewhere (l, a) (l, b)

variable {e : Call K} {s t : ModelLibrary K × Arena} {path assetDir : String}

theorem Does.cases (h : Does e s t) :
    (∃ path assetDir found b, Answers e path assetDir s t found b) ∨
    (∃ path root key x, e = .inserted path root key ∧ x.value = ⟨path, root⟩ ∧
      s.1.put x = (key, t.1)) ∨
    (e.asked? = none ∧ e.inserted? = none ∧ e.failed = false ∧ t.1 = s.1) := by
  cases h with
  | @inserted path root key l l' a b h =>
    have hput : l.put ⟨a.next, ⟨path, root⟩⟩ = (key, l') := congrArg Prod.fst h
    exact .inr (.inl ⟨path, root, key, _, rfl, rfl, hput⟩)
  | got => exact .inr (.inr ⟨rfl, rfl, rfl, rfl⟩)
  | found => exact .inr (.inr ⟨rfl, rfl, rfl, rfl⟩)
  | @requested path assetDir answer l l' a b h =>
    have hserved := template_served l path assetDir a
    rw [h] at hserved
    refine .inl ⟨path, assetDir, answer, b, rfl, rfl, ?_, hserved⟩
    cases answer <;> rfl
  | @instantiated path assetDir parent answer l l' a b h =>
    obtain ⟨found, b', hserved, ⟨d, rfl, rfl, -⟩ | ⟨t, n, rfl, -, rfl⟩⟩ := instantiate_served h
    · exact .inl ⟨path, assetDir, _, b', rfl, rfl, rfl, hserved⟩
    · exact .inl ⟨path, assetDir, _, b', rfl, rfl, rfl, hserved⟩
  | elsewhere => exact .inr (.inr ⟨rfl, rfl, rfl, rfl⟩)

namespace Does

theorem index (h : Does e s t) (hs : s.1.IsIndex) : t.1.IsIndex := by
  rcases h.cases with ⟨path, assetDir, found, b, ha⟩ | ⟨path, root, key, x, -, -, hput⟩ |
    ⟨-, -, -, ht⟩
  · exact ha.served.isIndex hs
  · have := hs.put x
    rwa [hput] at this
  · rwa [ht]

theorem loader_eq (h : Does e s t) : t.1.loader = s.1.loader := by
  rcases h.cases with ⟨path, assetDir, found, b, ha⟩ | ⟨path, root, key, x, -, -, hput⟩ |
    ⟨-, -, -, ht⟩
  · exact ha.served.loader
  · have := put_loader s.1 x
    rwa [hput] at this
  · rw [ht]

/-- The loader is asked in a call for a path that has no template, if there is a loader. -/
theorem loads_eq (h : Does e s t) : t.1.loads = s.1.loads ++ e.wanted s.1 := by
  rcases h.cases with ⟨path, assetDir, found, b, ha⟩ | ⟨path, root, key, x, rfl, -, hput⟩ |
    ⟨hasked, -, -, ht⟩
  · rw [ha.served.loads_eq, Call.wanted, ha.asked]
  · have := put_loads s.1 x
    rw [hput] at this
    exact this.trans (List.append_nil _).symm
  · rw [ht, Call.wanted, hasked, List.append_nil]

theorem isSome_iff (h : Does e s t) (hs : s.1.IsIndex) (path : String) :
    (t.1.find? path).isSome ↔ e.registered? = some path ∨ (s.1.find? path).isSome := by
  rcases h.cases with ⟨path', assetDir, found, b, ha⟩ | ⟨path', root, key, x, rfl, hx, hput⟩ |
    ⟨hasked, hinserted, -, ht⟩
  · rw [ha.served.isSome_iff hs, ha.registered?_eq]
    cases found <;> simp [Except.toOption, @eq_comm _ path]
  · have := hs.find?_put x path
    rw [hput, hx] at this
    rw [this]
    by_cases hpath : path = path'
    · simp [Call.registered?, Call.failed, Call.asked?, Call.inserted?, hpath]
    · simp [Call.registered?, Call.failed, Call.asked?, Call.inserted?, hpath, Ne.symm hpath]
  · simp [Call.registered?, hasked, hinserted, ht]

/-- A call leaves a template in its place, unless it puts another one there. -/
theorem keeps (h : Does e s t) (hs : s.1.IsIndex) {x : Shared (ModelTemplate K)} {key : ModelKey}
    (hne : e.inserted? ≠ some x.value.path) (hx : s.1.get? key = some x) :
    t.1.get? key = some x := by
  rcases h.cases with ⟨path, assetDir, found, b, ha⟩ | ⟨path, root, key', y, rfl, hy, hput⟩ |
    ⟨-, -, -, ht⟩
  · exact ha.served.keeps hs hx
  · have hpath : x.value.path ≠ y.value.path := by
      rw [hy]
      exact fun heq => hne (heq ▸ rfl)
    have := hs.get?_put_of_ne hx hpath
    rwa [hput] at this
  · rwa [ht]

/-- A call that fails leaves the templates and the keys as they were. -/
theorem of_failed (h : Does e s t) (he : e.failed) :
    t.1.templates = s.1.templates ∧ t.1.keys = s.1.keys := by
  rcases h.cases with ⟨path, assetDir, found, b, ha⟩ | ⟨path, root, key, x, rfl, -, -⟩ |
    ⟨-, -, hfine, -⟩
  · rw [ha.failed] at he
    cases found with
    | error d =>
      obtain ⟨-, htemplates, hkeys, -⟩ := ha.served.of_error rfl
      exact ⟨htemplates, hkeys⟩
    | ok x => cases he
  · cases he
  · rw [hfine] at he
    cases he

end Does

/-! ## 5. Runs -/

theorem Recorded.does {loader : Option (ModelLoader K)} {log : List (Call K)}
    (h : Recorded loader log s.1) (hdoes : Does e s t) : Recorded loader (e :: log) t.1 where
  index := hdoes.index h.index
  loader_eq := hdoes.loader_eq.trans h.loader_eq
  isSome_iff path := by
    rw [hdoes.isSome_iff h.index, h.isSome_iff, registered, registered, mem_told_cons]
  loads_eq := by
    rw [hdoes.loads_eq, h.loads_eq, h.wanted_eq, imports, imports, firstAsked, List.map_append]
    split
    · rfl
    · rfl

theorem recorded_of_run {loader : Option (ModelLoader K)} {a : Arena} {log : List (Call K)}
    (h : Run Does ({ empty with loader := loader }, a) log s) : Recorded loader log s.1 := by
  apply h.invariant (P := fun log s => Recorded loader log s.1)
  · refine ⟨.start loader, rfl, fun path => ?_, ?_⟩
    · simp [find?, empty, Table.empty, Table.find?, registered]
    · simp [empty, imports, firstAsked]
  · exact Recorded.does

/-- Without another model put in under its path, a template stays where it is. -/
theorem get?_of_run {log : List (Call K)} {x : Shared (ModelTemplate K)} {key : ModelKey}
    (h : Run Does s log t) (hs : s.1.IsIndex) (hx : s.1.get? key = some x)
    (hlog : x.value.path ∉ insertedPaths log) : t.1.IsIndex ∧ t.1.get? key = some x := by
  let Same (t : ModelLibrary K × Arena) : Prop := t.1.IsIndex ∧ t.1.get? key = some x
  refine h.keeps_of_log (P := Same) (told_ne_of_notMem hlog) ⟨hs, hx⟩ fun hne ⟨hindex, hget⟩ hdoes => ?_
  exact ⟨hdoes.index hindex, hdoes.keeps hindex hne hget⟩

/-- **A library over any run of calls.**  Paths and templates are one to one, and as many models are
kept as there are paths inserted or asked for with success.  The loader is asked in a call for a
path without a template, so without failures once for each path; a call that fails changes neither
the templates nor the keys.  A model that is put in has the key of its path for good, and is what
the key and the path give until another one is put in. -/
theorem libraries_over_runs {loader : Option (ModelLoader K)} {a : Arena} {log : List (Call K)}
    (h : Run Does ({ empty with loader := loader }, a) log s) :
    s.1.IsIndex ∧
    (∀ path path' key, s.1.keys.find? path = some key → s.1.keys.find? path' = some key →
      path = path') ∧
    s.1.size = (registered log).dedup.length ∧
    (s.1.loads = if loader.isSome then
      (imports log).map fun (path, assetDir) => AssetPath.join assetDir path else []) ∧
    ((∀ e ∈ log, e.failed = false) → ((imports log).map Prod.fst).Nodup) ∧
    (∀ e t, Does e s t →
      t.1.loads = s.1.loads ++ e.wanted s.1 ∧
      (e.failed → t.1.templates = s.1.templates ∧ t.1.keys = s.1.keys ∧ t.1.size = s.1.size)) ∧
    (∀ path assetDir found l b, s.1.template path assetDir s.2 = ((found, l), b) →
      (∀ t, s.1.find? path = some t → found = .ok t ∧ l = s.1) ∧
      (s.1.find? path = none → loader = none →
        found = .error (.resource path "no model loader configured")) ∧
      (∀ load d, s.1.find? path = none → loader = some load →
        (load (AssetPath.join assetDir path) s.2).1 = .error d → found = .error d) ∧
      (∀ load root, s.1.find? path = none → loader = some load →
        (load (AssetPath.join assetDir path) s.2).1 = .ok root →
        ∃ t, found = .ok t ∧ t.value = ⟨path, root⟩) ∧
      l.find? path = found.toOption) ∧
    (∀ path assetDir parent,
      (s.1.instantiate path assetDir parent s.2).1.2 = (s.1.template path assetDir s.2).1.2 ∧
      ∀ d, (s.1.instantiate path assetDir parent s.2).1.1 = .error d ↔
        (s.1.template path assetDir s.2).1.1 = .error d) ∧
    ∀ path root key l b, s.1.insert path root s.2 = ((key, l), b) →
      (∀ old, s.1.keys.find? path = some old → key = old) ∧
      ∃ x, x.value = ⟨path, root⟩ ∧ ∀ later t, Run Does (l, b) later t →
        path ∉ insertedPaths later → t.1.get? key = some x ∧ t.1.find? path = some x := by
  have hrec := recorded_of_run h
  have hindex := hrec.index
  refine ⟨hindex, fun path path' key => hindex.apart, hrec.size_eq, hrec.loads_eq, nodup_imports,
    ?_, ?_, ?_, ?_⟩
  · intro e t hdoes
    refine ⟨hdoes.loads_eq, fun hfailed => ?_⟩
    obtain ⟨htemplates, hkeys⟩ := hdoes.of_failed hfailed
    exact ⟨htemplates, hkeys, congrArg Array.size htemplates⟩
  · intro path assetDir found l b heq
    have hserved := template_served s.1 path assetDir s.2
    rw [heq] at hserved
    rw [← hrec.loader_eq]
    refine ⟨fun t => hserved.of_find?, hserved.of_loader_none, ?_, ?_,
      hserved.find?_eq hindex⟩
    · exact fun load d hnone hload => (hserved.of_load hnone hload).1 d
    · exact fun load root hnone hload => (hserved.of_load hnone hload).2 root
  · exact fun path assetDir parent => instantiate_template s.1 path assetDir parent s.2
  · intro path root key l b hinsert
    have hput : s.1.put ⟨s.2.next, ⟨path, root⟩⟩ = (key, l) := congrArg Prod.fst hinsert
    refine ⟨fun old hold => ?_, ⟨s.2.next, ⟨path, root⟩⟩, rfl, fun later t hrun hlater => ?_⟩
    · rw [put_known hold] at hput
      exact (congrArg Prod.fst hput).symm
    · have hindex' := hindex.put ⟨s.2.next, ⟨path, root⟩⟩
      have hget := hindex.get?_put ⟨s.2.next, ⟨path, root⟩⟩ key
      rw [hput] at hindex' hget
      rw [if_pos rfl] at hget
      obtain ⟨hlast, hkept⟩ := get?_of_run hrun hindex' hget hlater
      exact ⟨hkept, hlast.find?_of_get? hkept⟩

/-- A node with nothing in it. -/
def bareModel (name : String) : SceneNode Float32 := .bare name none ⟨0, Affine.identity⟩

theorem libraries_over_runs_replaced :
    ∃ (key : ModelKey) (bus car : Shared (ModelTemplate Float32))
      (s : ModelLibrary Float32 × Arena),
      Run Does ({ empty with loader := some fun path => return .ok (bareModel path) }, .empty)
        [.found "car" (some car), .inserted "car" (bareModel "new") key,
          .requested "bus" "models" (.ok bus), .inserted "car" (bareModel "old") key,
          .requested "bus" "models" (.ok bus)] s ∧
      s.1.size = 2 ∧ s.1.loads = [AssetPath.join "models" "bus"] ∧
      s.1.get? key = some car ∧ car.value = ⟨"car", bareModel "new"⟩ := by
  let bus : Shared (ModelTemplate Float32) := ⟨0, "bus", bareModel (AssetPath.join "models" "bus")⟩
  let car : Shared (ModelTemplate Float32) := ⟨2, "car", bareModel "new"⟩
  let start : ModelLibrary Float32 × Arena :=
    ({ empty with loader := some fun path => return .ok (bareModel path) }, .empty)
  let s₁ := start.1.template "bus" "models" start.2
  let s₂ := s₁.1.2.insert "car" (bareModel "old") s₁.2
  let s₃ := s₂.1.2.template "bus" "models" s₂.2
  let s₄ := s₃.1.2.insert "car" (bareModel "new") s₃.2
  have h₁ : Does (.requested "bus" "models" (.ok bus)) start (s₁.1.2, s₁.2) := .requested rfl
  have h₂ : Does (.inserted "car" (bareModel "old") 1) (s₁.1.2, s₁.2) (s₂.1.2, s₂.2) :=
    .inserted rfl
  have h₃ : Does (.requested "bus" "models" (.ok bus)) (s₂.1.2, s₂.2) (s₃.1.2, s₃.2) :=
    .requested rfl
  have h₄ : Does (.inserted "car" (bareModel "new") 1) (s₃.1.2, s₃.2) (s₄.1.2, s₄.2) :=
    .inserted rfl
  have hget : s₄.1.2.get? 1 = some car := rfl
  have h₅ : Does (.found "car" (some car)) (s₄.1.2, s₄.2) (s₄.1.2, s₄.2) := .found hget
  have hrun := Run.step (.step (.step (.step (.step .refl h₁) h₂) h₃) h₄) h₅
  obtain ⟨-, -, hsize, hloads, -⟩ := libraries_over_runs hrun
  exact ⟨1, bus, car, _, hrun, hsize, hloads, hget, rfl⟩

end Steps

end ModelLibrary

end SceneAssembly
