/-
  SceneAssembly/Table.lean
  ========================
  **Finite tables from names to values.**

  A table is a list of entries whose keys are pairwise different, which is
  part of its type.  `insert` replaces the value of a key it knows and appends
  an entry otherwise, so the keys keep the order of their first insertion and
  the last value written to a key is the one found (`find?_insert`).
-/

namespace SceneAssembly

/-- Entries with pairwise different keys. -/
structure Table (α : Type) where
  entries : List (String × α)
  nodup : (entries.map Prod.fst).Nodup

namespace Table

variable {α β : Type}

def empty : Table α := ⟨[], List.nodup_nil⟩

instance : Inhabited (Table α) := ⟨empty⟩
instance : EmptyCollection (Table α) := ⟨empty⟩

def keys (t : Table α) : List String := t.entries.map Prod.fst

def size (t : Table α) : Nat := t.entries.length

/-- The value stored under a key. -/
def find? (t : Table α) (key : String) : Option α := t.entries.lookup key

def contains (t : Table α) (key : String) : Bool := (t.find? key).isSome

/-! ## 1. Inserting -/

/-- Entries with the value of a known key replaced, or with a new entry at the end. -/
def put (key : String) (value : α) : List (String × α) → List (String × α)
  | [] => [(key, value)]
  | (k, v) :: rest => if k = key then (key, value) :: rest else (k, v) :: put key value rest

theorem mem_keys_put {key : String} {value : α} {l : List (String × α)} {k : String} :
    k ∈ (put key value l).map Prod.fst ↔ k = key ∨ k ∈ l.map Prod.fst := by
  induction l with
  | nil => simp [put]
  | cons e rest ih =>
    obtain ⟨k', v⟩ := e
    by_cases h : k' = key
    · simp [put, h]
    · simp only [put, if_neg h, List.map_cons, List.mem_cons, ih]
      exact ⟨fun | .inl h => .inr (.inl h) | .inr (.inl h) => .inl h | .inr (.inr h) => .inr (.inr h),
        fun | .inl h => .inr (.inl h) | .inr (.inl h) => .inl h | .inr (.inr h) => .inr (.inr h)⟩

theorem nodup_put {key : String} {value : α} {l : List (String × α)}
    (h : (l.map Prod.fst).Nodup) : ((put key value l).map Prod.fst).Nodup := by
  induction l with
  | nil => simp [put]
  | cons e rest ih =>
    obtain ⟨k, v⟩ := e
    rw [List.map_cons, List.nodup_cons] at h
    by_cases hk : k = key
    · simpa [put, hk] using ⟨hk ▸ by simpa using h.1, h.2⟩
    · rw [put, if_neg hk, List.map_cons, List.nodup_cons]
      refine ⟨fun hmem => ?_, ih h.2⟩
      rcases mem_keys_put.mp hmem with heq | hmem
      · exact hk heq
      · exact h.1 hmem

/-- Store a value under a key. -/
def insert (t : Table α) (key : String) (value : α) : Table α :=
  ⟨put key value t.entries, nodup_put t.nodup⟩

/-- The table that the entries leave when written one after the other. -/
def ofList (entries : List (String × α)) : Table α :=
  entries.foldl (fun t e => t.insert e.1 e.2) empty

theorem find?_insert (t : Table α) (key : String) (value : α) (k : String) :
    (t.insert key value).find? k = if k = key then some value else t.find? k := by
  obtain ⟨l, hl⟩ := t
  show (put key value l).lookup k = if k = key then some value else l.lookup k
  clear hl
  induction l with
  | nil => by_cases h : k = key <;> simp [put, List.lookup_cons, h, beq_eq_false_iff_ne.mpr]
  | cons e rest ih =>
    obtain ⟨k', v⟩ := e
    by_cases h' : k' = key
    · by_cases h : k = key
      · simp [put, h, h']
      · simp [put, h', List.lookup_cons, h, beq_eq_false_iff_ne.mpr]
    · by_cases h : k = k'
      · subst h; simp [put, h']
      · simp only [put, if_neg h', List.lookup_cons, beq_eq_false_iff_ne.mpr h, ih]

theorem mem_keys_iff {t : Table α} {key : String} : key ∈ t.keys ↔ (t.find? key).isSome := by
  obtain ⟨l, hl⟩ := t
  show key ∈ l.map Prod.fst ↔ (l.lookup key).isSome
  clear hl
  induction l with
  | nil => simp
  | cons e rest ih =>
    obtain ⟨k, v⟩ := e
    by_cases h : key = k
    · simp [h]
    · simp only [List.map_cons, List.mem_cons, h, false_or, List.lookup_cons,
        beq_eq_false_iff_ne.mpr h, ih]

theorem mem_keys_of_find? {t : Table α} {key : String} {value : α}
    (h : t.find? key = some value) : key ∈ t.keys :=
  mem_keys_iff.mpr (by simp [h])

/-! ## 2. Values and entries -/

/-- The table with each value replaced by a function of its key and itself. -/
def mapWithKey (f : String → α → β) (t : Table α) : Table β :=
  ⟨t.entries.map fun e => (e.1, f e.1 e.2), by
    have h := t.nodup
    simpa [List.map_map, Function.comp_def] using h⟩

/-- The entries in the order of their keys. -/
def sorted (t : Table α) : List (String × α) :=
  t.entries.mergeSort fun a b => decide (a.1 ≤ b.1)

/-- The entries that satisfy a test. -/
def filter (p : String → α → Bool) (t : Table α) : Table α :=
  ⟨t.entries.filter fun e => p e.1 e.2,
    List.Sublist.nodup (List.Sublist.map Prod.fst List.filter_sublist) t.nodup⟩

end Table

end SceneAssembly
