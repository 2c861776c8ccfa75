/-
  SceneAssembly/Proofs/Runs.lean
  ==============================
  **Runs of a system that takes steps.**

  A run goes from a state to a state by steps, each of which is an event.  The
  log of a run has its events, the latest one first, so that what a log says is
  defined by recursion along the run.  What every step keeps of a state and the
  log before it, a run keeps (`Run.invariant`); steps of some kind keep more
  (`Run.keeps_of_log`).

  Many systems do something for a name once, and remember the name.  A log tells
  what they did so far (`firstAsked`), never twice for a name
  (`nodup_firstAsked`), and how much they keep (`Table.size_eq_of_keys`).
-/
import Mathlib.Data.List.Dedup
import SceneAssembly.Table

namespace SceneAssembly

variable {Event State : Type}

/-! ## 1. Runs -/

/-- The state after a run, and its events, the latest one first. -/
inductive Run (Step : Event → State → State → Prop) (start : State) : List Event → State → Prop
  | refl : Run Step start [] start
  | step {e : Event} {log : List Event} {s t : State} (h : Run Step start log s) (hs : Step e s t) :
    Run Step start (e :: log) t

namespace Run

variable {Step : Event → State → State → Prop} {start s t : State} {log later : List Event}

/-- What holds of a state and of the log so far, and of both after any step, holds after a run. -/
theorem invariant {P : List Event → State → Prop} (h : Run Step start log s) (hstart : P [] start)
    (hkeep : ∀ {e log s t}, P log s → Step e s t → P (e :: log) t) : P log s := by
  induction h with
  | refl => exact hstart
  | step _ hs ih => exact hkeep ih hs

/-- A run whose events are all of some kind keeps what such steps keep. -/
theorem keeps_of_log {P : State → Prop} {Q : Event → Prop} (h : Run Step start log s)
    (hlog : ∀ e ∈ log, Q e) (hstart : P start) (hkeep : ∀ {e s t}, Q e → P s → Step e s t → P t) :
    P s := by
  induction h with
  | refl => exact hstart
  | step _ hs ih =>
    rw [List.forall_mem_cons] at hlog
    exact hkeep hlog.1 (ih hlog.2) hs

end Run

/-! ## 2. Logs -/

section Told

variable {α : Type} {told : Event → Option α} {e : Event} {log : List Event} {x : α}

/-- A log tells what its latest event tells, and what it told before. -/
theorem mem_told_cons :
    x ∈ (e :: log).filterMap told ↔ told e = some x ∨ x ∈ log.filterMap told := by
  rw [List.filterMap_cons]
  cases told e with
  | none => simp
  | some y => simp [eq_comm]

theorem told_ne_of_notMem (h : x ∉ log.filterMap told) : ∀ e ∈ log, told e ≠ some x :=
  fun e he heq => h (List.mem_filterMap.mpr ⟨e, he, heq⟩)

end Told

/-! ## 3. What is done once for a name -/

/-- What the events of a log ask for under a name that no event before has settled, the first such
thing first. -/
def firstAsked {α : Type} (asked : Event → Option α) (name : α → String)
    (settled : Event → Option String) : List Event → List α
  | [] => []
  | e :: log => firstAsked asked name settled log ++
      (asked e).toList.filter fun x => name x ∉ log.filterMap settled

section FirstAsked

variable {α : Type} {asked : Event → Option α} {name : α → String}
  {settled : Event → Option String} {log : List Event}

theorem mem_settled_of_firstAsked
    (h : ∀ e ∈ log, ∀ x, asked e = some x → settled e = some (name x)) {x : α}
    (hx : x ∈ firstAsked asked name settled log) : name x ∈ log.filterMap settled := by
  induction log with
  | nil => cases hx
  | cons e log ih =>
    rw [List.forall_mem_cons] at h
    rw [mem_told_cons]
    rcases List.mem_append.mp hx with hx | hx
    · exact .inr (ih h.2 hx)
    · have hasked : asked e = some x := Option.mem_toList.mp (List.mem_filter.mp hx).1
      exact .inl (h.1 x hasked)

/-- If asking for a name settles it, nothing is asked for twice under a name. -/
theorem nodup_firstAsked (h : ∀ e ∈ log, ∀ x, asked e = some x → settled e = some (name x)) :
    ((firstAsked asked name settled log).map name).Nodup := by
  induction log with
  | nil => exact List.nodup_nil
  | cons e log ih =>
    rw [List.forall_mem_cons] at h
    rw [firstAsked, List.map_append, List.nodup_append]
    refine ⟨ih h.2, ?_, ?_⟩
    · have hone : ((asked e).toList.map name).Nodup := by cases asked e <;> simp
      exact (List.filter_sublist.map name).nodup hone
    · intro key hkey key' hkey'
      obtain ⟨x, hx, rfl⟩ := List.mem_map.mp hkey
      obtain ⟨y, hy, rfl⟩ := List.mem_map.mp hkey'
      have hnew := (List.mem_filter.mp hy).2
      rw [decide_eq_true_eq] at hnew
      intro heq
      exact hnew (heq ▸ mem_settled_of_firstAsked h.2 hx)

end FirstAsked

/-- A table has as many entries as there are different names among those that are its keys. -/
theorem Table.size_eq_of_keys {α : Type} {t : Table α} {names : List String}
    (h : ∀ key, (t.find? key).isSome ↔ key ∈ names) : t.size = names.dedup.length := by
  have hperm : t.keys.Perm names.dedup := by
    apply (List.perm_ext_iff_of_nodup t.nodup (List.nodup_dedup names)).mpr
    intro key
    rw [List.mem_dedup, ← h key]
    exact Table.mem_keys_iff
  rw [← hperm.length_eq]
  exact (List.length_map _).symm

end SceneAssembly
