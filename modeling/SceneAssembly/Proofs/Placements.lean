/-
  SceneAssembly/Proofs/Placements.lean
  ====================================
  **A placement depends on the steps of each type alone.**

  Gathering looks at the steps one by one, but a step changes only the part of
  the placement that belongs to its type, so each part is what the steps of one
  type make of it, in their order (`foldl_add`).  How steps of different types
  are interleaved is of no account, and steps of an unknown type leave nothing
  but their reports (`foldl_gather`).

  No law of arithmetic is used: the sums and products are taken in the order of
  the steps, whatever rounding does to them.
-/
import SceneAssembly.Transform

namespace SceneAssembly

variable {K : Type}

/-! ## 1. Steps by type -/

namespace TransformStep

def isKnown : TransformStep K → Bool
  | .unsupported _ => false
  | _ => true

/-- The offsets of the moves, in order. -/
def moves (steps : List (TransformStep K)) : List (Vec3 K) :=
  steps.filterMap fun
    | .translate offset => some offset
    | _ => none

/-- The angles of the turns, in order. -/
def turns (steps : List (TransformStep K)) : List (Vec3 K) :=
  steps.filterMap fun
    | .rotate degrees => some degrees
    | _ => none

/-- The factors of the stretches, in order. -/
def stretches (steps : List (TransformStep K)) : List (Vec3 K) :=
  steps.filterMap fun
    | .scale factors => some factors
    | _ => none

/-- The tags of the steps of an unknown type, in order. -/
def unknownTags (steps : List (TransformStep K)) : List String :=
  steps.filterMap fun
    | .unsupported tag => some tag
    | _ => none

theorem any_isKnown (steps : List (TransformStep K)) :
    steps.any isKnown =
      (!(moves steps).isEmpty || !(turns steps).isEmpty || !(stretches steps).isEmpty) := by
  induction steps with
  | nil => rfl
  | cons step rest ih =>
    rw [List.any_cons, ih]
    cases step with
    | translate offset => simp [isKnown, moves]
    | rotate degrees => simp [isKnown, moves, turns]
    | scale factors => simp [isKnown, moves, turns, stretches]
    | unsupported tag => simp [isKnown, moves, turns, stretches]

theorem any_isKnown_eq_false_iff (steps : List (TransformStep K)) :
    steps.any isKnown = false ↔ ∀ step ∈ steps, ∃ tag, step = .unsupported tag := by
  rw [List.any_eq_false]
  refine forall₂_congr fun step _ => ?_
  cases step with
  | unsupported tag => simp [isKnown]
  | _ => simp [isKnown]

theorem faults_eq (steps : List (TransformStep K)) :
    faults steps = (unknownTags steps).map .unsupportedTransform := by
  rw [faults, unknownTags, List.map_filterMap]
  congr 1
  funext step
  cases step with
  | unsupported tag => rfl
  | _ => rfl

theorem faults_eq_nil_iff {steps : List (TransformStep K)} :
    faults steps = [] ↔ ∀ step ∈ steps, step.isKnown = true := by
  unfold TransformStep.faults
  rw [List.filterMap_eq_nil_iff]
  constructor
  · intro h step hstep
    have hnone := h step hstep
    cases step with
    | unsupported tag => cases hnone
    | _ => rfl
  · intro h step hstep
    have hknown := h step hstep
    cases step with
    | unsupported tag => cases hknown
    | _ => rfl

end TransformStep

variable [Scalar K]

/-! ## 2. What the steps of a type gather to -/

/-- The turns about the axes that a turn by three angles consists of: about X, then Y, then Z. -/
def TransformStep.axisTurns (degrees : Vec3 K) : List (Mat3 K) :=
  [.rotationX (Scalar.radians degrees.x), .rotationY (Scalar.radians degrees.y),
    .rotationZ (Scalar.radians degrees.z)]

namespace Placement

open TransformStep

/-- **Each part of a placement is gathered from the steps of one type.** -/
theorem foldl_add (steps : List (TransformStep K)) (p : Placement K) :
    steps.foldl add p =
      { shift := (moves steps).foldl (· + ·) p.shift
        rotation := ((turns steps).flatMap axisTurns).foldl (· * ·) p.rotation
        scale := (stretches steps).foldl (· * ·) p.scale
        moved := p.moved || steps.any isKnown } := by
  induction steps generalizing p with
  | nil => simp [moves, turns, stretches]
  | cons step rest ih =>
    rw [List.foldl_cons, ih]
    -- The step is at the head of the list of its own type, and of no other one.
    cases step with
    | translate offset => simp [add, moves, turns, stretches, isKnown]
    | rotate degrees => simp [add, moves, turns, stretches, isKnown, axisTurns]
    | scale factors => simp [add, moves, turns, stretches, isKnown]
    | unsupported tag => simp [add, moves, turns, stretches, isKnown]

end Placement

namespace TransformStep

/-- One step of a single pass, which gathers the step or reports it. -/
def gather (state : Placement K × List (Diagnostic K)) :
    TransformStep K → Placement K × List (Diagnostic K)
  | .unsupported tag => (state.1, state.2 ++ [.unsupportedTransform tag])
  | step => (state.1.add step, state.2)

/-- In a single pass the placement and the reports do not meet. -/
theorem foldl_gather (steps : List (TransformStep K)) (p : Placement K) (ds : List (Diagnostic K)) :
    steps.foldl gather (p, ds) = (steps.foldl Placement.add p, ds ++ faults steps) := by
  induction steps generalizing p ds with
  | nil => simp [faults]
  | cons step rest ih =>
    rw [List.foldl_cons, List.foldl_cons]
    cases step with
    | unsupported tag => simp [gather, ih, faults, Placement.add]
    | _ => simp [gather, ih, faults]

/-! ## 3. The matrix of some steps -/

/-- The moves added up. -/
def totalMove (steps : List (TransformStep K)) : Vec3 K := (moves steps).foldl (· + ·) Vec3.zero

/-- The turns about the axes multiplied, those of one step after the other. -/
def totalTurn (steps : List (TransformStep K)) : Mat3 K :=
  ((turns steps).flatMap axisTurns).foldl (· * ·) Mat3.identity

/-- The stretches multiplied axis by axis. -/
def totalStretch (steps : List (TransformStep K)) : Vec3 K :=
  (stretches steps).foldl (· * ·) Vec3.one

theorem placement?_eq (steps : List (TransformStep K)) :
    placement? steps =
      if steps.any isKnown then
        some (Affine.shift (totalMove steps) * Affine.ofLinear (totalTurn steps) *
          Affine.scaling (totalStretch steps))
      else none := by
  unfold placement?
  rw [Placement.foldl_add]
  rfl

theorem placement?_isSome (steps : List (TransformStep K)) :
    (placement? steps).isSome = steps.any isKnown := by
  rw [placement?_eq]
  cases steps.any isKnown with
  | true => rfl
  | false => rfl

theorem placement?_eq_none_iff (steps : List (TransformStep K)) :
    placement? steps = none ↔ ∀ step ∈ steps, ∃ tag, step = .unsupported tag := by
  rw [← any_isKnown_eq_false_iff, ← placement?_isSome, Option.isSome_eq_false_iff,
    Option.isNone_iff_eq_none]

theorem placement?_congr {steps others : List (TransformStep K)}
    (hmoves : moves others = moves steps) (hturns : turns others = turns steps)
    (hstretches : stretches others = stretches steps) : placement? others = placement? steps := by
  rw [placement?_eq, placement?_eq, any_isKnown, any_isKnown, totalMove, totalMove, totalTurn,
    totalTurn, totalStretch, totalStretch, hmoves, hturns, hstretches]

/-- **A placement depends on the steps of each type alone.**  There is none if and only if no step
    is of a known type; otherwise it moves what is turned what is stretched, by what the moves, the
    turns and the stretches come to, each in their order.  A single pass gathers all of this and
    reports every step of an unknown type by its tag, in order. -/
theorem placement_by_type (steps : List (TransformStep K)) :
    (placement? steps = none ↔ ∀ step ∈ steps, ∃ tag, step = .unsupported tag) ∧
    placement? steps = (if steps.any isKnown then
      some (Affine.shift (totalMove steps) * Affine.ofLinear (totalTurn steps) *
        Affine.scaling (totalStretch steps)) else none) ∧
    (∀ others, moves others = moves steps → turns others = turns steps →
      stretches others = stretches steps → placement? others = placement? steps) ∧
    faults steps = (unknownTags steps).map .unsupportedTransform ∧
    steps.foldl gather (.start, []) =
      (⟨totalMove steps, totalTurn steps, totalStretch steps, steps.any isKnown⟩,
        faults steps) := by
  refine ⟨placement?_eq_none_iff steps, placement?_eq steps, fun _ => placement?_congr,
    faults_eq steps, ?_⟩
  rw [foldl_gather, Placement.foldl_add]
  rfl

/-- Two turns, two moves and a stretch, with two steps that are not known, in two orders that keep
    the order within each type. -/
theorem placement_by_type_interleaved :
    let steps : List (TransformStep Float32) :=
      [.scale ⟨2, 2, 2⟩, .rotate ⟨0, 90, 0⟩, .unsupported "shear", .translate ⟨1, 0, 0⟩,
        .rotate ⟨90, 0, 0⟩, .unsupported "bend", .translate ⟨0, 0.1, 0⟩]
    let others : List (TransformStep Float32) :=
      [.translate ⟨1, 0, 0⟩, .translate ⟨0, 0.1, 0⟩, .unsupported "twist", .rotate ⟨0, 90, 0⟩,
        .rotate ⟨90, 0, 0⟩, .scale ⟨2, 2, 2⟩]
    moves others = moves steps ∧ turns others = turns steps ∧
      stretches others = stretches steps ∧ placement? others = placement? steps ∧
      faults steps = [.unsupportedTransform "shear", .unsupportedTransform "bend"] := by
  intro steps others
  obtain ⟨-, -, hsame, hfaults, -⟩ := placement_by_type steps
  exact ⟨rfl, rfl, rfl, hsame others rfl rfl rfl, hfaults⟩

end TransformStep

end SceneAssembly
