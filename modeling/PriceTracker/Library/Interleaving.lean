import Mathlib.Logic.Function.Basic
import Mathlib.Data.List.Basic

/-!
# Interleavings of queues

Several queues of operations are emptied one operation at a time, each queue from its front. What
is observed of the state afterwards depends only on the operations that touch what is observed. If
these all wait in one queue, every interleaving leads to the same observation.
-/

namespace Interleaving

universe u v w x

variable {κ : Type u} [DecidableEq κ] {ω : Type v}

/-- The list takes every operation of the queues once, those of a queue in order. -/
inductive Merges : (κ → List ω) → List ω → Prop where
  | nil {queues : κ → List ω} (empty : ∀ client, queues client = []) : Merges queues []
  | cons {queues : κ → List ω} {client : κ} {operation : ω} {rest merged : List ω}
      (queued : queues client = operation :: rest)
      (later : Merges (Function.update queues client rest) merged) :
      Merges queues (operation :: merged)

/-- When the operations of one kind wait in one queue, they are taken in the order of that queue. -/
theorem Merges.filter_eq {queues : κ → List ω} {merged : List ω} (merges : Merges queues merged)
    {kind : ω → Bool} {owner : κ}
    (others : ∀ client, client ≠ owner → (queues client).filter kind = []) :
    merged.filter kind = (queues owner).filter kind := by
  induction merges with
  | nil empty => simp [empty]
  | @cons queues client operation rest merged queued later ih =>
      have shorter : ∀ other, other ≠ owner →
          (Function.update queues client rest other).filter kind = [] := by
        intro other different
        by_cases same : other = client
        · subst same
          have nothing := others other different
          rw [queued, List.filter_cons] at nothing
          split_ifs at nothing
          simpa using nothing
        · rw [Function.update_of_ne same]
          exact others other different
      rw [List.filter_cons, ih shorter]
      by_cases same : owner = client
      · subst same
        rw [Function.update_self, queued, List.filter_cons]
      · have skipped := others client (Ne.symm same)
        rw [queued, List.filter_cons] at skipped
        split_ifs at skipped with isKind
        rw [Function.update_of_ne same, if_neg isKind]

section Views

variable {σ : Type w} {τ : Type x}

/-- The view of a state that an operation leads to depends on the view before, and operations of
other kinds keep it. -/
structure ViewOf (apply : σ → ω → σ) (view : σ → τ) (kind : ω → Bool) : Prop where
  determined : ∀ first second operation, view first = view second →
    view (apply first operation) = view (apply second operation)
  untouched : ∀ state operation, kind operation = false → view (apply state operation) = view state

variable {apply : σ → ω → σ} {view : σ → τ} {kind : ω → Bool}

theorem ViewOf.foldl_congr (viewOf : ViewOf apply view kind) {first second : σ}
    (same : view first = view second) (operations : List ω) :
    view (operations.foldl apply first) = view (operations.foldl apply second) := by
  induction operations generalizing first second with
  | nil => exact same
  | cons operation operations ih => exact ih (viewOf.determined first second operation same)

/-- Operations of other kinds may be left out. -/
theorem ViewOf.foldl_filter (viewOf : ViewOf apply view kind) (state : σ) (operations : List ω) :
    view (operations.foldl apply state) = view ((operations.filter kind).foldl apply state) := by
  induction operations generalizing state with
  | nil => rfl
  | cons operation operations ih =>
      rw [List.foldl_cons, List.filter_cons]
      split_ifs with isKind
      · exact ih (apply state operation)
      · rw [viewOf.foldl_congr (viewOf.untouched state operation (by simpa using isKind)), ih]

/-- Every interleaving leads to the same view, when one queue holds the operations that touch it. -/
theorem ViewOf.agree (viewOf : ViewOf apply view kind) {queues : κ → List ω} {first second : List ω}
    (mergesFirst : Merges queues first) (mergesSecond : Merges queues second) {owner : κ}
    (others : ∀ client, client ≠ owner → (queues client).filter kind = []) (state : σ) :
    view (first.foldl apply state) = view (second.foldl apply state) := by
  rw [viewOf.foldl_filter state first, viewOf.foldl_filter state second,
    mergesFirst.filter_eq others, mergesSecond.filter_eq others]

end Views

end Interleaving
