import PriceTracker.Library.Machine

/-!
# Unwinding

Some of the steps of a run are observed. Two runs of one machine whose observed actions are
the same may take quite different hidden steps in between. The unwinding rule shows that
such runs end in related states: the relation is symmetric, a hidden step of one run keeps
it, and a pair of steps that are observed as the same action keeps it.
-/

namespace Machine

universe u v w

variable {σ : Type u} {ε : Type v} {α : Type w}

/-- What is observed of a run, in order. -/
def observed (step : σ → ε → Option σ) (observe : σ → ε → Option α) (start : σ)
    (events : List ε) : List α :=
  (trace step start events).filterMap fun taken => observe taken.1 taken.2

variable {step : σ → ε → Option σ} {observe : σ → ε → Option α} {start : σ}

@[simp]
theorem observed_nil : observed step observe start [] = [] := rfl

theorem observed_concat {events : List ε} {state : σ}
    (reached : run step start events = some state) (event : ε) :
    observed step observe start (events ++ [event]) =
      observed step observe start events ++ (observe state event).toList := by
  rw [observed, observed, trace_concat reached, List.filterMap_append]
  cases acts : observe state event <;> simp [acts]

theorem observed_concat_none {events : List ε} {state : σ} {event : ε}
    (reached : run step start events = some state) (isHidden : observe state event = none) :
    observed step observe start (events ++ [event]) = observed step observe start events := by
  rw [observed_concat reached, isHidden, Option.toList_none, List.append_nil]

theorem observed_concat_some {events : List ε} {state : σ} {event : ε} {action : α}
    (reached : run step start events = some state) (isSeen : observe state event = some action) :
    observed step observe start (events ++ [event]) =
      observed step observe start events ++ [action] := by
  rw [observed_concat reached, isSeen, Option.toList_some]

/-- A run with its last step, which has the property with respect to the steps before it. -/
structure Extends (step : σ → ε → Option σ) (property : List (σ × ε) → σ → ε → Prop) (start : σ)
    (events : List ε) (state : σ) (event : ε) (next : σ) : Prop where
  reached : run step start events = some state
  every : EachStep step property start events
  allowed : property (trace step start events) state event
  stepped : step state event = some next

theorem Extends.of_concat {property : List (σ × ε) → σ → ε → Prop} {events : List ε} {event : ε}
    {next : σ} (reached : run step start (events ++ [event]) = some next)
    (every : EachStep step property start (events ++ [event])) :
    ∃ state, Extends step property start events state event next := by
  rcases exists_of_run_concat reached with ⟨state, toState, stepped⟩
  rcases (eachStep_concat toState event).mp every with ⟨before, last⟩
  exact ⟨state, toState, before, last, stepped⟩

/-- The unwinding rule. The relation may look at the actions that were observed so far. -/
theorem unwinding {property : List (σ × ε) → σ → ε → Prop} (related : List α → σ → σ → Prop)
    (initial : related [] start start)
    (symmetric : ∀ {actions state other}, related actions state other → related actions other state)
    (hidden : ∀ {events state event next other},
      Extends step property start events state event next → observe state event = none →
      related (observed step observe start events) state other →
      related (observed step observe start events) next other)
    (seen : ∀ {events state event next otherEvents other otherEvent otherNext action},
      Extends step property start events state event next →
      Extends step property start otherEvents other otherEvent otherNext →
      observe state event = some action → observe other otherEvent = some action →
      observed step observe start events = observed step observe start otherEvents →
      related (observed step observe start events) state other →
      related (observed step observe start events ++ [action]) next otherNext)
    {events otherEvents : List ε} {state other : σ} (reached : run step start events = some state)
    (every : EachStep step property start events)
    (otherReached : run step start otherEvents = some other)
    (otherEvery : EachStep step property start otherEvents)
    (same : observed step observe start events = observed step observe start otherEvents) :
    related (observed step observe start events) state other := by
  -- a hidden step of the other run keeps the relation, because it is symmetric
  have hiddenOther : ∀ {actions : List α} {state other otherNext : σ} {otherEvents : List ε}
      {otherEvent : ε}, Extends step property start otherEvents other otherEvent otherNext →
      observe other otherEvent = none →
      actions = observed step observe start (otherEvents ++ [otherEvent]) →
      (actions = observed step observe start otherEvents → related actions state other) →
      related actions state otherNext := by
    intro actions state other otherNext otherEvents otherEvent taken isHidden same ih
    rw [observed_concat_none taken.reached isHidden] at same
    have holds := ih same
    subst same
    exact symmetric (hidden taken isHidden (symmetric holds))
  induction events using List.reverseRecOn generalizing state otherEvents other with
  | nil =>
      simp only [run_nil, Option.some.injEq] at reached
      subst reached
      induction otherEvents using List.reverseRecOn generalizing other with
      | nil =>
          simp only [run_nil, Option.some.injEq] at otherReached
          exact otherReached ▸ initial
      | append_singleton otherEvents otherEvent otherIh =>
          rcases Extends.of_concat otherReached otherEvery with ⟨otherMiddle, taken⟩
          cases acts : observe otherMiddle otherEvent with
          | none => exact hiddenOther taken acts same (otherIh taken.reached taken.every)
          | some action =>
              rw [observed_concat_some taken.reached acts] at same
              simp at same
  | append_singleton events event ih =>
      rcases Extends.of_concat reached every with ⟨middle, taken⟩
      cases acts : observe middle event with
      | none =>
          rw [observed_concat_none taken.reached acts] at same ⊢
          exact hidden taken acts (ih taken.reached taken.every otherReached otherEvery same)
      | some action =>
          -- the other run takes the same action, perhaps before more hidden steps
          induction otherEvents using List.reverseRecOn generalizing other with
          | nil =>
              rw [observed_concat_some taken.reached acts] at same
              simp at same
          | append_singleton otherEvents otherEvent otherIh =>
              rcases Extends.of_concat otherReached otherEvery with ⟨otherMiddle, otherTaken⟩
              cases otherActs : observe otherMiddle otherEvent with
              | none =>
                  exact hiddenOther otherTaken otherActs same
                    (otherIh otherTaken.reached otherTaken.every)
              | some otherAction =>
                  rw [observed_concat_some taken.reached acts,
                    observed_concat_some otherTaken.reached otherActs] at same
                  rcases List.append_inj' same rfl with ⟨sameBefore, sameAction⟩
                  simp only [List.cons.injEq, and_true] at sameAction
                  subst sameAction
                  rw [observed_concat_some taken.reached acts]
                  exact seen taken otherTaken acts otherActs sameBefore
                    (ih taken.reached taken.every otherTaken.reached otherTaken.every sameBefore)

end Machine
