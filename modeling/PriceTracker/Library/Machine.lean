import Mathlib.Data.List.Basic
import Mathlib.Data.List.Induction

/-!
# Machines with partial steps

A machine is a step function `σ → ε → Option σ`: an event is taken in a state or
is not enabled there. This file gives finite runs of such a machine, the trace of
a run (every event with the state it is taken in) and the induction rules the
developments over a machine use: an invariant may speak about the trace so far,
a property of every step is checked step by step, and a machine may be shown to
follow another one.

`stepThen` builds a coarser machine which, after every event, takes further
events of the same machine at once. Its runs are runs of the machine it is built
from.
-/

namespace Machine

universe u v w

variable {σ : Type u} {ε : Type v}

section Runs

variable (step : σ → ε → Option σ)

/-- Take the events in order. The run fails at the first event that is not enabled. -/
def run : σ → List ε → Option σ
  | state, [] => some state
  | state, event :: events => (step state event).bind fun next => run next events

/-- The events of a run, each with the state in which it is taken. -/
def trace : σ → List ε → List (σ × ε)
  | _, [] => []
  | state, event :: events =>
      (state, event) :: ((step state event).map fun next => trace next events).getD []

/-- Every step of the run has the property, which may look at the trace before the step. -/
def EachStep (property : List (σ × ε) → σ → ε → Prop) (start : σ) (events : List ε) : Prop :=
  ∀ history state event future,
    trace step start events = history ++ (state, event) :: future →
      property history state event

/-- Some step of the run has the property. -/
def SomeStep (property : List (σ × ε) → σ → ε → Prop) (start : σ) (events : List ε) : Prop :=
  ∃ history state event future,
    trace step start events = history ++ (state, event) :: future ∧ property history state event

/-- Every state that the run passes through has the property. -/
def Always (property : σ → Prop) (start : σ) (events : List ε) : Prop :=
  ∀ before after state, events = before ++ after → run step start before = some state →
    property state

/-- Take an event and then, at once, the events that `after` chooses. -/
def stepThen (after : σ → ε → σ → List ε) (state : σ) (event : ε) : Option σ :=
  (step state event).bind fun next => run step next (after state event next)

end Runs

variable {step : σ → ε → Option σ}

@[simp]
theorem run_nil (state : σ) : run step state [] = some state := rfl

@[simp]
theorem run_cons (state : σ) (event : ε) (events : List ε) :
    run step state (event :: events) =
      (step state event).bind fun next => run step next events := rfl

@[simp]
theorem trace_nil (state : σ) : trace step state [] = [] := rfl

theorem run_append (state : σ) (first second : List ε) :
    run step state (first ++ second) =
      (run step state first).bind fun middle => run step middle second := by
  induction first generalizing state with
  | nil => simp
  | cons event events ih => simp [ih, Option.bind_assoc]

theorem run_concat {start state : σ} {events : List ε} (reached : run step start events = some state)
    (event : ε) : run step start (events ++ [event]) = step state event := by
  simp [run_append, reached]

theorem run_trans {start middle state : σ} {first second : List ε}
    (before : run step start first = some middle) (after : run step middle second = some state) :
    run step start (first ++ second) = some state := by
  simp [run_append, before, after]

/-- A run passes through a state before and a state after each of its events. -/
theorem exists_of_run_append_cons {start state : σ} {before after : List ε} {event : ε}
    (reached : run step start (before ++ event :: after) = some state) :
    ∃ middle next, run step start before = some middle ∧
      step middle event = some next ∧ run step next after = some state := by
  rw [run_append] at reached
  rcases Option.bind_eq_some_iff.mp reached with ⟨middle, toMiddle, rest⟩
  rw [run_cons] at rest
  rcases Option.bind_eq_some_iff.mp rest with ⟨next, stepped, toState⟩
  exact ⟨middle, next, toMiddle, stepped, toState⟩

theorem exists_of_run_concat {start state : σ} {events : List ε} {event : ε}
    (reached : run step start (events ++ [event]) = some state) :
    ∃ middle, run step start events = some middle ∧ step middle event = some state := by
  rcases exists_of_run_append_cons reached with ⟨middle, next, toMiddle, stepped, finished⟩
  simp only [run_nil, Option.some.injEq] at finished
  subst finished
  exact ⟨middle, toMiddle, stepped⟩

theorem trace_append {start middle : σ} {first : List ε}
    (reached : run step start first = some middle) (second : List ε) :
    trace step start (first ++ second) = trace step start first ++ trace step middle second := by
  induction first generalizing start with
  | nil =>
      simp only [run_nil, Option.some.injEq] at reached
      simp [reached]
  | cons event events ih =>
      rw [run_cons] at reached
      rcases Option.bind_eq_some_iff.mp reached with ⟨next, stepped, rest⟩
      simp [trace, stepped, ih rest]

theorem trace_concat {start state : σ} {events : List ε}
    (reached : run step start events = some state) (event : ε) :
    trace step start (events ++ [event]) = trace step start events ++ [(state, event)] := by
  have single : trace step state [event] = [(state, event)] := by
    cases stepped : step state event <;> simp [trace, stepped]
  rw [trace_append reached, single]

/-- A run that is finished has taken all its events. -/
theorem map_snd_trace {start state : σ} {events : List ε}
    (reached : run step start events = some state) :
    (trace step start events).map Prod.snd = events := by
  induction events generalizing start with
  | nil => rfl
  | cons event events ih =>
      rw [run_cons] at reached
      rcases Option.bind_eq_some_iff.mp reached with ⟨next, stepped, rest⟩
      simp [trace, stepped, ih rest]

/-- A step of a trace is a step of the run, with the trace of the events before it. -/
theorem exists_of_mem_trace {start finish : σ} {events : List ε}
    (reached : run step start events = some finish) {history future : List (σ × ε)} {state : σ}
    {event : ε} (split : trace step start events = history ++ (state, event) :: future) :
    ∃ before after next, events = before ++ event :: after ∧
      run step start before = some state ∧ trace step start before = history ∧
      step state event = some next ∧ run step next after = some finish := by
  induction events generalizing start history with
  | nil => simp at split
  | cons first rest ih =>
      rw [run_cons] at reached
      rcases Option.bind_eq_some_iff.mp reached with ⟨next, stepped, toFinish⟩
      simp only [trace, stepped, Option.map_some, Option.getD_some] at split
      rcases history with _ | ⟨earlier, history⟩
      · simp only [List.nil_append, List.cons.injEq, Prod.mk.injEq] at split
        rcases split with ⟨⟨rfl, rfl⟩, _⟩
        exact ⟨[], rest, next, rfl, rfl, rfl, stepped, toFinish⟩
      · simp only [List.cons_append, List.cons.injEq] at split
        rcases split with ⟨rfl, split⟩
        rcases ih toFinish split with
          ⟨before, after, following, rfl, toState, traced, taken, toEnd⟩
        refine ⟨first :: before, after, following, rfl, ?_, ?_, taken, toEnd⟩
        · simp [stepped, toState]
        · simp [trace, stepped, traced]

/-- The induction rule for runs: extend a run by one event at its end. -/
theorem run_induction {start : σ} {motive : List ε → σ → Prop} (initial : motive [] start)
    (preserved : ∀ events state event next, run step start events = some state →
      motive events state → step state event = some next → motive (events ++ [event]) next)
    {events : List ε} {state : σ} (reached : run step start events = some state) :
    motive events state := by
  induction events using List.reverseRecOn generalizing state with
  | nil =>
      simp only [run_nil, Option.some.injEq] at reached
      exact reached ▸ initial
  | append_singleton events event ih =>
      rcases exists_of_run_concat reached with ⟨middle, toMiddle, stepped⟩
      exact preserved events middle event state toMiddle (ih toMiddle) stepped

/-- An invariant that every step preserves holds at the end of every run. -/
theorem invariant_run {invariant : σ → Prop}
    (preserved : ∀ state event next, invariant state → step state event = some next →
      invariant next)
    {start state : σ} {events : List ε} (initial : invariant start)
    (reached : run step start events = some state) : invariant state :=
  run_induction (motive := fun _ state => invariant state) initial
    (fun _ state event next _ holds stepped => preserved state event next holds stepped) reached

/-- A preorder that contains the steps of a run relates its states. -/
theorem relation_run (relation : σ → σ → Prop) (reflexive : ∀ state, relation state state)
    (transitive : ∀ {first second third}, relation first second → relation second third →
      relation first third)
    {start middle state : σ} {first second : List ε} (toMiddle : run step start first = some middle)
    (reached : run step middle second = some state)
    (stepped : ∀ before event after earlier next, first ++ second = before ++ event :: after →
      run step start before = some earlier → step earlier event = some next →
      relation earlier next) : relation middle state := by
  refine run_induction (motive := fun second state =>
    (∀ before event after earlier next, first ++ second = before ++ event :: after →
      run step start before = some earlier → step earlier event = some next →
      relation earlier next) → relation middle state) ?_ ?_ reached stepped
  · intro _
    exact reflexive middle
  · intro second state event next toState ih taken stepped
    have earlierSteps := ih fun before earlier after middle next split =>
      stepped before earlier (after ++ [event]) middle next (by
        rw [← List.append_assoc, split, List.append_assoc, List.cons_append])
    exact transitive earlierSteps
      (stepped (first ++ second) event [] state next (by simp) (run_trans toMiddle toState) taken)

section EachStep

variable {property other : List (σ × ε) → σ → ε → Prop} {start : σ}

@[simp]
theorem eachStep_nil : EachStep step property start [] := by
  intro history state event future split
  simp at split

theorem eachStep_concat {events : List ε} {state : σ}
    (reached : run step start events = some state) (event : ε) :
    EachStep step property start (events ++ [event]) ↔
      EachStep step property start events ∧
        property (trace step start events) state event := by
  unfold EachStep
  rw [trace_concat reached]
  constructor
  · intro every
    refine ⟨?_, every _ _ _ [] rfl⟩
    intro history middle earlier future split
    exact every history middle earlier (future ++ [(state, event)]) (by simp [split])
  · rintro ⟨every, last⟩ history middle earlier future split
    rcases List.eq_nil_or_concat future with rfl | ⟨future, final, rfl⟩
    · have same := List.append_inj' split rfl
      simp only [List.cons.injEq, Prod.mk.injEq, and_true] at same
      rcases same with ⟨rfl, rfl, rfl⟩
      exact last
    · have same : trace step start events ++ [(state, event)] =
          (history ++ (middle, earlier) :: future) ++ [final] := by
        simpa using split
      exact every _ _ _ future (List.append_inj' same rfl).1

theorem eachStep_congr {events : List ε} {state : σ} (reached : run step start events = some state)
    (agree : ∀ before event after middle next, events = before ++ event :: after →
      run step start before = some middle → step middle event = some next →
      (property (trace step start before) middle event ↔
        other (trace step start before) middle event)) :
    EachStep step property start events ↔ EachStep step other start events := by
  constructor
  · intro every history middle event future split
    rcases exists_of_mem_trace reached split with
      ⟨before, after, next, same, toMiddle, rfl, stepped, _⟩
    exact (agree before event after middle next same toMiddle stepped).mp
      (every _ middle event future split)
  · intro every history middle event future split
    rcases exists_of_mem_trace reached split with
      ⟨before, after, next, same, toMiddle, rfl, stepped, _⟩
    exact (agree before event after middle next same toMiddle stepped).mpr
      (every _ middle event future split)

/-- The steps of a run that have a property keep an invariant about the trace so far. -/
theorem invariant_of_eachStep (invariant : List (σ × ε) → σ → Prop) (initial : invariant [] start)
    (preserved : ∀ events state event next, run step start events = some state →
      invariant (trace step start events) state →
      property (trace step start events) state event → step state event = some next →
      invariant (trace step start events ++ [(state, event)]) next)
    {events : List ε} {state : σ} (reached : run step start events = some state)
    (every : EachStep step property start events) :
    invariant (trace step start events) state := by
  refine run_induction (motive := fun events state =>
    EachStep step property start events → invariant (trace step start events) state)
    (fun _ => initial) ?_ reached every
  intro events state event next toState ih stepped extended
  rcases (eachStep_concat toState event).mp extended with ⟨before, last⟩
  rw [trace_concat toState]
  exact preserved events state event next toState (ih before) last stepped

theorem eachStep_of_forall_mem {single : σ → ε → Prop} {events : List ε}
    (every : ∀ taken ∈ trace step start events, single taken.1 taken.2) :
    EachStep step (fun _ => single) start events := by
  intro history state event future split
  exact every (state, event) (by simp [split])

/-- A property that looks at the trace before the step is checked position by position. -/
theorem eachStep_of_forall_lt {events : List ε}
    (every : ∀ position, (inTrace : position < (trace step start events).length) →
      property ((trace step start events).take position)
        ((trace step start events).get ⟨position, inTrace⟩).1
        ((trace step start events).get ⟨position, inTrace⟩).2) :
    EachStep step property start events := by
  intro history state event future split
  have inTrace : history.length < (trace step start events).length := by simp [split]
  simpa [split] using every history.length inTrace

theorem EachStep.before {first second : List ε} {middle : σ}
    (every : EachStep step property start (first ++ second))
    (reached : run step start first = some middle) : EachStep step property start first := by
  intro history state event future split
  apply every history state event (future ++ trace step middle second)
  rw [trace_append reached, split]
  simp

theorem EachStep.of_split {before after : List ε} {event : ε} {middle : σ}
    (every : EachStep step property start (before ++ event :: after))
    (toMiddle : run step start before = some middle) :
    property (trace step start before) middle event := by
  refine every _ middle event (((step middle event).map fun next => trace step next after).getD []) ?_
  rw [trace_append toMiddle]
  rfl

theorem not_eachStep_iff {events : List ε} :
    ¬ EachStep step property start events ↔
      SomeStep step (fun history state event => ¬ property history state event) start events := by
  simp only [EachStep, SomeStep, not_forall, exists_prop]

@[simp]
theorem not_someStep_nil : ¬ SomeStep step property start [] := by
  rintro ⟨history, state, event, future, split, _⟩
  simp at split

theorem someStep_concat {events : List ε} {state : σ}
    (reached : run step start events = some state) (event : ε) :
    SomeStep step property start (events ++ [event]) ↔
      SomeStep step property start events ∨ property (trace step start events) state event := by
  have never : EachStep step (fun history state event => ¬ property history state event) start
      (events ++ [event]) ↔ _ := eachStep_concat reached event
  simpa only [not_and_or, not_eachStep_iff, not_not] using not_congr never

end EachStep

section Always

variable {invariant : σ → Prop} {start : σ}

theorem always_nil : Always step invariant start [] ↔ invariant start := by
  constructor
  · intro always
    exact always [] [] start rfl rfl
  · intro initial before after state split reached
    rcases List.nil_eq_append_iff.mp split with ⟨rfl, _⟩
    simp only [run_nil, Option.some.injEq] at reached
    exact reached ▸ initial

theorem always_concat {events : List ε} {state next : σ} {event : ε}
    (reached : run step start events = some state) (stepped : step state event = some next) :
    Always step invariant start (events ++ [event]) ↔
      Always step invariant start events ∧ invariant next := by
  have toNext : run step start (events ++ [event]) = some next := by
    rw [run_concat reached, stepped]
  constructor
  · intro always
    refine ⟨?_, always (events ++ [event]) [] next (by simp) toNext⟩
    intro before after middle split toMiddle
    exact always before (after ++ [event]) middle (by simp [split]) toMiddle
  · rintro ⟨always, last⟩ before after middle split toMiddle
    rcases List.eq_nil_or_concat after with rfl | ⟨after, final, rfl⟩
    · rw [List.append_nil] at split
      subst split
      rw [toNext, Option.some.injEq] at toMiddle
      exact toMiddle ▸ last
    · rw [List.concat_eq_append, ← List.append_assoc] at split
      exact always before after middle (List.append_inj' split rfl).1 toMiddle

/-- When a step from a good state leads to a good state exactly if it has a property, a run
stays in good states exactly if each of its steps has the property. -/
theorem always_iff_eachStep {property : List (σ × ε) → σ → ε → Prop} (initial : invariant start)
    (exactly : ∀ events state event next, run step start events = some state → invariant state →
      step state event = some next →
        (invariant next ↔ property (trace step start events) state event))
    {events : List ε} {state : σ} (reached : run step start events = some state) :
    Always step invariant start events ↔ EachStep step property start events := by
  refine run_induction (motive := fun events _ =>
    Always step invariant start events ↔ EachStep step property start events) ?_ ?_ reached
  · rw [always_nil]
    exact iff_of_true initial eachStep_nil
  · intro events state event next toState ih stepped
    rw [always_concat toState stepped, eachStep_concat toState, ih]
    apply and_congr_right
    intro every
    exact exactly events state event next toState (ih.mpr every events [] state (by simp) toState)
      stepped

end Always

section Following

variable {τ : Type w} {α : Type w}

/-- The simulation rule: a relation between the states of a machine and those of an abstract
one, which the steps with the property keep, relates the end of a run with the abstract run
of the actions that the trace performs. -/
theorem simulation_run {property : List (σ × ε) → σ → ε → Prop} {action : σ → ε → Option α}
    {next : τ → α → τ} (related : σ → τ → Prop) {start : σ} {abstract : τ}
    (initial : related start abstract)
    (preserved : ∀ events state event following abstract, run step start events = some state →
      property (trace step start events) state event → step state event = some following →
      related state abstract →
      related following ((action state event).elim abstract (next abstract)))
    {events : List ε} {state : σ} (reached : run step start events = some state)
    (every : EachStep step property start events) :
    related state
      (((trace step start events).filterMap fun taken => action taken.1 taken.2).foldl next
        abstract) := by
  refine invariant_of_eachStep (fun history state => related state
    ((history.filterMap fun taken => action taken.1 taken.2).foldl next abstract)) initial ?_ reached
    every
  intro events state event following toState isRelated holds stepped
  have matched := preserved events state event following _ toState holds stepped isRelated
  rw [List.filterMap_append, List.foldl_append]
  cases performed : action state event with
  | none =>
      rw [performed] at matched
      simpa [performed] using matched
  | some act =>
      rw [performed] at matched
      simpa [performed] using matched

/-- The simulation rule for an abstract machine with partial steps: the actions of the trace are
enabled one after the other, and the ends of the two runs are related. -/
theorem exists_run_of_simulation {property : List (σ × ε) → σ → ε → Prop}
    {action : σ → ε → Option α} {abstractStep : τ → α → Option τ} (related : σ → τ → Prop)
    {start : σ} {initial : τ} (isRelated : related start initial)
    (preserved : ∀ events state event following abstract, run step start events = some state →
      property (trace step start events) state event → step state event = some following →
      related state abstract →
      ∃ next, run abstractStep abstract (action state event).toList = some next ∧
        related following next)
    {events : List ε} {state : σ} (reached : run step start events = some state)
    (every : EachStep step property start events) :
    ∃ final, run abstractStep initial
        ((trace step start events).filterMap fun taken => action taken.1 taken.2) = some final ∧
      related state final := by
  refine invariant_of_eachStep (fun history state => ∃ final, run abstractStep initial
    (history.filterMap fun taken => action taken.1 taken.2) = some final ∧ related state final)
    ⟨initial, rfl, isRelated⟩ ?_ reached every
  rintro events state event following toState ⟨abstract, toAbstract, matched⟩ holds stepped
  rcases preserved events state event following abstract toState holds stepped matched with
    ⟨next, taken, isRelated⟩
  refine ⟨next, ?_, isRelated⟩
  have last : [(state, event)].filterMap (fun taken => action taken.1 taken.2) =
      (action state event).toList := by
    cases performed : action state event <;> simp [performed]
  rw [List.filterMap_append, last]
  exact run_trans toAbstract taken

/-- A machine follows an abstract one: the abstract state of a run is the abstract
run of the actions that the trace performs. -/
theorem follows_run {start : σ} {abstraction : σ → τ} {action : σ → ε → Option α}
    {next : τ → α → τ}
    (follows : ∀ events state event following, run step start events = some state →
      step state event = some following →
      abstraction following =
        (action state event).elim (abstraction state) (next (abstraction state)))
    {events : List ε} {state : σ} (reached : run step start events = some state) :
    abstraction state =
      ((trace step start events).filterMap fun taken => action taken.1 taken.2).foldl next
        (abstraction start) := by
  refine simulation_run (fun state abstract => abstraction state = abstract) rfl ?_ reached
    (fun _ _ _ _ _ => trivial)
  rintro events state event following abstract toState _ stepped rfl
  exact follows events state event following toState stepped

end Following

/-- Every run of the coarser machine is a run of the machine itself. -/
theorem exists_run_of_run_stepThen {after : σ → ε → σ → List ε} {start state : σ}
    {events : List ε} (reached : run (stepThen step after) start events = some state) :
    ∃ fine, run step start fine = some state := by
  refine run_induction (motive := fun _ state => ∃ fine, run step start fine = some state)
    ⟨[], rfl⟩ ?_ reached
  rintro _ middle event next _ ⟨fine, toMiddle⟩ stepped
  rcases Option.bind_eq_some_iff.mp stepped with ⟨between, taken, settled⟩
  refine ⟨fine ++ event :: after middle event between, run_trans toMiddle ?_⟩
  simp [taken, settled]

end Machine
