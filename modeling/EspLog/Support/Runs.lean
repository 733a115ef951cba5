import Mathlib.Data.List.Basic

/-! Runs of a deterministic system under a list of events: the invariant rule, and
the rule that turns an exact condition on one step into an exact condition on a run. -/

namespace EspLog.Runs

variable {State Event : Type*} (step : State → Event → State)

def run (start : State) (events : List Event) : State := events.foldl step start

/-- `condition` holds of every event of the run and of the state that it meets. -/
def Along (condition : State → Event → Prop) : State → List Event → Prop
  | _, [] => True
  | state, event :: later => condition state event ∧ Along condition (step state event) later

/-- `good` holds in every state that the run reaches, the start included. -/
def Throughout (good : State → Prop) : State → List Event → Prop
  | state, [] => good state
  | state, event :: later => good state ∧ Throughout good (step state event) later

@[simp] theorem run_nil (start : State) : run step start [] = start := rfl

@[simp] theorem run_cons (start : State) (event : Event) (later : List Event) :
    run step start (event :: later) = run step (step start event) later := rfl

theorem run_append (start : State) (before after : List Event) :
    run step start (before ++ after) = run step (run step start before) after :=
  List.foldl_append

theorem run_keeps {Field : Type*} (field : State → Field) (events : List Event)
    (keeps : ∀ state, ∀ event ∈ events, field (step state event) = field state) (start : State) :
    field (run step start events) = field start := by
  induction events generalizing start with
  | nil => rfl
  | cons event later ih =>
    have head := keeps start event List.mem_cons_self
    have tail := ih (fun state other member => keeps state other (List.mem_cons_of_mem _ member))
      (step start event)
    rw [run_cons, tail, head]

/-- A field that every event of the run updates by itself is a run of these updates. -/
theorem run_tracks {Field : Type*} (field : State → Field) (update : Field → Event → Field) (good : State → Prop)
    (keeps : ∀ state event, good state → good (step state event)) (events : List Event)
    (tracks : ∀ state, ∀ event ∈ events, good state → field (step state event) = update (field state) event)
    (start : State) (initial : good start) : field (run step start events) = run update (field start) events := by
  induction events generalizing start with
  | nil => rfl
  | cons event later ih =>
    have head := tracks start event List.mem_cons_self initial
    have tail := ih (fun state other member => tracks state other (List.mem_cons_of_mem _ member))
      (step start event)
      (keeps start event initial)
    rw [run_cons, run_cons, tail, head]

/-- A run that overwrites its state at the events with a property ends with the last of them. -/
theorem run_overwrites (property : Event → Prop) [DecidablePred property] (value : Event → State)
    (events : List Event) (start : State) :
    run (fun state event => if property event then value event else state) start events =
      (((events.filter fun event => property event).getLast?).map value).getD start := by
  induction events generalizing start with
  | nil => rfl
  | cons event later ih =>
    rw [run_cons, ih]
    by_cases here : property event
    · simp only [here, if_true, decide_true, List.filter_cons_of_pos, List.getLast?_cons]
      cases (later.filter fun event => property event).getLast? <;> rfl
    · simp only [here, if_false, decide_false, Bool.false_eq_true, not_false_eq_true, List.filter_cons_of_neg]

theorem run_once (chosen : Event → Prop) [DecidablePred chosen] (update : State → State)
    (again : ∀ state, update (update state) = update state) (events : List Event) (start : State) :
    run (fun state event => if chosen event then update state else state) start events =
      if ∃ event ∈ events, chosen event then update start else start := by
  induction events generalizing start with
  | nil => simp
  | cons event later ih =>
    rw [run_cons, ih]
    simp only [List.exists_mem_cons_iff]
    by_cases here : chosen event
    · simp only [here, if_true, true_or, again, ite_self]
    · simp only [here, if_false, false_or]

variable {step}

theorem Along.mono {strong weak : State → Event → Prop}
    (weaken : ∀ state event, strong state event → weak state event) :
    ∀ {events : List Event} {start : State},
      Along step strong start events → Along step weak start events
  | [], _, _ => trivial
  | _ :: _, _, along => ⟨weaken _ _ along.1, Along.mono weaken along.2⟩

theorem Along.and {first second : State → Event → Prop} : ∀ {events : List Event} {start : State},
    Along step first start events → Along step second start events →
      Along step (fun state event => first state event ∧ second state event) start events
  | [], _, _, _ => trivial
  | _ :: _, _, one, other => ⟨⟨one.1, other.1⟩, Along.and one.2 other.2⟩

theorem along_and {first second : State → Event → Prop} {events : List Event} {start : State} :
    Along step first start events ∧ Along step second start events ↔
      Along step (fun state event => first state event ∧ second state event) start events :=
  ⟨fun both => both.1.and both.2, fun along => ⟨along.mono fun _ _ => And.left, along.mono fun _ _ => And.right⟩⟩

theorem along_append {condition : State → Event → Prop} {before after : List Event} {start : State} :
    Along step condition start (before ++ after) ↔
      Along step condition start before ∧ Along step condition (run step start before) after := by
  induction before generalizing start with
  | nil => exact (and_iff_right trivial).symm
  | cons event later ih => rw [List.cons_append, Along, Along, run_cons, ih, and_assoc]

theorem throughout_append {good : State → Prop} {before after : List Event} {start : State} :
    Throughout step good start (before ++ after) ↔
      Throughout step good start before ∧ Throughout step good (run step start before) after := by
  induction before generalizing start with
  | nil =>
    refine ⟨fun through => ⟨?_, through⟩, And.right⟩
    cases after with
    | nil => exact through
    | cons event later => exact through.1
  | cons event later ih => rw [List.cons_append, Throughout, Throughout, run_cons, ih, and_assoc]

theorem run_map {Other : Type*} {follows : Other → Event → Other} (view : Other → State)
    (commutes : ∀ other event, view (follows other event) = step (view other) event) (events : List Event)
    (start : Other) :
    run step (view start) events = view (run follows start events) := by
  induction events generalizing start with
  | nil => rfl
  | cons event later ih => rw [run_cons, run_cons, ← commutes, ih]

theorem along_map {Other : Type*} {follows : Other → Event → Other} (view : Other → State)
    (commutes : ∀ other event, view (follows other event) = step (view other) event)
    (condition : State → Event → Prop) (events : List Event) (start : Other) :
    Along step condition (view start) events ↔
      Along follows (fun other => condition (view other)) start events := by
  induction events generalizing start with
  | nil => exact Iff.rfl
  | cons event later ih => rw [Along, Along, ← commutes, ih]

/-- The invariant rule: what every admitted step keeps holds all along the run. -/
theorem throughout_of_invariant {good : State → Prop} {condition : State → Event → Prop}
    (keeps : ∀ state event, good state → condition state event → good (step state event))
    (events : List Event) (start : State) (initial : good start)
    (admitted : Along step condition start events) : Throughout step good start events := by
  induction events generalizing start with
  | nil => exact initial
  | cons event later ih =>
    exact ⟨initial, ih _ (keeps start event initial admitted.1) admitted.2⟩

theorem Throughout.start {good : State → Prop} : ∀ {events : List Event} {start : State},
    Throughout step good start events → good start
  | [], _, through => through
  | _ :: _, _, through => through.1

theorem Throughout.last {good : State → Prop} {events : List Event} {start : State}
    (through : Throughout step good start events) : good (run step start events) := by
  induction events generalizing start with
  | nil => exact through
  | cons event later ih => exact ih through.2

theorem Throughout.mono {strong weak : State → Prop} (weaken : ∀ state, strong state → weak state) :
    ∀ {events : List Event} {start : State}, Throughout step strong start events →
      Throughout step weak start events
  | [], _, through => weaken _ through
  | _ :: _, _, through => ⟨weaken _ through.1, Throughout.mono weaken through.2⟩

/-- What an invariant and the events' own condition imply holds of every step. -/
theorem along_of_invariant {good : State → Prop} {condition conclusion : State → Event → Prop}
    (keeps : ∀ state event, good state → condition state event → good (step state event))
    (implies : ∀ state event, good state → condition state event → conclusion state event)
    (events : List Event) (start : State) (initial : good start)
    (admitted : Along step condition start events) : Along step conclusion start events := by
  induction events generalizing start with
  | nil => trivial
  | cons event later ih =>
    exact ⟨implies start event initial admitted.1, ih _ (keeps start event initial admitted.1) admitted.2⟩

theorem Along.of_forall {condition : State → Event → Prop} (always : ∀ state event, condition state event)
    (events : List Event) (start : State) : Along step condition start events := by
  induction events generalizing start with
  | nil => trivial
  | cons event later ih => exact ⟨always start event, ih _⟩

theorem Along.of_mem {condition : Event → Prop} {events : List Event} (all : ∀ event ∈ events, condition event)
    {start : State} : Along step (fun _ => condition) start events := by
  induction events generalizing start with
  | nil => trivial
  | cons event later ih =>
    exact ⟨all event List.mem_cons_self, ih fun other member => all other (List.mem_cons_of_mem _ member)⟩

theorem along_iff_forall {Field : Type*} (field : State → Field)
    (keeps : ∀ state event, field (step state event) = field state) (condition : Field → Event → Prop)
    (events : List Event) (start : State) :
    Along step (fun state => condition (field state)) start events ↔
      ∀ event ∈ events, condition (field start) event := by
  induction events generalizing start with
  | nil => simp [Along]
  | cons event later ih => rw [Along, ih, keeps, List.forall_mem_cons]

/-- Under an invariant, conditions that agree on every admitted step agree on runs. -/
theorem along_iff_along {good : State → Prop} {admitted first second : State → Event → Prop}
    (keeps : ∀ state event, good state → admitted state event → good (step state event))
    (agree : ∀ state event, good state → admitted state event → (first state event ↔ second state event))
    (events : List Event) (start : State) (initial : good start) (domain : Along step admitted start events) :
    Along step first start events ↔ Along step second start events := by
  induction events generalizing start with
  | nil => exact Iff.rfl
  | cons event later ih =>
    exact and_congr (agree start event initial domain.1) (ih _ (keeps start event initial domain.1) domain.2)

theorem along_iff_of_invariant {good : State → Prop} {first second : State → Event → Prop}
    (agree : ∀ state event, good state → (first state event ↔ second state event))
    (keeps : ∀ state event, good state → first state event → good (step state event))
    (events : List Event) (start : State) (initial : good start) :
    Along step first start events ↔ Along step second start events := by
  induction events generalizing start with
  | nil => exact Iff.rfl
  | cons event later ih =>
    have one := agree start event initial
    constructor
    · intro along
      exact ⟨one.mp along.1, (ih _ (keeps start event initial along.1)).mp along.2⟩
    · intro along
      have here := one.mpr along.1
      exact ⟨here, (ih _ (keeps start event initial here)).mpr along.2⟩

/-- A run is good throughout when it starts so and every step leads to a good state. -/
theorem throughout_iff (good : State → Prop) (events : List Event) (start : State) :
    Throughout step good start events ↔ good start ∧
      Along step (fun state event => good (step state event)) start events := by
  induction events generalizing start with
  | nil => exact (and_iff_left trivial).symm
  | cons event later ih => rw [Throughout, Along, ih]

/-- Among admitted events, when a step from a good state ends in a good state exactly under
`condition`, a run stays good exactly when all its steps meet it. -/
theorem throughout_iff_along {sound good : State → Prop} {admitted condition : State → Event → Prop}
    (keeps : ∀ state event, sound state → admitted state event → sound (step state event))
    (exact : ∀ state event, sound state → admitted state event → good state →
      (good (step state event) ↔ condition state event))
    (events : List Event) (start : State) (met : sound start) (initial : good start)
    (domain : Along step admitted start events) :
    Throughout step good start events ↔ Along step condition start events := by
  induction events generalizing start with
  | nil => exact iff_of_true initial trivial
  | cons event later ih =>
    have sound := keeps start event met domain.1
    have one := exact start event met domain.1 initial
    simp only [Throughout, Along, initial, true_and]
    constructor
    · intro through
      have next : good (step start event) := by
        cases later with
        | nil => exact through
        | cons _ _ => exact through.1
      exact ⟨one.mp next, (ih _ sound next domain.2).mp through⟩
    · intro steps
      exact (ih _ sound (one.mpr steps.1) domain.2).mpr steps.2

end EspLog.Runs
