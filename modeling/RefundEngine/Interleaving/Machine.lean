import Mathlib.Logic.Function.Basic
import RefundEngine.Interleaving.Program

/-!
# Interleaved runs of programs over a shared world

A machine gives every operation a program and every command an atomic effect on
a shared world.  Any number of calls run their programs concurrently: a run is
a sequence of steps, each of which lets one call issue one command, fail at one
command, return or die, or lets the environment act.

A run carries the list of its events, newest first, so that properties of whole
runs can be stated without adding anything to the world.
-/

namespace Interleaving

/-- Name of one call of an operation. -/
abbrev CallId := Nat

variable {Command : Type} {Answer : Command → Type}
variable {World Operation Result Action : Type}

/-- What one step of a run did.  `before` is the world the step started from. -/
inductive Event (Answer : Command → Type) (World Operation Result Action : Type) : Type where
  | started (call : CallId) (operation : Operation)
  | answered (call : CallId) (operation : Operation) (command : Command)
      (answer : Answer command) (before : World)
  | failed (call : CallId) (operation : Operation) (command : Command)
  | finished (call : CallId) (operation : Operation) (result : Result)
  | died (call : CallId) (operation : Operation)
  | acted (action : Action) (before : World)

/-- The call that took a step; the environment's own steps have none. -/
def Event.caller : Event Answer World Operation Result Action → Option CallId
  | .started call _ => some call
  | .answered call _ _ _ _ => some call
  | .failed call _ _ => some call
  | .finished call _ _ => some call
  | .died call _ => some call
  | .acted _ _ => none

/-- The command a step attempted. -/
def Event.command? : Event Answer World Operation Result Action → Option Command
  | .answered _ _ command _ _ => some command
  | .failed _ _ command => some command
  | _ => none

/-- Whether a step ended its call. -/
def Event.ends : Event Answer World Operation Result Action → Bool
  | .finished _ _ _ => true
  | .died _ _ => true
  | _ => false

/-- How a step ended its call: with a result, or by dying. -/
def Event.ending : Event Answer World Operation Result Action →
    Option (CallId × Operation × Option Result)
  | .finished call operation result => some (call, operation, some result)
  | .died call operation => some (call, operation, none)
  | _ => none

/-- Where one call stands. -/
inductive Call (Answer : Command → Type) (Operation Result : Type) : Type where
  | idle
  | running (operation : Operation) (rest : Program Answer Result)
  | finished (operation : Operation) (result : Result)
  | dead (operation : Operation)

/-- A call that has begun and neither returned nor died. -/
def Call.InProgress : Call Answer Operation Result → Prop
  | .running _ _ => True
  | _ => False

instance : (call : Call Answer Operation Result) → Decidable call.InProgress
  | .running _ _ => isTrue trivial
  | .idle | .finished _ _ | .dead _ => isFalse id

/-- The shared world and the calls working on it. -/
structure State (Answer : Command → Type) (World Operation Result : Type) where
  world : World
  calls : CallId → Call Answer Operation Result

/-- No call is in progress. -/
def State.Quiet (state : State Answer World Operation Result) : Prop :=
  ∀ call, ¬(state.calls call).InProgress

/-- Programs and the atomic effects of their commands.  `execute` returns nothing
while the command has to wait; `failure` is the answer to a command that failed
without effect; `close` is what the world does when a call returns or dies. -/
structure Machine (Answer : Command → Type) (World Operation Result Action : Type) where
  program : Operation → Program Answer Result
  execute : CallId → (command : Command) → World → Option (Answer command × World)
  failure : (command : Command) → Option (Answer command)
  close : CallId → World → World
  act : Action → World → Option World

namespace Machine

variable (machine : Machine Answer World Operation Result Action)

/-- One step of a run. -/
inductive Step : State Answer World Operation Result →
    Event Answer World Operation Result Action →
    State Answer World Operation Result → Prop where
  | start {state : State Answer World Operation Result} {call : CallId}
      (operation : Operation) (idle : state.calls call = .idle) :
      Step state (.started call operation)
        { state with
          calls := Function.update state.calls call
            (.running operation (machine.program operation)) }
  | answer {state : State Answer World Operation Result} {call : CallId}
      {operation : Operation} {command : Command}
      {next : Answer command → Program Answer Result}
      {answer : Answer command} {world : World}
      (running : state.calls call = .running operation (.call command next))
      (executed : machine.execute call command state.world = some (answer, world)) :
      Step state (.answered call operation command answer state.world)
        { world := world
          calls := Function.update state.calls call (.running operation (next answer)) }
  | fail {state : State Answer World Operation Result} {call : CallId}
      {operation : Operation} {command : Command}
      {next : Answer command → Program Answer Result} {answer : Answer command}
      (running : state.calls call = .running operation (.call command next))
      (fails : machine.failure command = some answer) :
      Step state (.failed call operation command)
        { state with
          calls := Function.update state.calls call (.running operation (next answer)) }
  | finish {state : State Answer World Operation Result} {call : CallId}
      {operation : Operation} {result : Result}
      (running : state.calls call = .running operation (.ret result)) :
      Step state (.finished call operation result)
        { world := machine.close call state.world
          calls := Function.update state.calls call (.finished operation result) }
  | die {state : State Answer World Operation Result} {call : CallId}
      {operation : Operation} {rest : Program Answer Result}
      (running : state.calls call = .running operation rest) :
      Step state (.died call operation)
        { world := machine.close call state.world
          calls := Function.update state.calls call (.dead operation) }
  | act {state : State Answer World Operation Result} {action : Action} {world : World}
      (acted : machine.act action state.world = some world) :
      Step state (.acted action state.world) { state with world := world }

/-- A finite run from `initial`, with its events newest first.  `allowed` selects
the runs under study: it sees the earlier events and the next one. -/
inductive Run
    (allowed : List (Event Answer World Operation Result Action) →
      Event Answer World Operation Result Action → Prop)
    (initial : State Answer World Operation Result) :
    List (Event Answer World Operation Result Action) →
      State Answer World Operation Result → Prop where
  | nil : Run allowed initial [] initial
  | cons {trace : List (Event Answer World Operation Result Action)}
      {state next : State Answer World Operation Result}
      {event : Event Answer World Operation Result Action}
      (run : Run allowed initial trace state)
      (step : machine.Step state event next)
      (permitted : allowed trace event) :
      Run allowed initial (event :: trace) next

variable {machine}
variable {allowed : List (Event Answer World Operation Result Action) →
  Event Answer World Operation Result Action → Prop}
variable {initial state next : State Answer World Operation Result}
variable {trace : List (Event Answer World Operation Result Action)}
variable {event : Event Answer World Operation Result Action}

theorem Run.mono
    {wider : List (Event Answer World Operation Result Action) →
      Event Answer World Operation Result Action → Prop}
    (implies : ∀ earlier event, allowed earlier event → wider earlier event)
    (run : machine.Run allowed initial trace state) :
    machine.Run wider initial trace state := by
  induction run with
  | nil => exact .nil
  | cons run step permitted ih => exact .cons ih step (implies _ _ permitted)

/-- Continue a run from the state it has reached. -/
theorem Run.append {more : List (Event Answer World Operation Result Action)}
    (run : machine.Run allowed initial trace state)
    (continued : machine.Run (fun since => allowed (since ++ trace)) state more next) :
    machine.Run allowed initial (more ++ trace) next := by
  induction continued with
  | nil => exact run
  | cons _ step permitted ih => exact .cons ih step permitted

/-- Every point of a trace is a step taken from where the earlier events lead. -/
theorem Run.step_of_split {newer earlier : List (Event Answer World Operation Result Action)}
    (run : machine.Run allowed initial trace state)
    (split : trace = newer ++ event :: earlier) :
    ∃ before after, machine.Run allowed initial earlier before ∧
      machine.Step before event after ∧ allowed earlier event := by
  induction newer generalizing trace state with
  | nil =>
      rw [split] at run
      cases run with
      | cons run step permitted => exact ⟨_, _, run, step, permitted⟩
  | cons latest newer ih =>
      rw [split] at run
      cases run with
      | cons run step permitted => exact ih run rfl

theorem Run.exists_step_of_mem (run : machine.Run allowed initial trace state)
    (member : event ∈ trace) :
    ∃ earlier before after, machine.Run allowed initial earlier before ∧
      machine.Step before event after ∧ allowed earlier event := by
  rcases List.append_of_mem member with ⟨newer, earlier, split⟩
  rcases run.step_of_split split with ⟨before, after, step⟩
  exact ⟨earlier, before, after, step⟩

/-- A property that every allowed step preserves holds in every state of a run. -/
theorem Run.preserves (property : List (Event Answer World Operation Result Action) →
      State Answer World Operation Result → Prop)
    (base : property [] initial)
    (stepped : ∀ trace state event next, machine.Run allowed initial trace state →
      property trace state → machine.Step state event next → allowed trace event →
      property (event :: trace) next)
    (run : machine.Run allowed initial trace state) : property trace state := by
  induction run with
  | nil => exact base
  | cons run step permitted ih => exact stepped _ _ _ _ run ih step permitted

/-- A step leaves every call alone but the one that took it. -/
theorem Step.calls_other (step : machine.Step state event next) {other : CallId}
    (different : event.caller ≠ some other) : next.calls other = state.calls other := by
  cases step with
  | act acted => rfl
  | start | answer | fail | finish | die =>
      exact Function.update_of_ne (fun equal => different (by rw [equal]; rfl)) _ _

theorem Run.no_events_of_idle
    (run : machine.Run allowed initial trace state) {call : CallId}
    (stillIdle : state.calls call = .idle) :
    ∀ event ∈ trace, event.caller ≠ some call := by
  induction run with
  | nil => simp
  | @cons trace state next event run step permitted ih =>
      by_cases taken : event.caller = some call
      · exfalso
        cases step with
        | act acted => cases taken
        | start operation => cases taken; simp at stillIdle
        | answer running executed => cases taken; simp at stillIdle
        | fail running fails => cases taken; simp at stillIdle
        | finish running => cases taken; simp at stillIdle
        | die running => cases taken; simp at stillIdle
      · intro candidate member
        rcases List.mem_cons.mp member with rfl | earlier
        · exact taken
        · exact ih (step.calls_other taken ▸ stillIdle) candidate earlier

theorem Run.idle_of_no_events (run : machine.Run allowed initial trace state) {call : CallId}
    (idle : initial.calls call = .idle) (untouched : call ∉ trace.filterMap Event.caller) :
    state.calls call = .idle := by
  induction run with
  | nil => exact idle
  | @cons trace state next event run step permitted ih =>
      have different : event.caller ≠ some call := by
        intro taken
        exact untouched (List.mem_filterMap.mpr ⟨event, List.mem_cons_self .., taken⟩)
      rw [step.calls_other different]
      apply ih
      intro earlier
      rcases List.mem_filterMap.mp earlier with ⟨other, member, taken⟩
      exact untouched (List.mem_filterMap.mpr ⟨other, List.mem_cons_of_mem _ member, taken⟩)

theorem Run.idle_before (run : machine.Run allowed initial trace state) {call : CallId}
    (idle : state.calls call = .idle) : initial.calls call = .idle := by
  induction run with
  | nil => exact idle
  | @cons trace state next event run step permitted ih =>
      apply ih
      rw [← step.calls_other]
      · exact idle
      · exact (run.cons step permitted).no_events_of_idle idle event (List.mem_cons_self ..)

/-- A call that runs has been running all along, or has started. -/
theorem Run.origin_of_running (run : machine.Run allowed initial trace state) {call : CallId}
    {operation : Operation} {rest : Program Answer Result}
    (running : state.calls call = .running operation rest) :
    (initial.calls call = .idle ∧ .started call operation ∈ trace) ∨
      ∃ rest, initial.calls call = .running operation rest := by
  induction run generalizing rest with
  | nil => exact .inr ⟨rest, running⟩
  | @cons trace state next event run step permitted ih =>
      have earlier : ∀ {rest}, state.calls call = .running operation rest →
          (initial.calls call = .idle ∧ .started call operation ∈ event :: trace) ∨
            ∃ rest, initial.calls call = .running operation rest := by
        intro rest before
        rcases ih before with ⟨idle, started⟩ | running
        · exact .inl ⟨idle, List.mem_cons_of_mem _ started⟩
        · exact .inr running
      by_cases taken : event.caller = some call
      · cases step with
        | act => cases taken
        | start operation idle =>
            cases taken
            simp only [Function.update_self, Call.running.injEq] at running
            rw [← running.1]
            exact .inl ⟨run.idle_before idle, List.mem_cons_self ..⟩
        | answer before | fail before =>
            cases taken
            simp only [Function.update_self, Call.running.injEq] at running
            rw [running.1] at before
            exact earlier before
        | finish | die =>
            cases taken
            simp at running
      · rw [step.calls_other taken] at running
        exact earlier running

theorem Run.origin_of_answered (run : machine.Run allowed initial trace state) {call : CallId}
    {operation : Operation} {command : Command} {answer : Answer command} {before : World}
    (member : .answered call operation command answer before ∈ trace) :
    (initial.calls call = .idle ∧ .started call operation ∈ trace) ∨
      ∃ rest, initial.calls call = .running operation rest := by
  rcases List.append_of_mem member with ⟨newer, earlier, split⟩
  rcases run.step_of_split split with ⟨reached, next, run, step, _⟩
  cases step with
  | answer running =>
      rcases run.origin_of_running running with ⟨idle, started⟩ | running
      · rw [split]
        exact .inl ⟨idle, List.mem_append_right _ (List.mem_cons_of_mem _ started)⟩
      · exact .inr running

theorem Run.idle_of_started (run : machine.Run allowed initial trace state) {call : CallId}
    {operation : Operation} (member : .started call operation ∈ trace) :
    initial.calls call = .idle := by
  rcases run.exists_step_of_mem member with ⟨earlier, before, after, run, step, _⟩
  cases step with
  | start operation idle => exact run.idle_before idle

/-- A run is quiet once the calls it has seen are. -/
theorem Run.quiet (run : machine.Run allowed initial trace state)
    (idle : ∀ call, initial.calls call = .idle)
    (ended : ∀ call ∈ trace.filterMap Event.caller, ¬(state.calls call).InProgress) :
    state.Quiet := by
  intro call
  by_cases seen : call ∈ trace.filterMap Event.caller
  · exact ended call seen
  · rw [run.idle_of_no_events (idle call) seen]
    exact id

theorem Run.no_end_of_inProgress
    (run : machine.Run allowed initial trace state) {call : CallId}
    (inProgress : (state.calls call).InProgress) :
    ∀ event ∈ trace, event.caller = some call → event.ends = false := by
  induction run with
  | nil => simp
  | @cons trace state next event run step permitted ih =>
      intro candidate member own
      by_cases taken : event.caller = some call
      · have before : state.calls call = .idle ∨ (state.calls call).InProgress := by
          cases step with
          | act acted => cases taken
          | start operation idle =>
              cases taken
              exact .inl idle
          | answer running executed | fail running fails | finish running | die running =>
              cases taken
              right
              rw [running]
              trivial
        rcases List.mem_cons.mp member with rfl | earlier
        · cases step with
          | act acted => cases taken
          | start operation | answer running executed | fail running fails => rfl
          | finish running | die running =>
              cases taken
              simp [Call.InProgress] at inProgress
        · rcases before with idle | inProgress
          · exact (run.no_events_of_idle idle candidate earlier own).elim
          · exact ih inProgress candidate earlier own
      · rw [step.calls_other taken] at inProgress
        rcases List.mem_cons.mp member with rfl | earlier
        · exact (taken own).elim
        · exact ih inProgress candidate earlier own

theorem Run.calls_of_ending (run : machine.Run allowed initial trace state)
    (member : event ∈ trace) {call : CallId} {operation : Operation} {outcome : Option Result}
    (ended : event.ending = some (call, operation, outcome)) :
    state.calls call = outcome.elim (.dead operation) (.finished operation) := by
  induction run with
  | nil => cases member
  | @cons trace state next latest run step permitted ih =>
      rcases List.mem_cons.mp member with rfl | earlier
      · cases step with
        | finish | die =>
            cases ended
            exact Function.update_self ..
        | start | answer | fail | act => cases ended
      · have stands := ih earlier
        have different : latest.caller ≠ some call := by
          intro taken
          cases step with
          | start operation idle =>
              cases taken
              rw [idle] at stands
              cases outcome <;> cases stands
          | answer running | fail running | finish running | die running =>
              cases taken
              rw [running] at stands
              cases outcome <;> cases stands
          | act => cases taken
        rw [step.calls_other different]
        exact stands

theorem Run.mem_of_finished (run : machine.Run allowed initial trace state) {call : CallId}
    {operation : Operation} {result : Result} (idle : initial.calls call = .idle)
    (finished : state.calls call = .finished operation result) :
    .finished call operation result ∈ trace := by
  induction run with
  | nil => cases idle.symm.trans finished
  | @cons trace state next event run step permitted ih =>
      by_cases taken : event.caller = some call
      · cases step with
        | start | answer | fail | die =>
            cases taken
            simp at finished
        | finish =>
            cases taken
            simp only [Function.update_self, Call.finished.injEq] at finished
            rcases finished with ⟨rfl, rfl⟩
            exact List.mem_cons_self ..
        | act => cases taken
      · rw [step.calls_other taken] at finished
        exact List.mem_cons_of_mem _ (ih finished)

/-! ## Executable runs -/

/-- The choices that determine a run. -/
inductive Label (Operation Action : Type) : Type where
  | start (call : CallId) (operation : Operation)
  | execute (call : CallId)
  | fail (call : CallId)
  | finish (call : CallId)
  | die (call : CallId)
  | act (action : Action)

variable (machine) in
/-- Take the step a label asks for, when it is enabled. -/
def step (label : Label Operation Action) (state : State Answer World Operation Result) :
    Option (Event Answer World Operation Result Action ×
      State Answer World Operation Result) :=
  match label with
  | .start call operation =>
      match state.calls call with
      | .idle =>
          some (.started call operation,
            { state with
              calls := Function.update state.calls call
                (.running operation (machine.program operation)) })
      | _ => none
  | .execute call =>
      match state.calls call with
      | .running operation (.call command next) =>
          match machine.execute call command state.world with
          | some (answer, world) =>
              some (.answered call operation command answer state.world,
                { world := world
                  calls := Function.update state.calls call
                    (.running operation (next answer)) })
          | none => none
      | _ => none
  | .fail call =>
      match state.calls call with
      | .running operation (.call command next) =>
          match machine.failure command with
          | some answer =>
              some (.failed call operation command,
                { state with
                  calls := Function.update state.calls call
                    (.running operation (next answer)) })
          | none => none
      | _ => none
  | .finish call =>
      match state.calls call with
      | .running operation (.ret result) =>
          some (.finished call operation result,
            { world := machine.close call state.world
              calls := Function.update state.calls call (.finished operation result) })
      | _ => none
  | .die call =>
      match state.calls call with
      | .running operation _ =>
          some (.died call operation,
            { world := machine.close call state.world
              calls := Function.update state.calls call (.dead operation) })
      | _ => none
  | .act action =>
      match machine.act action state.world with
      | some world => some (.acted action state.world, { state with world := world })
      | none => none

/-- The executable step only takes steps of the relation. -/
theorem step_sound {label : Label Operation Action}
    (stepped : machine.step label state = some (event, next)) :
    machine.Step state event next := by
  cases label with
  | start call operation =>
      simp only [step] at stepped
      split at stepped <;> cases stepped
      exact .start operation ‹_›
  | execute call =>
      simp only [step] at stepped
      split at stepped
      · split at stepped <;> cases stepped
        exact .answer ‹_› ‹_›
      · cases stepped
  | fail call =>
      simp only [step] at stepped
      split at stepped
      · split at stepped <;> cases stepped
        exact .fail ‹_› ‹_›
      · cases stepped
  | finish call =>
      simp only [step] at stepped
      split at stepped <;> cases stepped
      exact .finish ‹_›
  | die call =>
      simp only [step] at stepped
      split at stepped <;> cases stepped
      exact .die ‹_›
  | act action =>
      simp only [step] at stepped
      split at stepped <;> cases stepped
      exact .act ‹_›

variable (machine) in
/-- Play a list of labels from a state, refusing steps that are not allowed. -/
def play (allowed : List (Event Answer World Operation Result Action) →
      Event Answer World Operation Result Action → Prop)
    [∀ trace event, Decidable (allowed trace event)] :
    List (Label Operation Action) →
    List (Event Answer World Operation Result Action) ×
      State Answer World Operation Result →
    Option (List (Event Answer World Operation Result Action) ×
      State Answer World Operation Result)
  | [], reached => some reached
  | label :: labels, (trace, state) =>
      match machine.step label state with
      | some (event, next) =>
          if allowed trace event then play allowed labels (event :: trace, next) else none
      | none => none

theorem play_run [∀ trace event, Decidable (allowed trace event)]
    {labels : List (Label Operation Action)}
    {reached : List (Event Answer World Operation Result Action) ×
      State Answer World Operation Result}
    (run : machine.Run allowed initial trace state)
    (played : machine.play allowed labels (trace, state) = some reached) :
    machine.Run allowed initial reached.1 reached.2 := by
  induction labels generalizing trace state with
  | nil =>
      cases played
      exact run
  | cons label labels ih =>
      simp only [play] at played
      split at played
      · split at played
        · exact ih (.cons run (step_sound ‹_›) ‹_›) played
        · cases played
      · cases played

end Machine

end Interleaving
