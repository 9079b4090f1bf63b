import RefundEngine.Interleaving.History

/-!
# Calls one at a time

A run is serial when a call starts only once every earlier one has ended; the environment
may act at any time.  What holds between the calls of a serial run is an invariant that
every program keeps when it runs alone, also where it may stop short; nothing else has to
be shown of the steps.
-/

namespace Interleaving

variable {Command : Type} {Answer : Command → Type} {α β : Type}
variable {World Operation Result Action : Type}

/-- Every call that has taken a step has ended. -/
def Settled (trace : List (Event Answer World Operation Result Action)) : Prop :=
  ∀ call ∈ trace.filterMap Event.caller, ∃ last ∈ own call trace, last.ends = true

instance (trace : List (Event Answer World Operation Result Action)) :
    Decidable (Settled trace) :=
  inferInstanceAs (Decidable (∀ call ∈ trace.filterMap Event.caller, ∃ last ∈ _, _))

/-- Calls start only while no call is in progress.  A call may fail and die where its own
events permit it. -/
def Serial (mayStop : List (Event Answer World Operation Result Action) → Prop)
    (trace : List (Event Answer World Operation Result Action)) :
    Event Answer World Operation Result Action → Prop
  | .started _ _ => Settled trace
  | .failed call _ _ | .died call _ => mayStop (own call trace)
  | .answered .. | .finished .. | .acted .. => True

instance (mayStop : List (Event Answer World Operation Result Action) → Prop)
    [DecidablePred mayStop] (trace : List (Event Answer World Operation Result Action))
    (event : Event Answer World Operation Result Action) :
    Decidable (Serial mayStop trace event) :=
  match event with
  | .started _ _ => inferInstanceAs (Decidable (Settled trace))
  | .failed call _ _ | .died call _ => inferInstanceAs (Decidable (mayStop (own call trace)))
  | .answered .. | .finished .. | .acted .. => isTrue trivial

section Run

variable {machine : Machine Answer World Operation Result Action}
variable {allowed : List (Event Answer World Operation Result Action) →
  Event Answer World Operation Result Action → Prop}
variable {initial state : State Answer World Operation Result}
variable {trace : List (Event Answer World Operation Result Action)}

theorem Machine.Run.quiet_of_settled (run : machine.Run allowed initial trace state)
    (idle : ∀ call, initial.calls call = .idle) (settled : Settled trace) : state.Quiet := by
  apply run.quiet idle
  intro call seen inProgress
  rcases settled call seen with ⟨last, member, ends⟩
  rcases mem_own.mp member with ⟨inTrace, mine⟩
  have open' := run.no_end_of_inProgress inProgress last inTrace mine
  cases ends.symm.trans open'

end Run

/-! ## Watching a serial run -/

/-- What is known of every world of a run, what the environment may do to a world, where a
call may stop, what is to hold between calls, and what is to hold of every executed command
after the call's earlier events. -/
structure Watch (machine : Machine Answer World Operation Result Action) where
  always : World → Prop
  drifts : World → World → Prop
  drifts_refl : ∀ world, drifts world world
  drifts_trans : ∀ first second third, drifts first second → drifts second third →
    drifts first third
  mayStop : List (Event Answer World Operation Result Action) → Prop
  between : World → Prop
  between_drifts : ∀ before after, between before → drifts before after → between after
  each : List (Event Answer World Operation Result Action) →
    Event Answer World Operation Result Action → Prop

namespace Watch

variable {machine : Machine Answer World Operation Result Action}

/-- Run alone, the program executes only commands as they should be, leaves the world as it
should be between calls wherever it may stop, and meets `post` where it ends.  Before each
of its steps the environment may have acted. -/
def Keeps (watch : Watch machine) (call : CallId) (operation : Operation)
    (post : α → List (Event Answer World Operation Result Action) → World → Prop) :
    Program Answer α → List (Event Answer World Operation Result Action) → World → Prop
  | .ret value, events, world => ∀ now, watch.drifts world now → post value events now
  | .call command next, events, world => ∀ now, watch.drifts world now → watch.always now →
      (watch.mayStop events → watch.between (machine.close call now)) ∧
      (∀ answer after, machine.execute call command now = some (answer, after) →
        watch.always after →
        watch.each events (.answered call operation command answer now) ∧
        Keeps watch call operation post (next answer)
          (.answered call operation command answer now :: events) after) ∧
      (watch.mayStop events → ∀ answer, machine.failure command = some answer →
        Keeps watch call operation post (next answer)
          (.failed call operation command :: events) now)

/-- What every call of a serial run owes: the world as it should be when it has ended. -/
def Rests (watch : Watch machine) (call : CallId) :
    α → List (Event Answer World Operation Result Action) → World → Prop :=
  fun _ _ world => watch.between (machine.close call world)

variable {watch : Watch machine} {call : CallId} {operation : Operation}
variable {events : List (Event Answer World Operation Result Action)} {world now : World}

theorem Keeps.bind {program : Program Answer α} {continuation : α → Program Answer β}
    {post : β → List (Event Answer World Operation Result Action) → World → Prop}
    (keeps : watch.Keeps call operation
      (fun value => watch.Keeps call operation post (continuation value))
      program events world) :
    watch.Keeps call operation post (program >>= continuation) events world := by
  induction program generalizing events world with
  | ret value => exact keeps world (watch.drifts_refl world)
  | call command next ih =>
      intro now drifted known
      rcases keeps now drifted known with ⟨stops, answered, failed⟩
      constructor
      · exact stops
      constructor
      · intro answer after executed known
        rcases answered answer after executed known with ⟨shown, rest⟩
        exact ⟨shown, ih answer rest⟩
      · intro may answer fails
        exact ih answer (failed may answer fails)

theorem Keeps.mono {program : Program Answer α}
    {post weaker : α → List (Event Answer World Operation Result Action) → World → Prop}
    (keeps : watch.Keeps call operation post program events world)
    (implies : ∀ value events world, post value events world → weaker value events world) :
    watch.Keeps call operation weaker program events world := by
  induction program generalizing events world with
  | ret value =>
      intro now drifted
      exact implies _ _ _ (keeps now drifted)
  | call command next ih =>
      intro now drifted known
      rcases keeps now drifted known with ⟨stops, answered, failed⟩
      constructor
      · exact stops
      constructor
      · intro answer after executed known
        rcases answered answer after executed known with ⟨shown, rest⟩
        exact ⟨shown, ih answer rest⟩
      · intro may answer fails
        exact ih answer (failed may answer fails)

/-- What the environment does, a program that is kept withstands. -/
theorem Keeps.drifts {program : Program Answer α}
    {post : α → List (Event Answer World Operation Result Action) → World → Prop}
    (keeps : watch.Keeps call operation post program events world)
    (drifted : watch.drifts world now) :
    watch.Keeps call operation post program events now := by
  cases program with
  | ret value =>
      intro later drifted'
      exact keeps later (watch.drifts_trans _ _ _ drifted drifted')
  | call command next =>
      intro later drifted'
      exact keeps later (watch.drifts_trans _ _ _ drifted drifted')

theorem Keeps.stops {program : Program Answer α}
    (keeps : watch.Keeps call operation (watch.Rests call) program events world)
    (known : watch.always world) (may : watch.mayStop events) :
    watch.between (machine.close call world) := by
  cases program with
  | ret value => exact keeps world (watch.drifts_refl world)
  | call command next => exact (keeps world (watch.drifts_refl world) known).1 may

variable {allowed : List (Event Answer World Operation Result Action) →
  Event Answer World Operation Result Action → Prop}
variable {initial state : State Answer World Operation Result}
variable {trace : List (Event Answer World Operation Result Action)}

/-- Where a serial run may stand: at rest, or inside one call. -/
private inductive Position (watch : Watch machine)
    (trace : List (Event Answer World Operation Result Action))
    (state : State Answer World Operation Result) : Prop where
  | resting (quiet : state.Quiet) (between : watch.between state.world)
  | inside {call : CallId} {operation : Operation} {rest : Program Answer Result}
      (stands : state.calls call = .running operation rest)
      (only : ∀ other, other ≠ call → ¬(state.calls other).InProgress)
      (keeps : watch.Keeps call operation (watch.Rests call) rest (own call trace) state.world)

/-- What a serial run has to supply: its environment and its programs keep what should hold
between calls. -/
structure Watched (watch : Watch machine)
    (allowed : List (Event Answer World Operation Result Action) →
      Event Answer World Operation Result Action → Prop)
    (initial : State Answer World Operation Result) : Prop where
  serial : ∀ trace event, allowed trace event → Serial watch.mayStop trace event
  idle : ∀ call, initial.calls call = .idle
  always : ∀ trace state, machine.Run allowed initial trace state → watch.always state.world
  base : watch.between initial.world
  acts : ∀ trace action before after, allowed trace (.acted action before) →
    machine.act action before = some after → watch.drifts before after
  keeps : ∀ call operation world, watch.always world → watch.between world →
    watch.Keeps call operation (watch.Rests call) (machine.program operation)
      [.started call operation] world

private theorem others_update {calls : CallId → Call Answer Operation Result} {call : CallId}
    (only : ∀ other, other ≠ call → ¬(calls other).InProgress)
    (moved : Call Answer Operation Result) (other : CallId) (different : other ≠ call) :
    ¬(Function.update calls call moved other).InProgress := by
  rw [Function.update_of_ne different]
  exact only other different

private theorem quiet_update {calls : CallId → Call Answer Operation Result} {call : CallId}
    (only : ∀ other, other ≠ call → ¬(calls other).InProgress)
    {ended : Call Answer Operation Result} (finished : ¬ended.InProgress) (other : CallId) :
    ¬(Function.update calls call ended other).InProgress := by
  by_cases own : other = call
  · rw [own, Function.update_self]
    exact finished
  · exact others_update only ended other own

/-- A step of a serial run leaves it standing, and what is shown of the step holds. -/
private theorem Position.step {next : State Answer World Operation Result}
    {event : Event Answer World Operation Result Action} (watched : watch.Watched allowed initial)
    (run : machine.Run allowed initial trace state) (position : watch.Position trace state)
    (step : machine.Step state event next) (permitted : allowed trace event) :
    watch.Position (event :: trace) next ∧
      ∀ call operation command answer before,
        event = .answered call operation command answer before →
        watch.each (own call trace) event := by
  have serial := watched.serial trace event permitted
  have known := watched.always _ _ run
  have known' := watched.always _ _ (run.cons step permitted)
  cases position with
  | resting quiet between =>
      cases step with
      | @start call operation idle =>
          constructor
          · apply Position.inside (Function.update_self ..)
            · exact others_update (fun other _ => quiet other) _
            · rw [own_cons_self rfl, Contract.own_of_idle run idle]
              exact watched.keeps call operation _ known between
          · intro _ _ _ _ _ same
            cases same
      | @answer call _ _ _ _ _ running | @fail call _ _ _ _ running | @finish call _ _ running
      | @die call _ _ running =>
          have resting := quiet call
          rw [running] at resting
          exact (resting trivial).elim
      | act acted =>
          constructor
          · apply Position.resting
            · exact quiet
            exact watch.between_drifts _ _ between (watched.acts _ _ _ _ permitted acted)
          · intro _ _ _ _ _ same
            cases same
  | @inside call operation rest stands only keeps =>
      have isCall : ∀ {other operation' rest'},
          state.calls other = .running operation' rest' → other = call := by
        intro other operation' rest' running
        by_contra different
        have resting := only other different
        rw [running] at resting
        exact resting trivial
      cases step with
      | start =>
          have resting := run.quiet_of_settled watched.idle serial call
          rw [stands] at resting
          exact (resting trivial).elim
      | act acted =>
          constructor
          · apply Position.inside
            · exact stands
            · exact only
            rw [own_cons_other (by simp [Event.caller])]
            exact keeps.drifts (watched.acts _ _ _ _ permitted acted)
          · intro _ _ _ _ _ same
            cases same
      | @answer other operation' command next' answer world running executed =>
          cases isCall running
          cases stands.symm.trans running
          have answered := (keeps _ (watch.drifts_refl _) known).2.1 answer world executed known'
          rcases answered with ⟨shown, rest⟩
          constructor
          · apply Position.inside (Function.update_self ..)
            · exact others_update only _
            · rw [own_cons_self rfl]
              exact rest
          · intro _ _ _ _ _ same
            cases same
            exact shown
      | @fail other operation' command next' answer running fails =>
          cases isCall running
          cases stands.symm.trans running
          constructor
          · apply Position.inside (Function.update_self ..)
            · exact others_update only _
            · rw [own_cons_self rfl]
              exact (keeps _ (watch.drifts_refl _) known).2.2 serial answer fails
          · intro _ _ _ _ _ same
            cases same
      | @finish other operation' result running =>
          cases isCall running
          cases stands.symm.trans running
          constructor
          · exact .resting (quiet_update only id) (keeps _ (watch.drifts_refl _))
          · intro _ _ _ _ _ same
            cases same
      | @die other operation' rest' running =>
          cases isCall running
          cases stands.symm.trans running
          constructor
          · exact .resting (quiet_update only id) (keeps.stops known serial)
          · intro _ _ _ _ _ same
            cases same

/-- In every serial run that is watched, every quiet state is as it should be between calls,
and every executed command is as it should be. -/
theorem Watched.run (watched : watch.Watched allowed initial)
    (run : machine.Run allowed initial trace state) :
    (state.Quiet → watch.between state.world) ∧
      ∀ newer call operation command answer before earlier,
        trace = newer ++ .answered call operation command answer before :: earlier →
        watch.each (own call earlier) (.answered call operation command answer before) := by
  have both : watch.Position trace state ∧
      ∀ newer call operation command answer before earlier,
        trace = newer ++ .answered call operation command answer before :: earlier →
        watch.each (own call earlier) (.answered call operation command answer before) := by
    apply run.preserves fun trace state => watch.Position trace state ∧
      ∀ newer call operation command answer before earlier,
        trace = newer ++ .answered call operation command answer before :: earlier →
        watch.each (own call earlier) (.answered call operation command answer before)
    · constructor
      · apply Position.resting
        · intro call
          rw [watched.idle call]
          exact id
        · exact watched.base
      · intro newer _ _ _ _ _ _ split
        cases newer <;> cases split
    · intro trace state event next run both step permitted
      rcases both.1.step watched run step permitted with ⟨position, shown⟩
      constructor
      · exact position
      · intro newer call operation command answer before earlier split
        cases newer with
        | nil =>
            cases split
            exact shown _ _ _ _ _ rfl
        | cons latest newer =>
            cases split
            exact both.2 newer _ _ _ _ _ _ rfl
  constructor
  · intro quiet
    cases both.1 with
    | resting _ between => exact between
    | @inside call _ _ stands =>
        have resting := quiet call
        rw [stands] at resting
        exact (resting trivial).elim
  · exact both.2

end Watch

end Interleaving
