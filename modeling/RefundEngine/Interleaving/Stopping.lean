import RefundEngine.Interleaving.Solo

/-!
# Calls that stop short

A call can stop at any of its commands: the command fails, or the call dies.  A program
withstands a condition when the condition holds of the call's events and of the world at
every point where it can stop, so that it holds of what every call that ran alone left
behind, however it ended.
-/

namespace Interleaving

variable {Command : Type} {Answer : Command → Type}
variable {World Operation Result Action α β : Type}

namespace Machine

variable {machine : Machine Answer World Operation Result Action}

/-- Only the one call takes steps; it may fail and die. -/
def Only (call : CallId) (operation : Operation) :
    List (Event Answer World Operation Result Action) →
    Event Answer World Operation Result Action → Prop
  | _, .started caller started => caller = call ∧ started = operation
  | _, .answered caller _ _ _ _ => caller = call
  | _, .failed caller _ _ => caller = call
  | _, .finished caller _ _ => caller = call
  | _, .died caller _ => caller = call
  | _, .acted _ _ => False

instance [DecidableEq Operation] (call : CallId) (operation : Operation)
    (trace : List (Event Answer World Operation Result Action))
    (event : Event Answer World Operation Result Action) :
    Decidable (Only call operation trace event) :=
  match event with
  | .started _ _ => inferInstanceAs (Decidable (_ ∧ _))
  | .answered caller _ _ _ _ | .failed caller _ _ | .finished caller _ _ | .died caller _ =>
      inferInstanceAs (Decidable (caller = call))
  | .acted .. => isFalse id

theorem Run.only_of_alone {call : CallId} {operation : Operation}
    {initial state : State Answer World Operation Result}
    {trace : List (Event Answer World Operation Result Action)}
    (run : machine.Run (Alone call operation) initial trace state) :
    machine.Run (Only call operation) initial trace state ∧
      ∀ command, .failed call operation command ∉ trace := by
  constructor
  · apply run.mono
    intro earlier event permitted
    cases event with
    | started | answered | finished => exact permitted
    | failed | died | acted => exact permitted.elim
  · intro command failed
    rcases run.exists_step_of_mem failed with ⟨_, _, _, _, _, permitted⟩
    exact permitted

/-- A call that runs by itself executes only what its program issues. -/
theorem Run.issued_of_only {kind : Command → Prop} {call : CallId} {operation : Operation}
    {initial state : State Answer World Operation Result}
    {trace : List (Event Answer World Operation Result Action)}
    (issues : (machine.program operation).Issues kind) (idle : initial.calls call = .idle)
    (run : machine.Run (Only call operation) initial trace state) :
    (∀ current rest, state.calls call = .running current rest → rest.Issues kind) ∧
      ∀ event ∈ trace, ∀ command, event.command? = some command → kind command := by
  induction run with
  | nil =>
      constructor
      · intro current rest stands
        cases idle.symm.trans stands
      · intro event member
        cases member
  | @cons earlier state next event run step permitted ih =>
      rcases ih with ⟨remains, executed⟩
      have later : (∀ command, event.command? = some command → kind command) →
          ∀ earlier' ∈ event :: earlier, ∀ command, earlier'.command? = some command →
            kind command := by
        intro now earlier' member
        rcases List.mem_cons.mp member with rfl | member
        · exact now
        · exact executed earlier' member
      cases step with
      | start =>
          rcases permitted with ⟨rfl, rfl⟩
          refine ⟨?_, later nofun⟩
          intro current rest stands
          simp only [Function.update_self, Call.running.injEq] at stands
          rcases stands with ⟨_, rfl⟩
          exact issues
      | answer running | fail running =>
          cases permitted
          have left := remains _ _ running
          refine ⟨?_, later fun command same => Option.some.inj same ▸ left.1⟩
          intro current rest stands
          simp only [Function.update_self, Call.running.injEq] at stands
          rcases stands with ⟨_, rfl⟩
          exact left.2 _
      | finish | die =>
          cases permitted
          refine ⟨?_, later nofun⟩
          intro current rest stands
          simp at stands
      | act => exact permitted.elim

variable (machine) in
/-- Wherever the program can stop, the condition holds; and where it ends, so does
`post`. -/
def Withstands (call : CallId) (operation : Operation)
    (crash : List (Event Answer World Operation Result Action) → World → Prop)
    (post : α → List (Event Answer World Operation Result Action) → World → Prop) :
    Program Answer α → List (Event Answer World Operation Result Action) → World → Prop
  | .ret value, events, world => post value events world
  | .call command next, events, world =>
      crash events world ∧
      (∀ answer after, machine.execute call command world = some (answer, after) →
        Withstands call operation crash post (next answer)
          (.answered call operation command answer world :: events) after) ∧
      (∀ answer, machine.failure command = some answer →
        Withstands call operation crash post (next answer)
          (.failed call operation command :: events) world)

section Rules

variable {call : CallId} {operation : Operation} {world : World}
variable {crash : List (Event Answer World Operation Result Action) → World → Prop}
variable {post : α → List (Event Answer World Operation Result Action) → World → Prop}
variable {events : List (Event Answer World Operation Result Action)}

theorem Withstands.bind {program : Program Answer α} {continuation : α → Program Answer β}
    {post : β → List (Event Answer World Operation Result Action) → World → Prop}
    (withstands : machine.Withstands call operation crash
      (fun value => machine.Withstands call operation crash post (continuation value))
      program events world) :
    machine.Withstands call operation crash post (program >>= continuation) events world := by
  induction program generalizing events world with
  | ret value => exact withstands
  | call command next ih =>
      rcases withstands with ⟨stops, answered, failed⟩
      constructor
      · exact stops
      · constructor
        · intro answer after executed
          exact ih answer (answered answer after executed)
        · intro answer fails
          exact ih answer (failed answer fails)

theorem Withstands.mono {program : Program Answer α}
    {weaker : α → List (Event Answer World Operation Result Action) → World → Prop}
    (withstands : machine.Withstands call operation crash post program events world)
    (implies : ∀ value events world, post value events world → weaker value events world) :
    machine.Withstands call operation crash weaker program events world := by
  induction program generalizing events world with
  | ret value => exact implies _ _ _ withstands
  | call command next ih =>
      rcases withstands with ⟨stops, answered, failed⟩
      constructor
      · exact stops
      · constructor
        · intro answer after executed
          exact ih answer (answered answer after executed)
        · intro answer fails
          exact ih answer (failed answer fails)

theorem Withstands.stops {program : Program Answer α}
    (withstands : machine.Withstands call operation crash (fun _ => crash) program events world) :
    crash events world := by
  cases program with
  | ret value => exact withstands
  | call command next => exact withstands.1

end Rules

variable {call : CallId} {operation : Operation}
variable {crash : List (Event Answer World Operation Result Action) → World → Prop}
variable {post : Result → List (Event Answer World Operation Result Action) → World → Prop}
variable {initial state : State Answer World Operation Result}
variable {trace : List (Event Answer World Operation Result Action)}

/-- Where a call that runs by itself may stand. -/
private inductive Position (machine : Machine Answer World Operation Result Action)
    (call : CallId) (operation : Operation)
    (crash : List (Event Answer World Operation Result Action) → World → Prop)
    (post : Result → List (Event Answer World Operation Result Action) → World → Prop)
    (initial : State Answer World Operation Result) :
    List (Event Answer World Operation Result Action) →
      State Answer World Operation Result → Prop where
  | idle : Position machine call operation crash post initial [] initial
  | running {trace : List (Event Answer World Operation Result Action)}
      {state : State Answer World Operation Result} {rest : Program Answer Result}
      (stands : state.calls call = .running operation rest)
      (withstands : machine.Withstands call operation crash post rest trace state.world) :
      Position machine call operation crash post initial trace state
  | returned {trace : List (Event Answer World Operation Result Action)}
      {state : State Answer World Operation Result} {result : Result} {world : World}
      (stands : state.calls call = .finished operation result) (holds : post result trace world)
      (closed : state.world = machine.close call world) :
      Position machine call operation crash post initial
        (.finished call operation result :: trace) state
  | died {trace : List (Event Answer World Operation Result Action)}
      {state : State Answer World Operation Result} {world : World}
      (stands : state.calls call = .dead operation) (stops : crash trace world)
      (closed : state.world = machine.close call world) :
      Position machine call operation crash post initial (.died call operation :: trace) state

/-- A call that runs by itself stands somewhere along its program. -/
private theorem Run.position (idle : initial.calls call = .idle)
    (run : machine.Run (Only call operation) initial trace state)
    (withstands : machine.Withstands call operation crash post (machine.program operation)
      [.started call operation] initial.world)
    (weakens : ∀ result events world, post result events world → crash events world) :
    Position machine call operation crash post initial trace state := by
  apply run.preserves fun trace state =>
    Position machine call operation crash post initial trace state
  · exact .idle
  · intro trace state event next run position step permitted
    cases position with
    | idle =>
        cases step with
        | start started idle' =>
            cases permitted.1
            cases permitted.2
            exact .running (Function.update_self ..) withstands
        | answer running | fail running | finish running | die running =>
            cases permitted
            cases idle.symm.trans running
        | act => exact permitted.elim
    | running stands withstands =>
        cases step with
        | start started idle' =>
            cases permitted.1
            cases stands.symm.trans idle'
        | answer running executed =>
            cases permitted
            cases stands.symm.trans running
            exact .running (Function.update_self ..) (withstands.2.1 _ _ executed)
        | fail running fails =>
            cases permitted
            cases stands.symm.trans running
            exact .running (Function.update_self ..) (withstands.2.2 _ fails)
        | finish running =>
            cases permitted
            cases stands.symm.trans running
            exact .returned (Function.update_self ..) withstands rfl
        | die running =>
            cases permitted
            cases stands.symm.trans running
            exact .died (Function.update_self ..) (withstands.mono weakens).stops rfl
        | act => exact permitted.elim
    | returned stands | died stands =>
        cases step with
        | start started idle' =>
            cases permitted.1
            cases stands.symm.trans idle'
        | answer running | fail running | finish running | die running =>
            cases permitted
            cases stands.symm.trans running
        | act => exact permitted.elim

theorem Run.stopped (idle : initial.calls call = .idle)
    (run : machine.Run (Only call operation) initial trace state)
    (withstands : machine.Withstands call operation crash (fun _ => crash)
      (machine.program operation) [.started call operation] initial.world)
    (started : state.calls call ≠ .idle) (ended : ¬(state.calls call).InProgress) :
    ∃ last events world, trace = last :: events ∧ last.ends = true ∧ crash events world ∧
      state.world = machine.close call world := by
  cases run.position idle withstands fun _ _ _ => id with
  | idle => exact (started idle).elim
  | running stands =>
      rw [stands] at ended
      exact (ended trivial).elim
  | returned stands holds closed => exact ⟨_, _, _, rfl, rfl, holds, closed⟩
  | died stands stops closed => exact ⟨_, _, _, rfl, rfl, stops, closed⟩

/-- What a call that ran by itself and returned has met, whatever may be lost where it does
not return. -/
theorem Run.returned {result : Result} (idle : initial.calls call = .idle)
    (run : machine.Run (Only call operation) initial trace state)
    (withstands : machine.Withstands call operation (fun _ _ => True) post
      (machine.program operation) [.started call operation] initial.world)
    (finished : state.calls call = .finished operation result) :
    ∃ events world, trace = .finished call operation result :: events ∧
      post result events world ∧ state.world = machine.close call world := by
  cases run.position idle withstands fun _ _ _ _ => trivial with
  | idle => cases idle.symm.trans finished
  | running stands => cases stands.symm.trans finished
  | returned stands holds closed =>
      cases stands.symm.trans finished
      exact ⟨_, _, rfl, holds, closed⟩
  | died stands => cases stands.symm.trans finished

end Machine

end Interleaving
