import RefundEngine.Interleaving.Machine

/-!
# Calls that run alone

A call that runs alone, with every command answered at once, is a function of the world
it starts in.  The evaluator gives that function, and every run in which only the one
call takes steps, without failure or death, agrees with it.
-/

namespace Interleaving

variable {Command : Type} {Answer : Command → Type} {α β : Type}
variable {World Operation Result Action : Type}

/-- Run a program alone.  There is no value if some command has to wait. -/
def Program.eval (execute : (command : Command) → World → Option (Answer command × World)) :
    Program Answer α → World → Option (α × World)
  | .ret value, world => some (value, world)
  | .call command next, world =>
      match execute command world with
      | some (answer, after) => (next answer).eval execute after
      | none => none

namespace Program

variable {execute : (command : Command) → World → Option (Answer command × World)}
variable {world after : World}

theorem eval_call {command : Command} {answer : Answer command}
    (next : Answer command → Program Answer α)
    (executed : execute command world = some (answer, after)) :
    (Program.call command next).eval execute world = (next answer).eval execute after := by
  simp only [eval, executed]

theorem eval_bind (program : Program Answer α) (continuation : α → Program Answer β) :
    (program >>= continuation).eval execute world =
      (program.eval execute world).bind fun (value, after) =>
        (continuation value).eval execute after := by
  induction program generalizing world with
  | ret value => rfl
  | call command next ih =>
      simp only [call_bind, eval]
      cases execute command world with
      | none => rfl
      | some reached => exact ih reached.1

/-- Every command the program can issue, whatever the answers, is of a kind. -/
def Issues (kind : Command → Prop) : Program Answer α → Prop
  | .ret _ => True
  | .call command next => kind command ∧ ∀ answer, (next answer).Issues kind

theorem Issues.bind {kind : Command → Prop} {program : Program Answer α}
    {continuation : α → Program Answer β} (issues : program.Issues kind)
    (continues : ∀ value, (continuation value).Issues kind) :
    (program >>= continuation).Issues kind := by
  induction program with
  | ret value => exact continues value
  | call command next ih => exact ⟨issues.1, fun answer => ih answer (issues.2 answer)⟩

theorem Issues.mono {kind weaker : Command → Prop} {program : Program Answer α}
    (issues : program.Issues kind) (implies : ∀ command, kind command → weaker command) :
    program.Issues weaker := by
  induction program with
  | ret value => trivial
  | call command next ih =>
      exact ⟨implies command issues.1, fun answer => ih answer (issues.2 answer)⟩

/-- A program evaluates when it issues only commands that never have to wait. -/
theorem Issues.evaluates {kind : Command → Prop} {invariant : World → Prop}
    (runs : ∀ command world, kind command → invariant world →
      ∃ answer after, execute command world = some (answer, after) ∧ invariant after)
    {program : Program Answer α} (issues : program.Issues kind) (holds : invariant world) :
    ∃ value after, program.eval execute world = some (value, after) := by
  induction program generalizing world with
  | ret value => exact ⟨value, world, rfl⟩
  | call command next ih =>
      rcases runs command world issues.1 holds with ⟨answer, after, executed, holds⟩
      rw [eval_call next executed]
      exact ih answer (issues.2 answer) holds

end Program

namespace Machine

variable {machine : Machine Answer World Operation Result Action}

/-- Only the one call takes steps, and none of its commands fails. -/
def Alone (call : CallId) (operation : Operation) :
    List (Event Answer World Operation Result Action) →
    Event Answer World Operation Result Action → Prop
  | _, .started caller started => caller = call ∧ started = operation
  | _, .answered caller _ _ _ _ => caller = call
  | _, .finished caller _ _ => caller = call
  | _, _ => False

instance [DecidableEq Operation] (call : CallId) (operation : Operation)
    (trace : List (Event Answer World Operation Result Action))
    (event : Event Answer World Operation Result Action) :
    Decidable (Alone call operation trace event) :=
  match event with
  | .started _ _ => inferInstanceAs (Decidable (_ ∧ _))
  | .answered caller _ _ _ _ | .finished caller _ _ =>
      inferInstanceAs (Decidable (caller = call))
  | .failed .. | .died .. | .acted .. => isFalse id

variable {call : CallId} {operation : Operation} {result : Result}
variable {initial state final : State Answer World Operation Result}
variable {trace : List (Event Answer World Operation Result Action)}

/-- Where a call that runs alone may stand: it evaluates to the same as at its start. -/
private inductive Standing (machine : Machine Answer World Operation Result Action)
    (call : CallId) (operation : Operation)
    (initial : State Answer World Operation Result) :
    State Answer World Operation Result → Prop where
  | idle : Standing machine call operation initial initial
  | running {state : State Answer World Operation Result} {rest : Program Answer Result}
      (stands : state.calls call = .running operation rest)
      (same : rest.eval (machine.execute call) state.world =
        (machine.program operation).eval (machine.execute call) initial.world) :
      Standing machine call operation initial state
  | finished {state : State Answer World Operation Result} {result : Result} {world : World}
      (stands : state.calls call = .finished operation result)
      (evaluates : (machine.program operation).eval (machine.execute call) initial.world =
        some (result, world))
      (closed : state.world = machine.close call world) :
      Standing machine call operation initial state

theorem Run.calls_of_alone (run : machine.Run (Alone call operation) initial trace final)
    {other : CallId} (different : other ≠ call) : final.calls other = initial.calls other := by
  apply run.preserves fun _ state => state.calls other = initial.calls other
  · rfl
  · intro trace state event next _ same step permitted
    rw [← same]
    apply step.calls_other
    intro isOther
    cases event with
    | started caller _ =>
        cases isOther
        exact different permitted.1
    | answered caller _ _ _ _ | finished caller _ _ =>
        cases isOther
        exact different permitted
    | failed | died | acted => exact permitted.elim

/-- A run of one call alone that comes to an end evaluates its program. -/
theorem Run.eval_of_alone (idle : initial.calls call = .idle)
    (run : machine.Run (Alone call operation) initial trace final)
    (finished : final.calls call = .finished operation result) :
    ∃ world, (machine.program operation).eval (machine.execute call) initial.world =
      some (result, world) ∧ final.world = machine.close call world := by
  have standing : Standing machine call operation initial final := by
    apply run.preserves fun _ state => Standing machine call operation initial state
    · exact .idle
    · intro trace state event next run standing step permitted
      cases step with
      | start started idle' =>
          cases permitted.1
          cases permitted.2
          cases standing with
          | idle => exact .running (Function.update_self ..) rfl
          | running stands | finished stands =>
              rw [stands] at idle'
              cases idle'
      | @answer _ _ command next' answer world running executed =>
          cases permitted
          cases standing with
          | idle =>
              rw [idle] at running
              cases running
          | running stands same =>
              rw [stands] at running
              cases running
              apply Standing.running (Function.update_self ..)
              rw [← same, Program.eval_call _ executed]
          | finished stands =>
              rw [stands] at running
              cases running
      | finish running =>
          cases permitted
          cases standing with
          | idle =>
              rw [idle] at running
              cases running
          | running stands same =>
              rw [stands] at running
              cases running
              exact .finished (Function.update_self ..) same.symm rfl
          | finished stands =>
              rw [stands] at running
              cases running
      | fail | die | act => exact permitted.elim
  cases standing with
  | idle =>
      rw [idle] at finished
      cases finished
  | running stands =>
      rw [stands] at finished
      cases finished
  | finished stands evaluates closed =>
      rw [stands] at finished
      cases finished
      exact ⟨_, evaluates, closed⟩

private theorem run_rest {rest : Program Answer Result} {world : World}
    (run : machine.Run (Alone call operation) initial trace state)
    (stands : state.calls call = .running operation rest)
    (evaluates : rest.eval (machine.execute call) state.world = some (result, world)) :
    ∃ more final, machine.Run (Alone call operation) initial more final ∧
      final.calls call = .finished operation result := by
  induction rest generalizing trace state with
  | ret value =>
      cases evaluates
      exact ⟨_, _, .cons run (.finish stands) rfl, Function.update_self ..⟩
  | call command next ih =>
      simp only [Program.eval] at evaluates
      split at evaluates
      · rename_i answer after executed
        exact ih answer (.cons run (.answer stands executed) rfl) (Function.update_self ..)
          evaluates
      · cases evaluates

/-- A call whose program evaluates can run alone from its start to its end. -/
theorem exists_alone_run {world : World} (idle : initial.calls call = .idle)
    (evaluates : (machine.program operation).eval (machine.execute call) initial.world =
      some (result, world)) :
    ∃ trace final, machine.Run (Alone call operation) initial trace final ∧
      final.calls call = .finished operation result :=
  run_rest (.cons .nil (.start operation idle) ⟨rfl, rfl⟩) (Function.update_self ..) evaluates

end Machine

end Interleaving
