import Mathlib.Logic.Hydra
import RefundEngine.Interleaving.Solo

/-!
# Progress of interleaved calls

A call waits when its next command cannot be executed.  Where every waiting call waits for
another one in progress, and waiting descends along a rank, some call can always go on.
Every program is finite, so calls that go on come to an end: without new calls there are
only finitely many steps of calls, in whatever order they are taken and whatever the
environment does in between.
-/

namespace Interleaving

variable {Command : Type} {Answer : Command → Type}
variable {World Operation Result Action α : Type}

/-- The first program is what the second goes on with after one command. -/
inductive Program.Continues : Program Answer α → Program Answer α → Prop where
  | answer {command : Command} (next : Answer command → Program Answer α)
      (answer : Answer command) : Continues (next answer) (.call command next)

theorem Program.continues_wellFounded :
    WellFounded (Program.Continues : Program Answer α → Program Answer α → Prop) := by
  constructor
  intro program
  induction program with
  | ret value =>
      constructor
      intro rest continues
      cases continues
  | call command next ih =>
      constructor
      intro rest continues
      cases continues with
      | answer _ answer => exact ih answer

namespace Machine

variable (machine : Machine Answer World Operation Result Action)

/-- The next command of the call cannot be executed. -/
def Waiting (state : State Answer World Operation Result) (call : CallId) : Prop :=
  ∃ operation command next, state.calls call = .running operation (.call command next) ∧
    machine.execute call command state.world = none

/-- Calls go on or return; none starts, fails or dies, and the environment is still. -/
def Working : List (Event Answer World Operation Result Action) →
    Event Answer World Operation Result Action → Prop
  | _, .answered .. | _, .finished .. => True
  | _, _ => False

instance (trace : List (Event Answer World Operation Result Action))
    (event : Event Answer World Operation Result Action) : Decidable (Working trace event) :=
  match event with
  | .answered .. | .finished .. => isTrue trivial
  | .started .. | .failed .. | .died .. | .acted .. => isFalse id

theorem Working.anywhere {trace other : List (Event Answer World Operation Result Action)}
    {event : Event Answer World Operation Result Action} (works : Working trace event) :
    Working other event := by
  cases event <;> exact works

variable {machine}
variable {state next : State Answer World Operation Result}
variable {event : Event Answer World Operation Result Action} {call : CallId}

theorem exists_working_step (inProgress : (state.calls call).InProgress)
    (free : ¬machine.Waiting state call) :
    ∃ event next, machine.Step state event next ∧ event.caller = some call ∧
      Working [] event := by
  cases stands : state.calls call with
  | idle | finished | dead =>
      rw [stands] at inProgress
      exact inProgress.elim
  | running operation rest =>
      cases rest with
      | ret result => exact ⟨_, _, .finish stands, rfl, trivial⟩
      | call command continuation =>
          cases executed : machine.execute call command state.world with
          | none => exact (free ⟨operation, command, continuation, stands, executed⟩).elim
          | some reached => exact ⟨_, _, .answer stands executed, rfl, trivial⟩

/-- Where waiting descends along a rank, every call in progress waits, at the end of the
chain, for one that can go on. -/
theorem exists_free_of_ranked {waitsFor : CallId → CallId → Prop} (rank : CallId → Nat)
    (descends : ∀ call, machine.Waiting state call →
      ∃ other, waitsFor call other ∧ (state.calls other).InProgress ∧ rank other < rank call)
    (inProgress : (state.calls call).InProgress) :
    ∃ other, Relation.ReflTransGen waitsFor call other ∧ (state.calls other).InProgress ∧
      ¬machine.Waiting state other := by
  generalize height : rank call = bound
  induction bound using Nat.strong_induction_on generalizing call with
  | _ bound ih =>
      by_cases waiting : machine.Waiting state call
      · rcases descends call waiting with ⟨other, waits, others, lower⟩
        rw [height] at lower
        rcases ih (rank other) lower others rfl with ⟨last, chain, lasts, free⟩
        exact ⟨last, .head waits chain, lasts, free⟩
      · exact ⟨call, .refl, inProgress, waiting⟩

/-- What a call has left to run issues only what its program does. -/
theorem Run.issues {kind : Operation → Command → Prop}
    {allowed : List (Event Answer World Operation Result Action) →
      Event Answer World Operation Result Action → Prop}
    {initial : State Answer World Operation Result}
    {trace : List (Event Answer World Operation Result Action)}
    (programs : ∀ operation, (machine.program operation).Issues (kind operation))
    (idle : ∀ call, initial.calls call = .idle)
    (run : machine.Run allowed initial trace state) {operation : Operation}
    {rest : Program Answer Result} (stands : state.calls call = .running operation rest) :
    rest.Issues (kind operation) := by
  induction run generalizing operation rest with
  | nil => cases (idle call).symm.trans stands
  | cons run step permitted ih =>
      rename_i state next event
      by_cases taken : event.caller = some call
      · cases step with
        | start =>
            cases taken
            simp only [Function.update_self, Call.running.injEq] at stands
            rcases stands with ⟨rfl, rfl⟩
            exact programs _
        | answer running | fail running =>
            cases taken
            simp only [Function.update_self, Call.running.injEq] at stands
            rcases stands with ⟨rfl, rfl⟩
            exact (ih running).2 _
        | finish | die =>
            cases taken
            simp at stands
        | act => cases taken
      · rw [step.calls_other taken] at stands
        exact ih stands

/-! ## Calls come to an end -/

/-- What the calls of a list still have to run. -/
def remaining (state : State Answer World Operation Result) (callers : List CallId) :
    Multiset (Program Answer Result) :=
  (callers.filterMap fun call =>
    match state.calls call with
    | .running _ rest => some rest
    | _ => none : List (Program Answer Result))

/-- Every call in progress is in the list. -/
def Covers (callers : List CallId) (state : State Answer World Operation Result) : Prop :=
  ∀ call, (state.calls call).InProgress → call ∈ callers

private theorem remaining_congr {callers : List CallId}
    (same : ∀ call ∈ callers, next.calls call = state.calls call) :
    remaining next callers = remaining state callers := by
  simp only [remaining]
  congr 1
  apply List.filterMap_congr
  intro call member
  rw [same call member]

private theorem remaining_append (first second : List CallId) :
    remaining state (first ++ second) = remaining state first + remaining state second := by
  simp only [remaining, List.filterMap_append, Multiset.coe_add]

private theorem remaining_running {operation : Operation} {rest : Program Answer Result}
    (stands : state.calls call = .running operation rest) :
    remaining state [call] = {rest} := by
  simp only [remaining, List.filterMap_cons, stands, List.filterMap_nil]
  rfl

/-- A step of a call that does not start one cuts what is left to run. -/
theorem cutExpand_of_step {callers : List CallId} (nodup : callers.Nodup)
    (covers : Covers callers state) (step : machine.Step state event next)
    (taken : event.caller = some call) (starts : ∀ operation, event ≠ .started call operation) :
    Relation.CutExpand Program.Continues (remaining next callers) (remaining state callers) := by
  have moves : ∃ operation rest, state.calls call = .running operation rest ∧
      ∃ grown : Multiset (Program Answer Result), remaining next [call] = grown ∧
        ∀ program ∈ grown, Program.Continues program rest := by
    cases step with
    | start operation =>
        cases taken
        exact (starts operation rfl).elim
    | answer running | fail running =>
        cases taken
        refine ⟨_, _, running, _, remaining_running (Function.update_self ..), ?_⟩
        intro program member
        rw [Multiset.mem_singleton.mp member]
        exact .answer _ _
    | finish running | die running =>
        cases taken
        refine ⟨_, _, running, 0, ?_, fun _ none => (Multiset.notMem_zero _ none).elim⟩
        simp [remaining]
    | act => cases taken
  rcases moves with ⟨operation, rest, stands, grown, grows, smaller⟩
  have listed : call ∈ callers := covers call (by rw [stands]; trivial)
  rcases List.append_of_mem listed with ⟨first, second, rfl⟩
  have absent := List.nodup_middle.mp nodup
  have others : ∀ part : List CallId, (∀ other ∈ part, other ∈ first ++ second) →
      remaining next part = remaining state part := by
    intro part inside
    apply remaining_congr
    intro other member
    apply step.calls_other
    rw [taken]
    intro same
    cases same
    exact (List.nodup_cons.mp absent).1 (inside _ member)
  refine ⟨grown, rest, smaller, ?_⟩
  have head : ∀ state : State Answer World Operation Result,
      remaining state (first ++ call :: second) =
        remaining state first + (remaining state [call] + remaining state second) := by
    intro state
    rw [← remaining_append, ← remaining_append, List.singleton_append]
  rw [head next, head state, grows, remaining_running stands,
    others first fun _ => List.mem_append_left _,
    others second fun _ => List.mem_append_right _]
  ac_rfl

theorem remaining_of_acted {callers : List CallId} (step : machine.Step state event next)
    (environment : event.caller = none) :
    remaining next callers = remaining state callers := by
  apply remaining_congr
  intro call member
  apply step.calls_other
  rw [environment]
  exact nofun

theorem Covers.step {callers : List CallId} (covers : Covers callers state)
    (step : machine.Step state event next)
    (starts : ∀ call operation, event ≠ .started call operation) : Covers callers next := by
  intro call inProgress
  by_cases taken : event.caller = some call
  · apply covers
    cases step with
    | start operation => exact (starts _ operation rfl).elim
    | answer running | fail running | finish running | die running =>
        cases taken
        rw [running]
        trivial
    | act => cases taken
  · rw [step.calls_other taken] at inProgress
    exact covers call inProgress

private instance : Std.Irrefl (Program.Continues : Program Answer α → Program Answer α → Prop) :=
  ⟨fun program => Program.continues_wellFounded.irrefl.irrefl program⟩

/-- Of infinitely many steps without a new call, all but finitely many are the
environment's. -/
theorem eventually_environment {callers : List CallId} (nodup : callers.Nodup)
    {states : Nat → State Answer World Operation Result}
    {events : Nat → Event Answer World Operation Result Action}
    (covers : Covers callers (states 0))
    (steps : ∀ time, machine.Step (states time) (events time) (states (time + 1)))
    (starts : ∀ time call operation, events time ≠ .started call operation) :
    ∃ time, ∀ later, time ≤ later → (events later).caller = none := by
  have covered : ∀ time, Covers callers (states time) := by
    intro time
    induction time with
    | zero => exact covers
    | succ time ih => exact ih.step (steps time) (starts time)
  rcases Program.continues_wellFounded.cutExpand.has_min
    (Set.range fun time => remaining (states time) callers) ⟨_, 0, rfl⟩ with
    ⟨_, ⟨time, rfl⟩, least⟩
  have idle : ∀ later, remaining (states later) callers = remaining (states time) callers →
      (events later).caller = none := by
    intro later same
    cases taken : (events later).caller with
    | none => rfl
    | some call =>
        have cut := cutExpand_of_step nodup (covered later) (steps later) taken (starts later call)
        rw [same] at cut
        exact (least _ ⟨later + 1, rfl⟩ cut).elim
  have still : ∀ count,
      remaining (states (time + count)) callers = remaining (states time) callers := by
    intro count
    induction count with
    | zero => rfl
    | succ count ih =>
        rw [← ih]
        exact remaining_of_acted (steps (time + count)) (idle _ ih)
  refine ⟨time, ?_⟩
  intro later after
  rcases Nat.exists_eq_add_of_le after with ⟨count, rfl⟩
  exact idle _ (still count)

/-- Where some call in progress can always go on, the calls can all be brought to an end. -/
theorem exists_run_to_quiet {callers : List CallId} (nodup : callers.Nodup)
    (invariant : State Answer World Operation Result → Prop)
    (kept : ∀ state event next, invariant state → machine.Step state event next →
      Working [] event → invariant next)
    (progress : ∀ state call, invariant state → (state.calls call).InProgress →
      ∃ event next caller, machine.Step state event next ∧ event.caller = some caller ∧
        Working [] event)
    (covers : Covers callers state) (holds : invariant state) :
    ∃ trace final, machine.Run Working state trace final ∧ final.Quiet := by
  have founded : WellFounded (Relation.CutExpand (Program.Continues :
      Program Answer Result → Program Answer Result → Prop)) :=
    Program.continues_wellFounded.cutExpand
  induction left : remaining state callers using founded.induction generalizing state with
  | _ left ih =>
      by_cases quiet : state.Quiet
      · exact ⟨[], state, .nil, quiet⟩
      · simp only [State.Quiet, not_forall, not_not] at quiet
        rcases quiet with ⟨call, inProgress⟩
        rcases progress state call holds inProgress with
          ⟨event, next, caller, step, taken, works⟩
        have starts : ∀ call operation, event ≠ .started call operation := by
          rintro call operation rfl
          exact works
        have cut := cutExpand_of_step nodup covers step taken (starts caller)
        rw [left] at cut
        rcases ih _ cut (covers.step step starts) (kept _ _ _ holds step works) rfl with
          ⟨trace, final, run, quiet⟩
        have first : machine.Run Working state [event] next := .cons .nil step works
        exact ⟨trace ++ [event], final,
          first.append (run.mono fun _ _ permitted => permitted.anywhere), quiet⟩

end Machine

end Interleaving
