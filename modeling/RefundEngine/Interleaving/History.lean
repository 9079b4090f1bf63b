import RefundEngine.Interleaving.Machine

/-!
# Histories of calls

The events of one call say where its program stands.  A program obeys a contract when
every command it issues is licensed by the call's own earlier events; the contract then
holds in every run, whatever else runs.

The second half is a rely-guarantee rule on histories.  When every step keeps an
invariant and what the other calls rely on, a call may use what its earlier commands
found: nothing but what it relies on has happened since.
-/

namespace Interleaving

variable {Command : Type} {Answer : Command → Type}
variable {World Operation Result Action α β : Type}

/-- The events of one call, newest first. -/
def own (call : CallId) (trace : List (Event Answer World Operation Result Action)) :
    List (Event Answer World Operation Result Action) :=
  trace.filter fun event => event.caller = some call

section Own

variable {call : CallId} {event : Event Answer World Operation Result Action}
variable {trace : List (Event Answer World Operation Result Action)}

theorem own_cons_self (taken : event.caller = some call) :
    own call (event :: trace) = event :: own call trace := by
  simp [own, taken]

theorem own_cons_other (different : event.caller ≠ some call) :
    own call (event :: trace) = own call trace := by
  simp [own, different]

theorem mem_own : event ∈ own call trace ↔ event ∈ trace ∧ event.caller = some call := by
  simp [own]

theorem own_append_cons {newer earlier : List (Event Answer World Operation Result Action)}
    (taken : event.caller = some call) :
    own call (newer ++ event :: earlier) = own call newer ++ event :: own call earlier := by
  rw [← own_cons_self taken]
  exact List.filter_append ..

/-- An event of a call is determined by how many events the call has behind it. -/
theorem eq_of_own_length {event' : Event Answer World Operation Result Action}
    {newer newer' earlier earlier' : List (Event Answer World Operation Result Action)}
    (split : trace = newer ++ event :: earlier) (split' : trace = newer' ++ event' :: earlier')
    (taken : event.caller = some call) (taken' : event'.caller = some call)
    (length : (own call earlier).length = (own call earlier').length) : event = event' := by
  have same : own call newer ++ event :: own call earlier =
      own call newer' ++ event' :: own call earlier' := by
    rw [← own_append_cons taken, ← own_append_cons taken', ← split, ← split']
  have tails := List.append_inj_right' same (by simp [length])
  exact (List.cons.inj tails).1

end Own

variable {machine : Machine Answer World Operation Result Action}

/-- What a call may do next and may return, given its own earlier events. -/
structure Contract (machine : Machine Answer World Operation Result Action) where
  license : CallId → Operation → List (Event Answer World Operation Result Action) →
    Command → Prop
  outcome : CallId → Operation → List (Event Answer World Operation Result Action) →
    Result → Prop

namespace Contract

variable (contract : Contract machine)

/-- Every command of the program is licensed, and what it returns satisfies `post`,
whatever the answers. -/
def Obeys (call : CallId) (operation : Operation)
    (post : α → List (Event Answer World Operation Result Action) → Prop) :
    Program Answer α → List (Event Answer World Operation Result Action) → Prop
  | .ret value, events => post value events
  | .call command next, events =>
      contract.license call operation events command ∧
      (∀ answer before after, machine.execute call command before = some (answer, after) →
        Obeys call operation post (next answer)
          (.answered call operation command answer before :: events)) ∧
      (∀ answer, machine.failure command = some answer →
        Obeys call operation post (next answer) (.failed call operation command :: events))

/-- Every operation obeys the contract from its start. -/
def Upheld : Prop :=
  ∀ call operation, contract.Obeys call operation
    (fun result events => contract.outcome call operation events result)
    (machine.program operation) [.started call operation]

/-- One event respects the contract after the earlier ones. -/
def Permits (earlier : List (Event Answer World Operation Result Action)) :
    Event Answer World Operation Result Action → Prop
  | .answered call operation command _ _ | .failed call operation command =>
      contract.license call operation (own call earlier) command
  | .finished call operation result =>
      contract.outcome call operation (own call earlier) result
  | _ => True

/-- All events of a trace respect the contract. -/
def Respected : List (Event Answer World Operation Result Action) → Prop
  | [] => True
  | event :: earlier => contract.Permits earlier event ∧ Respected earlier

variable {contract} {call : CallId} {operation : Operation}
variable {post : α → List (Event Answer World Operation Result Action) → Prop}
variable {events : List (Event Answer World Operation Result Action)}

theorem Respected.permits_of_append
    {newer earlier : List (Event Answer World Operation Result Action)}
    {event : Event Answer World Operation Result Action}
    (respected : contract.Respected (newer ++ event :: earlier)) :
    contract.Permits earlier event := by
  induction newer with
  | nil => exact respected.1
  | cons latest newer ih => exact ih respected.2

theorem Obeys.bind {program : Program Answer α} {continuation : α → Program Answer β}
    {post : β → List (Event Answer World Operation Result Action) → Prop}
    (obeys : contract.Obeys call operation
      (fun value => contract.Obeys call operation post (continuation value))
      program events) :
    contract.Obeys call operation post (program >>= continuation) events := by
  induction program generalizing events with
  | ret value => exact obeys
  | call command next ih =>
      obtain ⟨licensed, answered, failed⟩ := obeys
      exact ⟨licensed,
        fun answer before after executed => ih answer (answered answer before after executed),
        fun answer fails => ih answer (failed answer fails)⟩

theorem Obeys.mono {program : Program Answer α}
    {weaker : α → List (Event Answer World Operation Result Action) → Prop}
    (obeys : contract.Obeys call operation post program events)
    (implies : ∀ value events, post value events → weaker value events) :
    contract.Obeys call operation weaker program events := by
  induction program generalizing events with
  | ret value => exact implies _ _ obeys
  | call command next ih =>
      obtain ⟨licensed, answered, failed⟩ := obeys
      exact ⟨licensed,
        fun answer before after executed => ih answer (answered answer before after executed),
        fun answer fails => ih answer (failed answer fails)⟩

/-- Any program obeys a contract that asks nothing of its operation. -/
theorem obeys_of_free
    (licensed : ∀ events command, contract.license call operation events command)
    (holds : ∀ value events, post value events) (program : Program Answer α)
    (events : List (Event Answer World Operation Result Action)) :
    contract.Obeys call operation post program events := by
  induction program generalizing events with
  | ret value => exact holds value events
  | call command next ih =>
      refine ⟨licensed events command, ?_, ?_⟩
      · intro answer before after executed
        exact ih answer _
      · intro answer fails
        exact ih answer _

variable {allowed : List (Event Answer World Operation Result Action) →
  Event Answer World Operation Result Action → Prop}
variable {initial state next : State Answer World Operation Result}
variable {trace : List (Event Answer World Operation Result Action)}
variable {event : Event Answer World Operation Result Action}

/-- What every call still has to run obeys the contract after its events so far. -/
private def Standing (contract : Contract machine)
    (trace : List (Event Answer World Operation Result Action))
    (state : State Answer World Operation Result) : Prop :=
  ∀ call operation rest, state.calls call = .running operation rest →
    contract.Obeys call operation
      (fun result events => contract.outcome call operation events result) rest
      (own call trace)

/-- A step respects the contract and leaves every call standing. -/
private theorem Standing.step (upheld : contract.Upheld)
    (fresh : ∀ call, state.calls call = .idle → own call trace = [])
    (standing : Standing contract trace state) (step : machine.Step state event next) :
    contract.Permits trace event ∧ Standing contract (event :: trace) next := by
  have others : ∀ call operation rest, event.caller ≠ some call →
      next.calls call = .running operation rest →
      contract.Obeys call operation
        (fun result events => contract.outcome call operation events result) rest
        (own call (event :: trace)) := by
    intro call operation rest different stands
    rw [step.calls_other different] at stands
    rw [own_cons_other different]
    exact standing call operation rest stands
  cases step with
  | @start call operation idle =>
      refine ⟨trivial, fun other operation' rest stands => ?_⟩
      by_cases taken : other = call
      · subst taken
        simp only [Function.update_self, Call.running.injEq] at stands
        obtain ⟨rfl, rfl⟩ := stands
        rw [own_cons_self rfl, fresh _ idle]
        exact upheld _ _
      · exact others other operation' rest (fun same => taken (Option.some.inj same).symm) stands
  | @answer call operation command next' answer world running executed =>
      have obeys := standing call operation _ running
      refine ⟨obeys.1, fun other operation' rest stands => ?_⟩
      by_cases taken : other = call
      · subst taken
        simp only [Function.update_self, Call.running.injEq] at stands
        obtain ⟨rfl, rfl⟩ := stands
        rw [own_cons_self rfl]
        exact obeys.2.1 answer _ _ executed
      · exact others other operation' rest (fun same => taken (Option.some.inj same).symm) stands
  | @fail call operation command next' answer running fails =>
      have obeys := standing call operation _ running
      refine ⟨obeys.1, fun other operation' rest stands => ?_⟩
      by_cases taken : other = call
      · subst taken
        simp only [Function.update_self, Call.running.injEq] at stands
        obtain ⟨rfl, rfl⟩ := stands
        rw [own_cons_self rfl]
        exact obeys.2.2 answer fails
      · exact others other operation' rest (fun same => taken (Option.some.inj same).symm) stands
  | @finish call operation result running =>
      refine ⟨standing call operation _ running, fun other operation' rest stands => ?_⟩
      by_cases taken : other = call
      · subst taken
        simp at stands
      · exact others other operation' rest (fun same => taken (Option.some.inj same).symm) stands
  | @die call operation rest running =>
      refine ⟨trivial, fun other operation' rest' stands => ?_⟩
      by_cases taken : other = call
      · subst taken
        simp at stands
      · exact others other operation' rest' (fun same => taken (Option.some.inj same).symm) stands
  | @act action world acted =>
      exact ⟨trivial, fun other operation' rest stands =>
        others other operation' rest (fun same => by cases same) stands⟩

theorem own_of_idle (run : machine.Run allowed initial trace state)
    (idle : state.calls call = .idle) : own call trace = [] := by
  apply List.filter_eq_nil_iff.mpr
  intro event member
  simpa using run.no_events_of_idle idle event member

/-- The last step of a call that has finished is that it did. -/
theorem own_of_finished (run : machine.Run allowed initial trace state)
    (idle : initial.calls call = .idle) {operation : Operation} {result : Result}
    (finished : state.calls call = .finished operation result) :
    ∃ newer earlier, trace = newer ++ .finished call operation result :: earlier ∧
      own call trace = .finished call operation result :: own call earlier := by
  induction run with
  | nil => cases idle.symm.trans finished
  | @cons trace state next event run step permitted ih =>
      by_cases taken : event.caller = some call
      · cases step with
        | act => cases taken
        | start | answer | fail | die =>
            cases taken
            simp at finished
        | finish =>
            cases taken
            simp only [Function.update_self, Call.finished.injEq] at finished
            rw [finished.1, finished.2]
            exact ⟨[], trace, rfl, own_cons_self rfl⟩
      · rw [step.calls_other taken] at finished
        rcases ih finished with ⟨newer, earlier, split, latest⟩
        refine ⟨event :: newer, earlier, ?_, ?_⟩
        · rw [split, List.cons_append]
        · rw [own_cons_other taken, latest]

/-- Every run of a machine whose operations uphold a contract respects it. -/
theorem Upheld.respected (upheld : contract.Upheld)
    (idle : ∀ call, initial.calls call = .idle)
    (run : machine.Run allowed initial trace state) : contract.Respected trace := by
  have both : contract.Respected trace ∧ Standing contract trace state := by
    induction run with
    | nil =>
        refine ⟨trivial, fun call operation rest stands => ?_⟩
        simp [idle call] at stands
    | cons run step permitted ih =>
        obtain ⟨permits, standing⟩ :=
          ih.2.step upheld (fun call stands => own_of_idle run stands) step
        exact ⟨⟨permits, ih.1⟩, standing⟩
  exact both.1

theorem Upheld.permits (upheld : contract.Upheld)
    (idle : ∀ call, initial.calls call = .idle)
    (run : machine.Run allowed initial trace state)
    (step : machine.Step state event next) : contract.Permits trace event :=
  have freely : machine.Run (fun _ _ => True) initial (event :: trace) next :=
    .cons (run.mono fun _ _ _ => trivial) step trivial
  (upheld.respected idle freely).1

end Contract

/-! ## Rely and guarantee -/

/-- An invariant of points of a run, how the world may change at all, and how it may
change while a call takes no step. -/
structure Regime (machine : Machine Answer World Operation Result Action) where
  invariant : List (Event Answer World Operation Result Action) → World → Prop
  later : World → World → Prop
  later_refl : ∀ world, later world world
  later_trans : ∀ first second third, later first second → later second third →
    later first third
  rely : CallId → World → World → Prop
  rely_refl : ∀ call world, rely call world world
  rely_trans : ∀ call first second third, rely call first second →
    rely call second third → rely call first third

namespace Regime

variable (regime : Regime machine)

/-- An answered command took effect, and the world has since changed as it may. -/
def Seen (world : World) : Event Answer World Operation Result Action → Prop
  | .answered call _ command answer before =>
      ∃ after, machine.execute call command before = some (answer, after) ∧
        regime.later before after ∧ regime.later after world
  | _ => True

/-- From each answered command of a call to its next one, or to now, only what the call
relies on has happened. -/
def Linked : List (Event Answer World Operation Result Action) → World → Prop
  | .answered call _ command answer before :: events, world =>
      (∃ after, machine.execute call command before = some (answer, after) ∧
        regime.rely call after world) ∧ Linked events before
  | _, _ => True

/-- What can be recalled of a run at its end. -/
structure Recalled (trace : List (Event Answer World Operation Result Action))
    (world : World) : Prop where
  seen : ∀ event ∈ trace, regime.Seen world event
  linked : ∀ call, regime.Linked (own call trace) world

/-- What one step owes: the invariant, and a change that the others can rely on. -/
structure Guarantee (trace : List (Event Answer World Operation Result Action))
    (before : World) (event : Event Answer World Operation Result Action)
    (after : World) : Prop where
  invariant : regime.invariant (event :: trace) after
  later : regime.later before after
  rely : ∀ call, event.caller ≠ some call → regime.rely call before after

variable {regime}
variable {initial state next : State Answer World Operation Result}
variable {trace : List (Event Answer World Operation Result Action)}
variable {event : Event Answer World Operation Result Action}

theorem Seen.later {before after : World} (seen : regime.Seen before event)
    (later : regime.later before after) : regime.Seen after event := by
  cases event with
  | answered call operation command answer world =>
      obtain ⟨reached, executed, changed, since⟩ := seen
      exact ⟨reached, executed, changed, regime.later_trans _ _ _ since later⟩
  | _ => trivial

theorem Linked.rely {call : CallId} {before after : World}
    (events : List (Event Answer World Operation Result Action))
    (mine : ∀ event ∈ events, event.caller = some call)
    (linked : regime.Linked events before) (rely : regime.rely call before after) :
    regime.Linked events after := by
  cases events with
  | nil => trivial
  | cons event events =>
      cases event with
      | answered caller operation command answer world =>
          cases mine _ (List.mem_cons_self ..)
          obtain ⟨⟨reached, executed, since⟩, rest⟩ := linked
          exact ⟨⟨reached, executed, regime.rely_trans _ _ _ _ since rely⟩, rest⟩
      | _ => trivial

theorem Recalled.step (recalled : regime.Recalled trace state.world)
    (step : machine.Step state event next)
    (guarantee : regime.Guarantee trace state.world event next.world) :
    regime.Recalled (event :: trace) next.world where
  seen := by
    intro candidate member
    rcases List.mem_cons.mp member with rfl | earlier
    · cases step with
      | @answer call operation command next' answer world running executed =>
          exact ⟨world, executed, guarantee.later, regime.later_refl _⟩
      | _ => trivial
    · exact (recalled.seen candidate earlier).later guarantee.later
  linked := by
    intro call
    by_cases taken : event.caller = some call
    · rw [own_cons_self taken]
      cases step with
      | @answer caller operation command next' answer world running executed =>
          cases taken
          exact ⟨⟨world, executed, regime.rely_refl _ _⟩, recalled.linked _⟩
      | _ => trivial
    · rw [own_cons_other taken]
      exact (recalled.linked call).rely _ (fun _ member => (mem_own.mp member).2)
        (guarantee.rely call taken)

variable {allowed : List (Event Answer World Operation Result Action) →
  Event Answer World Operation Result Action → Prop}

variable (regime) in
/-- If every step meets its guarantee, using what can be recalled, then the invariant
holds at every point of every run, and every step does meet it. -/
theorem run (base : regime.invariant [] initial.world)
    (guarantee : ∀ trace state event next, machine.Run allowed initial trace state →
      regime.invariant trace state.world → regime.Recalled trace state.world →
      machine.Step state event next → allowed trace event →
      regime.Guarantee trace state.world event next.world)
    (run : machine.Run allowed initial trace state) :
    regime.invariant trace state.world ∧ regime.Recalled trace state.world := by
  induction run with
  | nil => exact ⟨base, by simp, fun _ => trivial⟩
  | cons run step permitted ih =>
      have owed := guarantee _ _ _ _ run ih.1 ih.2 step permitted
      exact ⟨owed.invariant, ih.2.step step owed⟩

end Regime

end Interleaving
