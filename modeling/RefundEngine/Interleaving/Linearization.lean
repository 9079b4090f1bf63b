import Mathlib.Data.List.Nodup
import RefundEngine.Interleaving.History

/-!
# Linearization points

When every step of a run either leaves an abstract state alone or takes one entry of a serial
history, the entries in the order of their steps explain what the run did.  Entries of calls
that did not overlap stay in order.
-/

namespace Interleaving

variable {Command : Type} {Answer : Command → Type}
variable {World Operation Result Action : Type} {Abstract Entry : Type}

/-- An event with an entry takes it, and one without changes nothing. -/
def Follows (takes : Entry → Abstract → Abstract → Prop) (before after : Abstract) :
    Option Entry → Prop
  | some entry => takes entry before after
  | none => after = before

/-- The entries, taken one after the other, lead from one abstract state to another. -/
inductive Explains (takes : Entry → Abstract → Abstract → Prop) (initial : Abstract) :
    List Entry → Abstract → Prop where
  | nil : Explains takes initial [] initial
  | concat {entries : List Entry} {entry : Entry} {middle final : Abstract}
      (explains : Explains takes initial entries middle) (taken : takes entry middle final) :
      Explains takes initial (entries ++ [entry]) final

/-- Entries that change nothing can be left out. -/
theorem Explains.filter {takes : Entry → Abstract → Abstract → Prop}
    {initial final : Abstract} {entries : List Entry} (kept : Entry → Bool)
    (idle : ∀ entry ∈ entries, kept entry = false →
      ∀ before after, takes entry before after → after = before)
    (explains : Explains takes initial entries final) :
    Explains takes initial (entries.filter kept) final := by
  induction explains with
  | nil => exact .nil
  | @concat entries entry middle final _ taken ih =>
      have ih := ih fun other member => idle other (List.mem_append_left _ member)
      rw [List.filter_append]
      cases decided : kept entry with
      | true =>
          simp only [List.filter_cons, decided, ↓reduceIte, List.filter_nil]
          exact .concat ih taken
      | false =>
          simp only [List.filter_cons, decided, Bool.false_eq_true, ↓reduceIte, List.filter_nil,
            List.append_nil]
          rw [idle entry (by simp) decided middle final taken]
          exact ih

theorem Explains.preserves {takes : Entry → Abstract → Abstract → Prop}
    {initial final : Abstract} {entries : List Entry} (property : Abstract → Prop)
    (base : property initial)
    (stepped : ∀ entry before after, takes entry before after → property before → property after)
    (explains : Explains takes initial entries final) : property final := by
  induction explains with
  | nil => exact base
  | concat _ taken ih => exact stepped _ _ _ taken ih

/-- The entries that the events of a trace take, oldest first. -/
def points (point : Event Answer World Operation Result Action → Option Entry)
    (trace : List (Event Answer World Operation Result Action)) : List Entry :=
  trace.reverse.filterMap point

section Points

variable {point : Event Answer World Operation Result Action → Option Entry}
variable {event : Event Answer World Operation Result Action}
variable {trace newer earlier : List (Event Answer World Operation Result Action)}
variable {entry : Entry}

theorem points_cons :
    points point (event :: trace) = points point trace ++ (point event).toList := by
  rw [points, points, List.reverse_cons, List.filterMap_append]
  cases taken : point event with
  | none => simp [taken]
  | some entry => simp [taken]

theorem points_append :
    points point (newer ++ earlier) = points point earlier ++ points point newer := by
  rw [points, List.reverse_append, List.filterMap_append, points, points]

theorem mem_points : entry ∈ points point trace ↔ ∃ event ∈ trace, point event = some entry := by
  simp only [points, List.mem_filterMap, List.mem_reverse]

variable {caller : Entry → CallId}

/-- When a call takes no entry after its first, no call has two. -/
theorem points_nodup
    (owned : ∀ event entry, point event = some entry → event.caller = some (caller entry))
    (once : ∀ newer event earlier entry, trace = newer ++ event :: earlier →
      point event = some entry → ∀ other ∈ own (caller entry) earlier, point other = none) :
    ((points point trace).map caller).Nodup := by
  induction trace with
  | nil => exact List.nodup_nil
  | cons event trace ih =>
      have before : ((points point trace).map caller).Nodup := by
        apply ih
        intro newer other earlier entry split
        exact once (event :: newer) other earlier entry (congrArg _ split)
      rw [points_cons]
      cases taken : point event with
      | none =>
          rw [Option.toList_none, List.append_nil]
          exact before
      | some entry =>
          rw [Option.toList_some, List.map_append, List.map_singleton, ← List.concat_eq_append]
          apply before.concat
          intro again
          rcases List.mem_map.mp again with ⟨other, member, same⟩
          rcases mem_points.mp member with ⟨event', inside, taken'⟩
          have mine := owned event' other taken'
          rw [same] at mine
          rw [once [] event trace entry rfl taken event' (mem_own.mpr ⟨inside, mine⟩)] at taken'
          cases taken'

end Points

/-! ## Linearizing a run -/

/-- One call has ended before another starts. -/
def Precedes (trace : List (Event Answer World Operation Result Action))
    (first second : CallId) : Prop :=
  ∃ newer operation earlier, trace = newer ++ .started second operation :: earlier ∧
    ∃ ending ∈ earlier, ending.caller = some first ∧ ending.ends = true

section Linearization

variable {machine : Machine Answer World Operation Result Action}
variable {allowed : List (Event Answer World Operation Result Action) →
  Event Answer World Operation Result Action → Prop}
variable {initial state : State Answer World Operation Result}
variable {trace : List (Event Answer World Operation Result Action)}
variable {point : Event Answer World Operation Result Action → Option Entry}

/-- If every step follows its event, the entries explain the run. -/
theorem Machine.Run.explained {abstract : World → Abstract}
    {takes : Entry → Abstract → Abstract → Prop}
    (run : machine.Run allowed initial trace state)
    (follows : ∀ trace state event next, machine.Run allowed initial trace state →
      machine.Step state event next → allowed trace event →
      Follows takes (abstract state.world) (abstract next.world) (point event)) :
    Explains takes (abstract initial.world) (points point trace) (abstract state.world) := by
  induction run with
  | nil => exact .nil
  | @cons trace state next event run step permitted ih =>
      have follows := follows _ _ _ _ run step permitted
      rw [points_cons]
      cases taken : point event with
      | none =>
          rw [taken] at follows
          rw [Option.toList_none, List.append_nil, follows]
          exact ih
      | some entry =>
          rw [taken] at follows
          exact .concat ih follows

theorem Machine.Run.not_ended_before
    {event ending : Event Answer World Operation Result Action}
    {newer earlier : List (Event Answer World Operation Result Action)} {call : CallId}
    (run : machine.Run allowed initial trace state) (split : trace = newer ++ event :: earlier)
    (mine : event.caller = some call) (member : ending ∈ earlier)
    (same : ending.caller = some call) : ending.ends = false := by
  rcases run.step_of_split split with ⟨before, after, until', step, _⟩
  have running : ∀ {operation rest}, before.calls call = .running operation rest →
      ending.ends = false := by
    intro operation rest running
    have inProgress : (before.calls call).InProgress := by
      rw [running]
      trivial
    exact until'.no_end_of_inProgress inProgress ending member same
  cases step with
  | act => cases mine
  | start operation idle =>
      cases mine
      exact (until'.no_events_of_idle idle ending member same).elim
  | answer isRunning | fail isRunning | finish isRunning | die isRunning =>
      cases mine
      exact running isRunning

variable {caller : Entry → CallId}

/-- Entries of calls that did not overlap are in the order of the calls. -/
theorem Machine.Run.points_sublist (run : machine.Run allowed initial trace state)
    (owned : ∀ event entry, point event = some entry → event.caller = some (caller entry))
    {first second : Entry} (precedes : Precedes trace (caller first) (caller second))
    (firstIn : first ∈ points point trace) (secondIn : second ∈ points point trace) :
    [first, second].Sublist (points point trace) := by
  rcases precedes with ⟨newer, operation, earlier, split, ending, member, same, ends⟩
  have inEarlier : first ∈ points point earlier := by
    rcases mem_points.mp firstIn with ⟨event, inside, taken⟩
    have mine := owned event first taken
    rw [split] at inside
    rcases List.mem_append.mp inside with late | inTail
    · -- The call had ended before.
      rcases List.append_of_mem late with ⟨newest, between, newerSplit⟩
      have whole : trace = newest ++ event :: (between ++ .started (caller second) operation ::
          earlier) := by
        rw [split, newerSplit, List.append_assoc, List.cons_append]
      have running := run.not_ended_before whole mine
        (List.mem_append_right _ (List.mem_cons_of_mem _ member)) same
      cases ends.symm.trans running
    · rcases List.mem_cons.mp inTail with rfl | early
      · have running := run.not_ended_before split mine member same
        cases ends.symm.trans running
      · exact mem_points.mpr ⟨event, early, taken⟩
  have notEarlier : second ∉ points point earlier := by
    intro early
    rcases mem_points.mp early with ⟨event, inside, taken⟩
    rcases run.step_of_split split with ⟨before, after, until', step, _⟩
    cases step with
    | start _ idle => exact until'.no_events_of_idle idle event inside (owned event second taken)
  rw [split, points_append, points_cons, List.append_assoc] at secondIn ⊢
  rcases List.mem_append.mp secondIn with early | late
  · exact (notEarlier early).elim
  · exact (List.singleton_sublist.mpr inEarlier).append (List.singleton_sublist.mpr late)

end Linearization

end Interleaving
