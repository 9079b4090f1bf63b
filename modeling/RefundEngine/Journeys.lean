import RefundEngine.Interleaving.Machine

/-!
# Items that follow an automaton

Any number of items, each of them at some stage or not yet known, move one at a time, and
every move is one of an automaton.  What has happened to one item is then a path of the
automaton, whatever happened to the others in between.  A machine refines such a system
when each of its steps moves no item or one.
-/

namespace Journeys

open Interleaving (Event Machine State)

variable {Item Stage Cause : Type} {moves : Option Stage → Cause → Stage → Prop}

/-- The way of one item through the automaton: the causes of its moves, newest first, and the
stage it has reached. -/
inductive Path (moves : Option Stage → Cause → Stage → Prop) :
    List Cause → Option Stage → Prop where
  | nil : Path moves [] none
  | cons {causes : List Cause} {stage : Option Stage} {cause : Cause} {reached : Stage}
      (path : Path moves causes stage) (move : moves stage cause reached) :
      Path moves (cause :: causes) (some reached)

variable [DecidableEq Item]

/-- The moves of many items, newest first, and the stages they have reached. -/
inductive Travels (moves : Option Stage → Cause → Stage → Prop) :
    List (Item × Cause) → (Item → Option Stage) → Prop where
  | nil : Travels moves [] fun _ => none
  | cons {history : List (Item × Cause)} {stages : Item → Option Stage} {item : Item}
      {cause : Cause} {reached : Stage} (travels : Travels moves history stages)
      (move : moves (stages item) cause reached) :
      Travels moves ((item, cause) :: history) (Function.update stages item (some reached))

/-- What has moved one item, newest first. -/
def causesOf (item : Item) (history : List (Item × Cause)) : List Cause :=
  (history.filter fun entry => entry.1 = item).map Prod.snd

/-- Every item follows the automaton. -/
theorem Travels.path {history : List (Item × Cause)} {stages : Item → Option Stage}
    (travels : Travels moves history stages) (item : Item) :
    Path moves (causesOf item history) (stages item) := by
  induction travels with
  | nil => exact .nil
  | @cons history stages moved cause reached travels move ih =>
      by_cases own : moved = item
      · cases own
        rw [causesOf, List.filter_cons_of_pos (by simp), List.map_cons, Function.update_self]
        exact ih.cons move
      · rw [causesOf, List.filter_cons_of_neg (by simpa using own),
          Function.update_of_ne (Ne.symm own)]
        exact ih

section Refinement

variable {Command : Type} {Answer : Command → Type}
variable {World Operation Result Action : Type}
variable {machine : Machine Answer World Operation Result Action}
variable {allowed : List (Event Answer World Operation Result Action) →
  Event Answer World Operation Result Action → Prop}
variable {initial state : State Answer World Operation Result}
variable {trace : List (Event Answer World Operation Result Action)}

/-- A machine whose steps each leave every item at its stage, or move one item along the
automaton, refines the system of items: its run is, event by event, a history of moves.  Where
an event shows which items it moves, the moves of an item are all the events that move it. -/
theorem travels_of_run (view : State Answer World Operation Result → Item → Option Stage)
    (causes : Event Answer World Operation Result Action → Item → Cause → Prop)
    (moving : Event Answer World Operation Result Action → Item → Prop)
    [∀ event item, Decidable (moving event item)]
    (proper : ∀ stage cause reached, moves stage cause reached → some reached ≠ stage)
    (base : view initial = fun _ => none)
    (detects : ∀ trace state event next, machine.Run allowed initial trace state →
      machine.Step state event next → allowed trace event →
      ∀ item, moving event item ↔ view next item ≠ view state item)
    (stepped : ∀ trace state event next, machine.Run allowed initial trace state →
      machine.Step state event next → allowed trace event →
      view next = view state ∨ ∃ item cause reached, moves (view state item) cause reached ∧
        causes event item cause ∧ view next = Function.update (view state) item (some reached))
    (run : machine.Run allowed initial trace state) :
    ∃ moved : List (Event Answer World Operation Result Action × Item × Cause),
      (moved.map Prod.fst).Sublist trace ∧ (∀ move ∈ moved, causes move.1 move.2.1 move.2.2) ∧
      Travels moves (moved.map Prod.snd) (view state) ∧
      ∀ item, (moved.filter fun move => move.2.1 = item).map Prod.fst =
        trace.filter fun event => moving event item := by
  induction run with
  | nil =>
      refine ⟨[], .slnil, by simp, ?_, fun _ => rfl⟩
      rw [base]
      exact .nil
  | @cons trace state next event run step permitted ih =>
      rcases ih with ⟨moved, inside, caused, travels, all⟩
      have seen := detects _ _ _ _ run step permitted
      rcases stepped _ _ _ _ run step permitted with
        still | ⟨item, cause, reached, move, because, updated⟩
      · refine ⟨moved, inside.cons event, caused, ?_, ?_⟩
        · rw [still]
          exact travels
        · intro item
          have unmoved : ¬moving event item := by simp [seen, still]
          rw [List.filter_cons_of_neg (by simpa using unmoved), all]
      · refine ⟨(event, item, cause) :: moved, inside.cons_cons event, ?_, ?_, ?_⟩
        · intro entry member
          rcases List.mem_cons.mp member with rfl | earlier
          · exact because
          · exact caused entry earlier
        · rw [updated]
          exact travels.cons move
        · intro other
          by_cases own : item = other
          · cases own
            have moves : moving event item := by
              rw [seen, updated, Function.update_self]
              exact proper _ _ _ move
            rw [List.filter_cons_of_pos (by simp), List.filter_cons_of_pos (by simpa using moves),
              List.map_cons, all]
          · have unmoved : ¬moving event other := by
              simp [seen, updated, Function.update_of_ne (Ne.symm own)]
            rw [List.filter_cons_of_neg (by simpa using own),
              List.filter_cons_of_neg (by simpa using unmoved), all]

end Refinement

end Journeys
