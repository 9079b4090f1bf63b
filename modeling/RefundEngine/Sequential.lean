import RefundEngine.Engine
import RefundEngine.Interleaving.Solo

/-!
# Operations run alone

How the evaluation of a call that runs alone goes from one command to the next.
-/

namespace RefundEngine

open Interleaving (CallId)

/-- Run an action alone, as a call. -/
def Action.eval {α : Type} (call : CallId) (action : Action α) (world : World) :
    Option (Except RefundError α × World) :=
  action.run.eval (Command.execute call) world

namespace Action

variable {α β : Type} {call : CallId} {world after : World}

@[simp] theorem eval_pure (value : α) :
    (pure value : Action α).eval call world = some (.ok value, world) := rfl

/-- Sequencing: an error ends the action. -/
theorem eval_bind (action : Action α) (continuation : α → Action β) :
    (action >>= continuation).eval call world =
      (action.eval call world).bind fun (result, after) =>
        match result with
        | .ok value => (continuation value).eval call after
        | .error error => some (.error error, after) := by
  refine (Interleaving.Program.eval_bind _ _).trans (Option.bind_congr ?_)
  intro reached _
  cases reached with
  | mk result after => cases result <;> rfl

theorem eval_bind_ok {action : Action α} {continuation : α → Action β} {value : α}
    (evaluates : action.eval call world = some (.ok value, after)) :
    (action >>= continuation).eval call world = (continuation value).eval call after := by
  rw [eval_bind, evaluates]
  rfl

theorem eval_map (action : Action α) (change : α → β) :
    (change <$> action).eval call world =
      (action.eval call world).map fun (result, after) => (result.map change, after) := by
  refine (Interleaving.Program.eval_bind _ _).trans ?_
  rw [Option.map_eq_bind]
  refine Option.bind_congr ?_
  intro reached _
  cases reached with
  | mk result after => cases result <;> rfl

theorem eval_map_ok {action : Action α} {change : α → β} {value : α}
    (evaluates : action.eval call world = some (.ok value, after)) :
    (change <$> action).eval call world = some (.ok (change value), after) := by
  rw [eval_map, evaluates]
  rfl

theorem eval_sql (statement : Statement) :
    (Action.sql statement).eval call world =
      (world.execute call statement).map fun (answer, after) => (liftDb answer, after) := by
  simp only [Action.eval, Action.sql, ExceptT.run_mk, Interleaving.Program.eval,
    Command.execute]
  cases world.execute call statement <;> rfl

theorem eval_sql_ok {statement : Statement} {continuation : statement.Value → Action β}
    {value : statement.Value} (executed : world.execute call statement = some (.ok value, after)) :
    (Action.sql statement >>= continuation).eval call world =
      (continuation value).eval call after := by
  apply eval_bind_ok
  rw [eval_sql, executed]
  rfl

theorem eval_createRefund {amount : Int64} {currency key : String}
    {continuation : GatewayOutcome → Action β} :
    (Action.createRefund amount currency key >>= continuation).eval call world =
      (continuation (world.gateway.createRefund amount currency key).1).eval call
        { world with gateway := (world.gateway.createRefund amount currency key).2 } := rfl

theorem eval_lookupByKey {key : String} {continuation : Option GatewayRefund → Action β} :
    (Action.lookupByKey key >>= continuation).eval call world =
      (continuation (world.gateway.lookupByKey key)).eval call world := rfl

end Action

end RefundEngine
