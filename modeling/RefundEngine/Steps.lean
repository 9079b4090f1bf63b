import RefundEngine.Engine

/-!
# What one step does to the tables

Only three statements touch the tables a call can be judged by: an update outside a
transaction, the insert of an event id, and a commit.  Only one command reaches the gateway.
Every later fact about how rows, event ids or the gateway change is read off here.
-/

namespace RefundEngine

open Interleaving (CallId)

/-- The tables, the audit trail aside, and the gateway are as they were. -/
structure SameTables (before after : World) : Prop where
  charges : after.database.charges = before.database.charges
  refunds : after.database.refunds = before.database.refunds
  webhookEvents : after.database.webhookEvents = before.database.webhookEvents
  gateway : after.gateway = before.gateway

theorem SameTables.refl (world : World) : SameTables world world := ⟨rfl, rfl, rfl, rfl⟩

/-- What a statement of a call does to the tables. -/
inductive StatementEffect (world : World) (call : CallId) :
    (statement : Statement) → Except DbError statement.Value → World → Prop where
  | same {statement : Statement} {answer : Except DbError statement.Value} {after : World}
      (tables : SameTables world after) (other : ∀ id, statement ≠ .insertWebhookEvent id) :
      StatementEffect world call statement answer after
  | updated {update : RefundUpdate} {refunds : RefundTable}
      (revised : world.database.refunds.revise (update.change world.now) = .ok refunds) :
      StatementEffect world call (.updateRefunds update) (.ok ()) (world.setRefunds refunds)
  | conflict {id : String} (seen : id ∈ world.database.webhookEvents) :
      StatementEffect world call (.insertWebhookEvent id) (.ok none) world
  | inserted {id : String} (unseen : id ∉ world.database.webhookEvents) :
      StatementEffect world call (.insertWebhookEvent id) (.ok (some id))
        { world with
          database :=
            { world.database with
              webhookEvents := world.database.webhookEvents ++ [id] } }
  | committed {transaction : Transaction} {database : Database}
      (opened : world.transaction call = some transaction)
      (committed : world.database.commit transaction = .ok database) :
      StatementEffect world call .commit (.ok ())
        { (world.endTransaction call) with database := database }

/-- A statement that is executed has one of these effects. -/
theorem statementEffect {world after : World} {call : CallId} {statement : Statement}
    {answer : Except DbError statement.Value}
    (executed : world.execute call statement = some (answer, after)) :
    StatementEffect world call statement answer after := by
  cases statement with
  | getRefund | selectStuck | selectAmount | selectSettled | begin | rollback =>
      cases executed
      exact .same ⟨rfl, rfl, rfl, rfl⟩ (by simp)
  | updateRefunds update =>
      simp only [World.execute, World.updateRefunds] at executed
      split at executed
      · cases executed
      · split at executed
        · rename_i refunds revised
          cases executed
          exact .updated revised
        · cases executed
          exact .same (.refl world) (by simp)
  | recordTransition =>
      simp only [World.execute, World.recordTransition] at executed
      split at executed <;> cases executed <;> exact .same ⟨rfl, rfl, rfl, rfl⟩ (by simp)
  | insertWebhookEvent id =>
      simp only [World.execute, World.insertWebhookEvent] at executed
      split at executed
      · rename_i seen
        cases executed
        exact .conflict seen
      · rename_i unseen
        cases executed
        exact .inserted unseen
  | lockCharge | sumRefunds | insertRefund | insertTransition | applyMoved =>
      simp only [World.execute, World.lockCharge, World.sumRefunds, World.insertRefund,
        World.insertTransition, World.applyMoved, World.inTransaction] at executed
      repeat' split at executed
      all_goals cases executed
      all_goals exact .same ⟨rfl, rfl, rfl, rfl⟩ (by simp)
  | commit =>
      simp only [World.execute, World.commit, World.inTransaction] at executed
      split at executed
      · rename_i transaction opened
        split at executed
        · rename_i database committed
          cases executed
          exact .committed opened committed
        · cases executed
          exact .same ⟨rfl, rfl, rfl, rfl⟩ (by simp)
      · cases executed
        exact .same (.refl world) (by simp)

theorem Database.webhookEvents_of_commit {database after : Database}
    {transaction : Transaction} (committed : database.commit transaction = .ok after) :
    after.webhookEvents = database.webhookEvents := by
  simp only [Database.commit] at committed
  cases written : transaction.refundWrites.foldlM RefundTable.write database.refunds with
  | ok refunds =>
      rw [written] at committed
      cases committed
      rfl
  | error error =>
      rw [written] at committed
      cases committed

/-- What a step of the engine does to the tables. -/
inductive StepEffect (before : World) : EngineEvent → World → Prop where
  | same {event : EngineEvent} {after : World} (tables : SameTables before after)
      (other : ∀ call operation statement answer at',
        event ≠ .answered call operation (.sql statement) answer at') :
      StepEffect before event after
  | executed {call : CallId} {operation : Operation} {statement : Statement}
      {answer : Except DbError statement.Value} {after : World}
      (effect : StatementEffect before call statement answer after) :
      StepEffect before (.answered call operation (.sql statement) answer before) after
  | requested {call : CallId} {operation : Operation} {amount : Int64} {currency key : String}
      {outcome : GatewayOutcome} :
      StepEffect before
        (.answered call operation (.createRefund amount currency key) outcome before)
        { before with gateway := (before.gateway.createRefund amount currency key).2 }
  | configured {config : MockConfig} :
      StepEffect before (.acted (.setConfig config) before)
        { before with gateway := before.gateway.setConfig config }
  | charged {charge : Charge} {charges : ChargeTable}
      (inserted : before.database.charges.insert charge = .ok charges) :
      StepEffect before (.acted (.createCharge charge) before)
        { before with database := { before.database with charges := charges } }
  | canceled {refundId : Uuid} {refunds : RefundTable}
      (cancelable : Environment.Cancelable before refundId)
      (revised : before.database.refunds.revise (Environment.cancelRow refundId before.now) =
        .ok refunds) :
      StepEffect before (.acted (.cancel refundId) before) (before.setRefunds refunds)

/-- A step that is taken has one of these effects. -/
theorem stepEffect {hmac : Hmac} {state next : EngineState} {event : EngineEvent}
    (step : (engine hmac).Step state event next) :
    StepEffect state.world event next.world := by
  cases step with
  | start | fail | finish | die => exact .same ⟨rfl, rfl, rfl, rfl⟩ (by simp)
  | @answer call operation command next' answer world running executed =>
      cases command with
      | sql statement => exact .executed (statementEffect executed)
      | createRefund amount currency key =>
          cases executed
          exact .requested
      | lookupByKey key =>
          cases executed
          exact .same (.refl _) (by simp)
  | @act action world acted =>
      cases action with
      | setConfig config =>
          cases acted
          exact .configured
      | setClock now =>
          cases acted
          exact .same ⟨rfl, rfl, rfl, rfl⟩ (by simp)
      | createCharge charge =>
          simp only [engine, Environment.act] at acted
          split at acted <;> cases acted
          exact .charged ‹_›
      | cancel refundId =>
          simp only [engine, Environment.act] at acted
          split at acted
          · rename_i cancelable
            split at acted <;> cases acted
            exact .canceled cancelable ‹_›
          · cases acted
      | suspend caller update =>
          rcases Environment.of_suspend acted with ⟨_, _, _, rfl⟩
          exact .same ⟨rfl, rfl, rfl, rfl⟩ (by simp)

/-! ## Who owns a transaction -/

/-- A statement leaves the transaction of every call and its waiting alone, but for its own. -/
theorem sessions_of_execute {world after : World} {call : CallId} {statement : Statement}
    {answer : Except DbError statement.Value}
    (executed : world.execute call statement = some (answer, after)) (other : CallId) :
    other = call ∧ after.suspended other = none ∨
      after.suspended other = world.suspended other ∧
        after.transaction other = world.transaction other := by
  have replaced : ∀ transaction,
      other = call ∧ (world.setTransaction call transaction).suspended other = none ∨
        (world.setTransaction call transaction).suspended other = world.suspended other ∧
          (world.setTransaction call transaction).transaction other = world.transaction other := by
    intro transaction
    by_cases own : other = call
    · rw [own]
      exact .inl ⟨rfl, World.suspended_setTransaction_self world call transaction⟩
    · exact .inr ⟨World.suspended_setTransaction_of_ne world transaction own,
        World.transaction_setTransaction_of_ne world transaction own⟩
  have ended : other = call ∧ (world.endTransaction call).suspended other = none ∨
      (world.endTransaction call).suspended other = world.suspended other ∧
        (world.endTransaction call).transaction other = world.transaction other := by
    by_cases own : other = call
    · rw [own]
      exact .inl ⟨rfl, World.suspended_endTransaction_self ..⟩
    · exact .inr ⟨World.suspended_endTransaction_of_ne _ own,
        World.transaction_endTransaction_of_ne _ own⟩
  cases statement with
  | getRefund | selectStuck | selectSettled | selectAmount | recordTransition
  | insertWebhookEvent | updateRefunds | sumRefunds =>
      right
      simp only [World.execute, World.recordTransition, World.insertWebhookEvent,
        World.updateRefunds, World.sumRefunds, World.inTransaction] at executed
      repeat' split at executed
      all_goals cases executed
      all_goals exact ⟨rfl, rfl⟩
  | begin =>
      cases executed
      exact replaced _
  | rollback =>
      cases executed
      exact ended
  | commit =>
      simp only [World.execute, World.commit, World.inTransaction] at executed
      repeat' split at executed
      all_goals cases executed
      · exact ended
      · exact ended
      · exact .inr ⟨rfl, rfl⟩
  | lockCharge | insertRefund | insertTransition | applyMoved =>
      simp only [World.execute, World.lockCharge, World.insertRefund, World.insertTransition,
        World.applyMoved, World.inTransaction] at executed
      repeat' split at executed
      all_goals cases executed
      all_goals first
        | exact .inr ⟨rfl, rfl⟩
        | exact replaced _

theorem transaction_of_execute {world after : World} {call : CallId} {statement : Statement}
    {answer : Except DbError statement.Value}
    (executed : world.execute call statement = some (answer, after)) {other : CallId}
    (different : other ≠ call) : after.transaction other = world.transaction other := by
  rcases sessions_of_execute executed other with ⟨own, _⟩ | ⟨_, same⟩
  · exact (different own).elim
  · exact same

section Owners

variable {hmac : Hmac} {state next : EngineState} {event : EngineEvent} {call : CallId}

/-- Only a call's own steps change its transaction. -/
theorem transaction_of_step (step : (engine hmac).Step state event next)
    (different : event.caller ≠ some call) :
    next.world.transaction call = state.world.transaction call := by
  have isOther : ∀ {caller : CallId}, some caller ≠ some call → call ≠ caller := by
    rintro caller different rfl
    exact different rfl
  cases step with
  | start | fail => rfl
  | finish | die => exact World.transaction_endTransaction_of_ne _ (isOther different)
  | @answer caller operation command next' answer world running executed =>
      cases command with
      | sql statement => exact transaction_of_execute executed (isOther different)
      | createRefund | lookupByKey =>
          cases executed
          rfl
  | @act action world acted =>
      cases action with
      | setConfig | setClock =>
          cases acted
          rfl
      | createCharge | cancel =>
          simp only [engine, Environment.act] at acted
          repeat' split at acted
          all_goals cases acted
          all_goals rfl
      | suspend =>
          rcases Environment.of_suspend acted with ⟨_, _, _, rfl⟩
          rfl

variable {allowed : List EngineEvent → EngineEvent → Prop} {trace : List EngineEvent}
variable {charges : ChargeTable} {config : MockConfig} {now : Timestamp}

theorem inProgress_of_transaction
    (run : (engine hmac).Run allowed (initialState charges config now) trace state)
    {transaction : Transaction} (opened : state.world.transaction call = some transaction) :
    (state.calls call).InProgress := by
  induction run with
  | nil => cases opened
  | @cons trace state next event run step permitted ih =>
      by_cases taken : event.caller = some call
      · cases step with
        | start | answer | fail =>
            cases taken
            simp only [Function.update_self]
            trivial
        | finish | die =>
            cases taken
            cases (World.transaction_endTransaction_self state.world call).symm.trans opened
        | act => cases taken
      · rw [step.calls_other taken]
        apply ih
        rw [← transaction_of_step step taken]
        exact opened

/-- A statement that waits waited before, or begins to. -/
theorem suspended_of_step (step : (engine hmac).Step state event next)
    {waiting : RefundUpdate × List Transition}
    (waits : next.world.suspended call = some waiting) :
    (state.world.suspended call = some waiting ∧
      next.world.transaction call = state.world.transaction call) ∨
    ((∃ transaction, state.world.transaction call = some transaction) ∧
      state.world.MustWait (some call) waiting.1 ∧
      waiting.2 = state.world.database.transitions ∧
      next.world = state.world.suspend call waiting.1) := by
  cases step with
  | start | fail => exact .inl ⟨waits, rfl⟩
  | @finish caller operation result running | @die caller operation rest running =>
      by_cases own : call = caller
      · rw [own] at waits
        cases (World.suspended_endTransaction_self state.world caller).symm.trans waits
      · exact .inl ⟨(World.suspended_endTransaction_of_ne _ own).symm.trans waits,
          World.transaction_endTransaction_of_ne _ own⟩
  | @answer caller operation command next' answer world running executed =>
      cases command with
      | sql statement =>
          rcases sessions_of_execute executed call with ⟨_, resumed⟩ | ⟨same, transaction⟩
          · cases resumed.symm.trans waits
          · exact .inl ⟨same.symm.trans waits, transaction⟩
      | createRefund | lookupByKey =>
          cases executed
          exact .inl ⟨waits, rfl⟩
  | @act action world acted =>
      cases action with
      | setConfig | setClock =>
          cases acted
          exact .inl ⟨waits, rfl⟩
      | createCharge | cancel =>
          simp only [engine, Environment.act] at acted
          repeat' split at acted
          all_goals cases acted
          all_goals exact .inl ⟨waits, rfl⟩
      | suspend caller update =>
          rcases Environment.of_suspend acted with ⟨opened, _, locked, rfl⟩
          by_cases own : call = caller
          · subst own
            cases (Function.update_self ..).symm.trans waits
            exact .inr ⟨opened, locked, rfl, rfl⟩
          · exact .inl ⟨(Function.update_of_ne own ..).symm.trans waits, rfl⟩

theorem resumed_of_closed
    (run : (engine hmac).Run allowed (initialState charges config now) trace state)
    (closed : state.world.transaction call = none) : state.world.suspended call = none := by
  induction run with
  | nil => rfl
  | @cons trace state next event run step permitted ih =>
      cases waits : next.world.suspended call with
      | none => rfl
      | some waiting =>
          rcases suspended_of_step step waits with ⟨before, same⟩ | ⟨⟨_, opened⟩, _, _, same⟩
          · cases (ih (same.symm.trans closed)).symm.trans before
          · rw [same] at closed
            cases opened.symm.trans closed

theorem unlocked_of_quiet
    (run : (engine hmac).Run allowed (initialState charges config now) trace state)
    (quiet : state.Quiet) (call : CallId) : state.world.transaction call = none := by
  cases opened : state.world.transaction call with
  | none => rfl
  | some transaction => exact (quiet call (inProgress_of_transaction run opened)).elim

end Owners

end RefundEngine
