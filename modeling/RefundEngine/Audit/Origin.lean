import RefundEngine.Audit.Trail
import RefundEngine.Invariant.Run

/-!
# Where audit rows come from

Audit rows are only ever appended: by an insert of its own, or by the commit of the
transaction that staged them.  A transaction stages the first audit row of a refund it has
inserted, or one for each row a webhook moves.
-/

namespace RefundEngine

open Interleaving (CallId Machine Event)

/-- The audit row that an insert outside a transaction appends. -/
def World.auditRow (world : World) (refundId : Uuid) (fromStatus : Option Status)
    (toStatus : Status) (actor : String) : Transition :=
  { id := world.database.nextTransition, refundId, fromStatus, toStatus, actor, reason := none }

/-- The audit rows that the transaction of a call has staged. -/
def World.staged (world : World) (call : CallId) : List Transition :=
  ((world.transaction call).map Transaction.transitionWrites).getD []

theorem World.staged_of_opened {world : World} {call : CallId} {transaction : Transaction}
    (opened : world.transaction call = some transaction) :
    world.staged call = transaction.transitionWrites := by
  simp only [World.staged, opened, Option.map_some, Option.getD_some]

/-- The audit rows a step appends. -/
def appended : EngineEvent → List Transition
  | .answered _ _ (.sql (.recordTransition refundId fromStatus toStatus actor)) (.ok _) before =>
      [before.auditRow refundId fromStatus toStatus actor]
  | .answered call _ (.sql .commit) (.ok _) before => before.staged call
  | _ => []

/-- A statement appends the audit rows its event stands for. -/
theorem transitions_of_execute {world after : World} {call : CallId} {operation : Operation}
    {statement : Statement} {answer : Except DbError statement.Value}
    (executed : world.execute call statement = some (answer, after)) :
    after.database.transitions = world.database.transitions ++
      appended (.answered call operation (.sql statement) answer world) := by
  cases statement with
  | getRefund | selectStuck | selectAmount | selectSettled | begin | rollback =>
      cases executed
      exact (List.append_nil _).symm
  | updateRefunds =>
      simp only [World.execute, World.updateRefunds] at executed
      repeat' split at executed
      all_goals cases executed
      all_goals exact (List.append_nil _).symm
  | recordTransition =>
      simp only [World.execute, World.recordTransition] at executed
      split at executed
      · cases executed
        rfl
      · cases executed
        exact (List.append_nil _).symm
  | insertWebhookEvent =>
      simp only [World.execute, World.insertWebhookEvent] at executed
      split at executed
      all_goals cases executed
      all_goals exact (List.append_nil _).symm
  | lockCharge | sumRefunds | insertRefund | insertTransition | applyMoved =>
      simp only [World.execute, World.lockCharge, World.sumRefunds, World.insertRefund,
        World.insertTransition, World.applyMoved, World.inTransaction] at executed
      repeat' split at executed
      all_goals cases executed
      all_goals exact (List.append_nil _).symm
  | commit =>
      simp only [World.execute, World.commit, World.inTransaction] at executed
      split at executed
      · rename_i transaction opened
        split at executed
        · rename_i database committed
          cases executed
          have staged := World.staged_of_opened opened
          simp only [Database.commit] at committed
          cases written : transaction.refundWrites.foldlM RefundTable.write
              world.database.refunds with
          | error error =>
              rw [written] at committed
              cases committed
          | ok refunds =>
              rw [written] at committed
              cases committed
              rw [appended, staged]
        · cases executed
          exact (List.append_nil _).symm
      · cases executed
        exact (List.append_nil _).symm

theorem transitions_of_step {hmac : Hmac} {state next : EngineState} {event : EngineEvent}
    (step : (engine hmac).Step state event next) :
    next.world.database.transitions = state.world.database.transitions ++ appended event := by
  cases step with
  | start | fail | finish | die => exact (List.append_nil _).symm
  | @answer call operation command next' answer world running executed =>
      cases command with
      | sql statement => exact transitions_of_execute executed
      | createRefund | lookupByKey =>
          cases executed
          exact (List.append_nil _).symm
  | @act action world acted =>
      have same : world.database.transitions = state.world.database.transitions := by
        cases action with
        | setConfig | setClock =>
            cases acted
            rfl
        | createCharge | cancel =>
            simp only [engine, Environment.act] at acted
            repeat' split at acted
            all_goals cases acted
            all_goals rfl
        | suspend =>
            rcases Environment.of_suspend acted with ⟨_, _, _, rfl⟩
            rfl
      exact same.trans (List.append_nil _).symm

/-- The audit rows of a run are those its events have appended. -/
theorem EngineRun.transitions {hmac : Hmac} {trace : List EngineEvent} {state : EngineState}
    (run : EngineRun hmac trace state) :
    state.world.database.transitions = trace.reverse.flatMap appended := by
  apply run.preserves fun trace state =>
    state.world.database.transitions = trace.reverse.flatMap appended
  · intro charges config now
    rfl
  · intro trace state event next _ ih step _
    rw [transitions_of_step step, ih, List.reverse_cons, List.flatMap_append,
      List.flatMap_singleton]

/-- Every audit row was appended by a step of the run. -/
theorem EngineRun.appended_of_mem {hmac : Hmac} {trace : List EngineEvent}
    {state : EngineState} (run : EngineRun hmac trace state) {audit : Transition}
    (member : audit ∈ state.world.database.transitions) :
    ∃ event ∈ trace, audit ∈ appended event := by
  rw [run.transitions, List.mem_flatMap] at member
  rcases member with ⟨event, inside, listed⟩
  exact ⟨event, List.mem_reverse.mp inside, listed⟩

/-! ## What a transaction stages -/

/-- What a statement stages in a transaction, at most. -/
inductive Stages (world : World) (call : CallId) : Statement → Transition → Prop where
  | opens {refundId : Uuid} {toStatus : Status} {actor : String} {reason : Option String} :
      Stages world call (.insertTransition refundId toStatus actor reason)
        { id := world.database.nextTransition, refundId, fromStatus := none, toStatus, actor
          reason }
  | moves {update : RefundUpdate} {reason : Option String} {row : Refund} {index : Nat}
      {writtenAt : Timestamp} (member : row ∈ world.rows) (applies : update.Applies row) :
      Stages world call (.applyMoved update reason)
        { id := world.database.nextTransition + index
          refundId := row.id
          fromStatus := newestStatus (world.visible call update) row.id
          toStatus := (update.assign writtenAt row).status
          actor := "webhook"
          reason }

section Staged

variable {world after : World} {call other : CallId} {audit : Transition}

theorem mem_staged_setTransaction (transaction : Transaction) (count : Nat)
    (listed : audit ∈
      ((world.setTransaction call transaction).advanceSequence count).staged other) :
    audit ∈ world.staged other ∨ (other = call ∧ audit ∈ transaction.transitionWrites) := by
  by_cases own : other = call
  · subst own
    simp only [World.staged, World.transaction_advanceSequence,
      World.transaction_setTransaction_self, Option.map_some, Option.getD_some] at listed
    exact .inr ⟨rfl, listed⟩
  · simp only [World.staged, World.transaction_advanceSequence,
      World.transaction_setTransaction_of_ne _ _ own] at listed
    exact .inl listed

theorem mem_staged_endTransaction (database : Database)
    (listed : audit ∈
      World.staged { (world.endTransaction call) with database := database } other) :
    audit ∈ world.staged other := by
  by_cases own : other = call
  · subst own
    have none : World.transaction { (world.endTransaction other) with database := database }
        other = none := World.transaction_endTransaction_self world other
    simp only [World.staged, none, Option.map_none, Option.getD_none] at listed
    cases listed
  · have same : World.transaction { (world.endTransaction call) with database := database }
        other = world.transaction other := World.transaction_endTransaction_of_ne world own
    simp only [World.staged, same] at listed
    exact listed

/-- A staged audit row was staged before, or by this statement. -/
theorem staged_of_execute {statement : Statement} {answer : Except DbError statement.Value}
    (executed : world.execute call statement = some (answer, after))
    (listed : audit ∈ after.staged other) :
    audit ∈ world.staged other ∨ (other = call ∧ Stages world call statement audit) := by
  cases statement with
  | getRefund | selectStuck | selectAmount | selectSettled =>
      cases executed
      exact .inl listed
  | begin =>
      cases executed
      rcases mem_staged_setTransaction _ 0 listed with before | ⟨_, fresh⟩
      · exact .inl before
      · cases fresh
  | rollback =>
      cases executed
      exact .inl (mem_staged_endTransaction world.database listed)
  | updateRefunds | recordTransition | insertWebhookEvent =>
      simp only [World.execute, World.updateRefunds, World.recordTransition,
        World.insertWebhookEvent] at executed
      repeat' split at executed
      all_goals cases executed
      all_goals exact .inl listed
  | sumRefunds =>
      simp only [World.execute, World.sumRefunds, World.inTransaction] at executed
      split at executed
      all_goals cases executed
      all_goals exact .inl listed
  | lockCharge | insertRefund =>
      simp only [World.execute, World.lockCharge, World.insertRefund,
        World.inTransaction] at executed
      split at executed
      · rename_i transaction opened
        repeat' split at executed
        all_goals cases executed
        all_goals first
          | exact .inl listed
          | rcases mem_staged_setTransaction _ 0 listed with before | ⟨rfl, kept⟩
            · exact .inl before
            · exact .inl ((World.staged_of_opened opened).symm ▸ kept)
      · cases executed
        exact .inl listed
  | insertTransition =>
      simp only [World.execute, World.insertTransition, World.inTransaction] at executed
      split at executed
      · rename_i transaction opened
        split at executed
        · cases executed
          rcases mem_staged_setTransaction _ 1 listed with before | ⟨rfl, written⟩
          · exact .inl before
          · rcases List.mem_append.mp written with kept | new
            · exact .inl ((World.staged_of_opened opened).symm ▸ kept)
            · cases List.mem_singleton.mp new
              exact .inr ⟨rfl, .opens⟩
        · cases executed
          exact .inl listed
      · cases executed
        exact .inl listed
  | applyMoved =>
      simp only [World.execute, World.applyMoved, World.inTransaction] at executed
      split at executed
      · rename_i transaction opened
        split at executed
        · cases executed
        · cases executed
          rcases mem_staged_setTransaction _ _ listed with before | ⟨rfl, written⟩
          · exact .inl before
          · rcases List.mem_append.mp written with kept | new
            · exact .inl ((World.staged_of_opened opened).symm ▸ kept)
            · rcases List.mem_mapIdx.mp new with ⟨index, inside, rfl⟩
              have found := List.mem_filter.mp (List.getElem_mem inside)
              exact .inr ⟨rfl, .moves found.1 (of_decide_eq_true found.2)⟩
      · cases executed
        exact .inl listed
  | commit =>
      simp only [World.execute, World.commit, World.inTransaction] at executed
      repeat' split at executed
      all_goals cases executed
      · exact .inl (mem_staged_endTransaction _ listed)
      · exact .inl (mem_staged_endTransaction world.database listed)
      · exact .inl listed

end Staged

/-- Staged audit rows open a trail or decide a refund. -/
def OpensOrDecides (audit : Transition) : Prop :=
  audit.fromStatus = none ∨ audit.toStatus = .settled ∨ audit.toStatus = .failed

/-- What is staged opens a trail or decides a refund. -/
theorem EngineRun.staged {hmac : Hmac} {trace : List EngineEvent} {state : EngineState}
    (run : EngineRun hmac trace state) :
    ∀ call, ∀ audit ∈ state.world.staged call, OpensOrDecides audit := by
  apply run.preserves fun _ state =>
    ∀ call, ∀ audit ∈ state.world.staged call, OpensOrDecides audit
  · intro charges config now call audit listed
    cases listed
  · intro trace state event next run ih step permitted call audit listed
    have permits := run.permits step
    cases step with
    | start | fail => exact ih call audit listed
    | finish | die => exact ih call audit (mem_staged_endTransaction state.world.database listed)
    | @act action world acted =>
        have same : world.transactions = state.world.transactions := by
          cases action with
          | setConfig | setClock =>
              cases acted
              rfl
          | createCharge | cancel =>
              simp only [engine, Environment.act] at acted
              repeat' split at acted
              all_goals cases acted
              all_goals rfl
          | suspend =>
              rcases Environment.of_suspend acted with ⟨_, _, _, rfl⟩
              rfl
        apply ih call audit
        simpa only [World.staged, World.transaction, same] using listed
    | @answer caller operation command next' answer world running executed =>
        cases command with
        | createRefund | lookupByKey =>
            cases executed
            exact ih call audit listed
        | sql statement =>
            rcases staged_of_execute executed listed with before | ⟨_, stages⟩
            · exact ih call audit before
            · cases stages with
              | opens => exact .inl rfl
              | moves member applies =>
                  rcases permits with ⟨event, _, _, _, _, _, _, _, _, updates, _⟩
                  right
                  simp only [WebhookEvent.update] at updates
                  split at updates
                  · cases updates
                    exact .inl rfl
                  · split at updates
                    · cases updates
                      exact .inr rfl
                    · cases updates

/-- An audit row that records the release of a refund was inserted outside a transaction. -/
theorem EngineRun.recorded_of_released {hmac : Hmac} {trace : List EngineEvent}
    {state : EngineState} (run : EngineRun hmac trace state) {event : EngineEvent}
    {audit : Transition} (inside : event ∈ trace) (listed : audit ∈ appended event)
    (fromReview : audit.fromStatus = some .pendingReview)
    (released : audit.toStatus = .requested) :
    ∃ call operation before,
      event = .answered call operation
        (.sql (.recordTransition audit.refundId (some .pendingReview) .requested audit.actor))
        (.ok ()) before := by
  cases event with
  | answered call operation command answer before =>
      cases command with
      | createRefund | lookupByKey => cases listed
      | sql statement =>
          cases statement with
          | recordTransition refundId fromStatus toStatus actor =>
              cases answer with
              | error => cases listed
              | ok value =>
                  cases List.mem_singleton.mp listed
                  cases fromReview
                  cases released
                  exact ⟨call, operation, before, rfl⟩
          | commit =>
              cases answer with
              | error => cases listed
              | ok =>
                  -- A transaction never stages the release of a refund.
                  rcases run.reached_of_answered inside with ⟨_, _, reached, rfl⟩
                  rcases reached.staged call audit listed with fromNothing | settled | failed
                  · cases fromReview.symm.trans fromNothing
                  · cases released.symm.trans settled
                  · cases released.symm.trans failed
          | _ => cases listed
  | _ => cases listed

end RefundEngine
