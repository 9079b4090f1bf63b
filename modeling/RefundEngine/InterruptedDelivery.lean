import RefundEngine.Interleaving.Stopping
import RefundEngine.Invariant.Run
import RefundEngine.Sequential

/-!
# Deliveries that stop short

The event id is inserted by a statement of its own, before the transaction that applies the
event.  A delivery that stops between the two has used up the id, and a later delivery of
the event does nothing.  So a delivery can be repeated exactly when it had nothing to do,
or stopped outside that window.
-/

namespace RefundEngine

open Interleaving (CallId Machine)

namespace WebhookEvent

variable (event : WebhookEvent)

/-- What becomes of a row. -/
def revise (now : Timestamp) (row : Refund) : Refund :=
  match event.update with
  | some (update, _) => (update.change now).apply row
  | none => row

/-- The audit rows a delivery appends. -/
def audit (world : World) : List Transition :=
  match event.update with
  | some (update, reason) =>
      (world.rows.filter fun row => update.Applies row).mapIdx fun index row =>
        { id := world.database.nextTransition + index
          refundId := row.id
          fromStatus := newestStatus world.database.transitions row.id
          toStatus := (update.assign world.now row).status
          actor := "webhook"
          reason := reason }
  | none => []

/-- No row matches the event. -/
def Unmatched (world : World) : Prop :=
  ∀ update reason, event.update = some (update, reason) →
    ∀ row ∈ world.rows, ¬update.Applies row

theorem decision_of_update {event : WebhookEvent} {update : RefundUpdate}
    {reason : Option String} (updates : event.update = some (update, reason)) :
    ∃ status, update.decision = some (event.data.gatewayRef, status) := by
  rw [WebhookEvent.update] at updates
  split at updates
  · cases updates
    exact ⟨_, rfl⟩
  · split at updates
    · cases updates
      exact ⟨_, rfl⟩
    · cases updates

end WebhookEvent

theorem RefundUpdate.gatewayRef_assign {update : RefundUpdate} {decision : String × Status}
    (decides : update.decision = some decision) (now : Timestamp) (row : Refund) :
    (update.assign now row).gatewayRef = row.gatewayRef := by
  cases update <;> cases decides <;> rfl

/-- The writes of a decision take effect as the update itself would. -/
theorem RefundTable.write_decided (table : RefundTable) {update : RefundUpdate}
    {decision : String × Status} (decides : update.decision = some decision)
    (now : Timestamp) :
    ∃ after, ((table.rows.filter fun row => update.Applies row).map fun row =>
        RefundWrite.update row.id update now).foldlM RefundTable.write table = .ok after ∧
      after.rows = table.rows.map (update.change now).apply := by
  rcases table.filter_of_decision decides with none | ⟨row, member, applies, only⟩
  · refine ⟨table, by rw [none]; rfl, ?_⟩
    have same : ∀ row ∈ table.rows, (update.change now).apply row = row := by
      intro row member
      apply if_neg
      intro applies
      have found : row ∈ table.rows.filter fun row => update.Applies row :=
        List.mem_filter.mpr ⟨member, decide_eq_true applies⟩
      rw [none] at found
      cases found
    exact ((List.map_congr_left same).trans (List.map_id _)).symm
  · let write : RowChange :=
      { apply := fun other => if other.id = row.id then update.assign now other else other
        apply_id := fun other => by split <;> simp
        apply_idempotencyKey := fun other => by split <;> simp }
    have same : table.rows.map write.apply = table.rows.map (update.change now).apply := by
      apply List.map_congr_left
      intro other otherIn
      have iff : other.id = row.id ↔ update.Applies other := by
        constructor
        · intro isRow
          rw [table.eq_of_id otherIn member isRow]
          exact applies
        · intro otherApplies
          have found : other ∈ table.rows.filter fun row => update.Applies row :=
            List.mem_filter.mpr ⟨otherIn, decide_eq_true otherApplies⟩
          rw [only, List.mem_singleton] at found
          rw [found]
      simp only [write, RefundUpdate.change, iff]
    have unique : ((table.rows.map write.apply).filterMap Refund.gatewayRef).Nodup := by
      have refs : ∀ other, (write.apply other).gatewayRef = other.gatewayRef := by
        intro other
        simp only [write]
        split
        · exact RefundUpdate.gatewayRef_assign decides now other
        · rfl
      rw [List.filterMap_map]
      simp only [Function.comp_def, refs]
      exact table.refs_nodup
    have revised : ∃ after, table.revise write = .ok after := ⟨_, dif_pos unique⟩
    rcases revised with ⟨after, revised⟩
    refine ⟨after, ?_, (RefundTable.rows_of_revise revised).trans same⟩
    rw [only]
    simp only [List.map_cons, List.map_nil, List.foldlM_cons, List.foldlM_nil]
    rw [show RefundTable.write table (.update row.id update now) = .ok after from revised]
    rfl

section Delivery

variable {hmac : Hmac} {event : WebhookEvent} {rawBody secret : Bytes} {sig : String}
variable {world : World}

theorem execute_applyMoved {call : CallId} {update : RefundUpdate} {reason : Option String}
    (opened : world.transaction call = some { began := world.now })
    (resumed : world.suspended call = none)
    (unlocked : ∀ other, other ≠ call → world.transaction other = none)
    (updates : event.update = some (update, reason)) :
    ∃ after transaction,
      world.execute call (.applyMoved update reason) = some (.ok (), after) ∧
      after.transaction call = some transaction ∧
      transaction.refundWrites =
        ((world.rows.filter fun row => update.Applies row).map fun row =>
          .update row.id update world.now) ∧
      transaction.transitionWrites = event.audit world ∧
      after.database.refunds = world.database.refunds ∧
      after.database.transitions = world.database.transitions ∧
      after.database.webhookEvents = world.database.webhookEvents := by
  have free : ¬world.MustWait (some call) update := by
    apply World.not_mustWait
    intro other different
    exact unlocked other fun same => different (congrArg some same.symm)
  simp only [World.execute, World.applyMoved, World.inTransaction, opened, if_neg free]
  refine ⟨_, _, rfl, World.transaction_setTransaction_self _ _ _, rfl, ?_, rfl, rfl, rfl⟩
  simp only [WebhookEvent.audit, updates, List.nil_append, World.visible_of_resumed resumed]

theorem execute_commit {call : CallId} {transaction : Transaction} {refunds : RefundTable}
    (opened : world.transaction call = some transaction)
    (written : transaction.refundWrites.foldlM RefundTable.write world.database.refunds =
      .ok refunds) :
    ∃ after, world.execute call .commit = some (.ok (), after) ∧ after.rows = refunds.rows ∧
      after.database.transitions =
        world.database.transitions ++ transaction.transitionWrites ∧
      after.database.webhookEvents = world.database.webhookEvents := by
  have committed : world.database.commit transaction = .ok
      { world.database with
        refunds := refunds
        transitions := world.database.transitions ++ transaction.transitionWrites } := by
    simp only [Database.commit, written]
    rfl
  simp only [World.execute, World.commit, World.inTransaction, opened, committed]
  exact ⟨_, rfl, rfl, rfl, rfl⟩

/-- Once its transaction has begun, a delivery applies the event and commits. -/
theorem conclude_eval {call : CallId}
    (opened : world.transaction call = some { began := world.now })
    (resumed : world.suspended call = none)
    (unlocked : ∀ other, other ≠ call → world.transaction other = none) :
    ∃ after, event.conclude.eval call world = some (.ok .applied, after) ∧
      after.rows = world.rows.map (event.revise world.now) ∧
      after.database.transitions = world.database.transitions ++ event.audit world ∧
      after.database.webhookEvents = world.database.webhookEvents := by
  cases updates : event.update with
  | none =>
      rcases execute_commit opened rfl with ⟨after, committing, rows, transitions, seen⟩
      refine ⟨after, ?_, ?_, ?_, seen⟩
      · simp only [WebhookEvent.conclude, updates, Action.eval_sql_ok committing,
          Action.eval_pure]
      · have revise : event.revise world.now = id := by
          funext row
          simp only [WebhookEvent.revise, updates, id]
        rw [rows, revise, List.map_id]
        rfl
      · rw [transitions, WebhookEvent.audit, updates]
  | some update =>
      rcases update with ⟨update, reason⟩
      rcases execute_applyMoved opened resumed unlocked updates with
        ⟨applied, transaction, applying, held, writes, audits, refunds, transitions, seen⟩
      rcases WebhookEvent.decision_of_update updates with ⟨_, decides⟩
      rcases world.database.refunds.write_decided decides world.now with ⟨table, written, rows⟩
      have writes' : transaction.refundWrites.foldlM RefundTable.write
          applied.database.refunds = .ok table := by
        rw [writes, refunds]
        exact written
      rcases execute_commit held writes' with ⟨after, committing, rows', transitions', seen'⟩
      refine ⟨after, ?_, ?_, ?_, seen'.trans seen⟩
      · simp only [WebhookEvent.conclude, updates, Action.eval_sql_ok applying,
          Action.eval_sql_ok committing, Action.eval_pure]
      · have revise : event.revise world.now = (update.change world.now).apply := by
          funext row
          simp only [WebhookEvent.revise, updates]
        rw [rows', rows, revise]
        rfl
      · rw [transitions', transitions, audits]

/-- A first delivery applies the event. -/
theorem handleWebhook_eval (unlocked : ∀ call, world.transaction call = none)
    (signed : verifySignature hmac rawBody sig secret = true)
    (unseen : event.id ∉ world.database.webhookEvents) (call : CallId) :
    ∃ after, (handleWebhook hmac event rawBody sig secret).eval call world =
        some (.ok .applied, after) ∧
      after.rows = world.rows.map (event.revise world.now) ∧
      after.database.transitions = world.database.transitions ++ event.audit world ∧
      after.database.webhookEvents = world.database.webhookEvents ++ [event.id] := by
  let inserted : World :=
    { world with
      database :=
        { world.database with
          webhookEvents := world.database.webhookEvents ++ [event.id] } }
  have started : world.execute call (.insertWebhookEvent event.id) =
      some (.ok (some event.id), inserted) := by
    simp only [World.execute, World.insertWebhookEvent, if_neg unseen, inserted]
  have begun : inserted.execute call .begin = some (.ok (), inserted.begin call) := rfl
  have opened : (inserted.begin call).transaction call = some { began := inserted.now } :=
    World.transaction_setTransaction_self _ _ _
  have others : ∀ other, other ≠ call → (inserted.begin call).transaction other = none := by
    intro other different
    rw [World.begin, World.transaction_setTransaction_of_ne _ _ different]
    exact unlocked other
  have resumed : (inserted.begin call).suspended call = none :=
    World.suspended_setTransaction_self _ _ _
  rcases conclude_eval opened resumed others with
    ⟨after, evaluates, rows, transitions, seen⟩
  refine ⟨after, ?_, rows, transitions, seen⟩
  have verified : ¬verifySignature hmac rawBody sig secret = false := by simp [signed]
  have fresh : ¬some event.id = none := Option.some_ne_none _
  simp only [handleWebhook_eq, if_neg verified, Action.eval_sql_ok started, if_neg fresh,
    Action.eval_sql_ok begun]
  exact evaluates

/-- A later delivery does nothing. -/
theorem handleWebhook_eval_seen (signed : verifySignature hmac rawBody sig secret = true)
    (seen : event.id ∈ world.database.webhookEvents) (call : CallId) :
    (handleWebhook hmac event rawBody sig secret).eval call world =
      some (.ok .duplicate, world) := by
  have inserted : world.execute call (.insertWebhookEvent event.id) = some (.ok none, world) := by
    simp only [World.execute, World.insertWebhookEvent, if_pos seen]
  simp [handleWebhook, signed, Action.eval_sql_ok inserted]

end Delivery

/-! ## Where a delivery can stop -/

section Stop

variable {hmac : Hmac} {call : CallId} {operation : Operation} {world : World}
variable {event : WebhookEvent} {rawBody secret : Bytes} {sig : String}

/-- The call's statement that inserts the event id has been executed. -/
def InsertedId (call : CallId) (operation : Operation) (event : WebhookEvent)
    (trace : List EngineEvent) : Prop :=
  ∃ answer, Answered call operation trace (.sql (.insertWebhookEvent event.id)) answer

/-- The call has committed. -/
def Committed (call : CallId) (operation : Operation) (trace : List EngineEvent) : Prop :=
  Answered call operation trace (.sql .commit) (.ok ())

/-- The event id is used up and nothing else has happened. -/
structure Consumed (call : CallId) (operation : Operation) (event : WebhookEvent)
    (world : World) (events : List EngineEvent) (after : World) : Prop where
  unseen : event.id ∉ world.database.webhookEvents
  inserted : InsertedId call operation event events
  uncommitted : ¬Committed call operation events
  seen : event.id ∈ after.database.webhookEvents
  rows : after.rows = world.rows
  transitions : after.database.transitions = world.database.transitions

/-- What a delivery to `world` can leave behind wherever it stops. -/
inductive LeftBehind (call : CallId) (operation : Operation) (event : WebhookEvent)
    (world : World) : List EngineEvent → World → Prop where
  | untouched {events : List EngineEvent} (early : ¬InsertedId call operation event events) :
      LeftBehind call operation event world events world
  | duplicate {events : List EngineEvent}
      (seen : event.id ∈ world.database.webhookEvents) :
      LeftBehind call operation event world events world
  | consumed {events : List EngineEvent} {after : World}
      (consumed : Consumed call operation event world events after) :
      LeftBehind call operation event world events after
  | applied {events : List EngineEvent} {after : World}
      (unseen : event.id ∉ world.database.webhookEvents)
      (committed : Committed call operation events)
      (seen : event.id ∈ after.database.webhookEvents)
      (rows : after.rows = world.rows.map (event.revise world.now))
      (transitions : after.database.transitions =
        world.database.transitions ++ event.audit world) :
      LeftBehind call operation event world events after

theorem Consumed.step {events : List EngineEvent} {before after : World} {latest : EngineEvent}
    (consumed : Consumed call operation event world events before)
    (refunds : after.database.refunds = before.database.refunds)
    (transitions : after.database.transitions = before.database.transitions)
    (seen : after.database.webhookEvents = before.database.webhookEvents)
    (other : ∀ at', latest ≠ .answered call operation (.sql .commit) (.ok ()) at') :
    Consumed call operation event world (latest :: events) after where
  unseen := consumed.unseen
  inserted := by
    rcases consumed.inserted with ⟨answer, answered⟩
    exact ⟨answer, answered.cons latest⟩
  uncommitted := by
    intro committed
    rcases committed with ⟨before, member⟩
    rcases List.mem_cons.mp member with same | earlier
    · exact other before same.symm
    · exact consumed.uncommitted ⟨before, earlier⟩
  seen := by
    rw [seen]
    exact consumed.seen
  rows := (congrArg RefundTable.rows refunds).trans consumed.rows
  transitions := transitions.trans consumed.transitions

/-- An action withstands what a delivery can leave behind. -/
abbrev Stops {α : Type} (hmac : Hmac) (call : CallId) (operation : Operation)
    (crash : List EngineEvent → World → Prop)
    (post : Except RefundError α → List EngineEvent → World → Prop) (action : Action α)
    (events : List EngineEvent) (world : World) : Prop :=
  (engine hmac).Withstands call operation crash post action.run events world

/-- A statement, and what follows when it succeeds; when it does not, the action ends. -/
theorem stops_sql {α : Type} {crash : List EngineEvent → World → Prop}
    {statement : Statement} {continuation : statement.Value → Action α}
    {events : List EngineEvent} (here : crash events world)
    (failed : crash (.failed call operation (.sql statement) :: events) world)
    (errors : ∀ error after, world.execute call statement = some (.error error, after) →
      crash (.answered call operation (.sql statement) (.error error) world :: events) after)
    (rest : ∀ value after, world.execute call statement = some (.ok value, after) →
      Stops hmac call operation crash (fun _ => crash) (continuation value)
        (.answered call operation (.sql statement) (.ok value) world :: events) after) :
    Stops hmac call operation crash (fun _ => crash) (Action.sql statement >>= continuation)
      events world := by
  apply Machine.Withstands.bind
  constructor
  · exact here
  · constructor
    · intro answer after executed
      cases answer with
      | ok value => exact rest value after executed
      | error error => exact errors error after executed
    · intro answer fails
      cases fails
      exact failed

theorem tables_of_applyMoved {update : RefundUpdate} {reason : Option String}
    {answer : Except DbError Unit} {after : World}
    (executed : world.execute call (.applyMoved update reason) = some (answer, after)) :
    after.database.refunds = world.database.refunds ∧
      after.database.transitions = world.database.transitions ∧
      after.database.webhookEvents = world.database.webhookEvents := by
  simp only [World.execute, World.applyMoved, World.inTransaction] at executed
  split at executed
  · split at executed
    · cases executed
    · cases executed
      exact ⟨rfl, rfl, rfl⟩
  · cases executed
    exact ⟨rfl, rfl, rfl⟩

theorem tables_of_failed_commit {error : DbError} {after : World}
    (executed : world.execute call .commit = some (.error error, after)) :
    after.database = world.database := by
  simp only [World.execute, World.commit, World.inTransaction] at executed
  split at executed
  · split at executed
    · cases executed
    · cases executed
      rfl
  · cases executed
    rfl

section Handler

variable (unlocked : ∀ call, world.transaction call = none)
variable (signed : verifySignature hmac rawBody sig secret = true)

include unlocked signed

theorem commit_stops {events : List EngineEvent} {before : World}
    (consumed : Consumed call operation event world events before)
    (progress : (handleWebhook hmac event rawBody sig secret).eval call world =
      (Action.sql .commit >>= fun _ => pure WebhookResult.applied : Action _).eval call before) :
    Stops hmac call operation (LeftBehind call operation event world)
      (fun _ => LeftBehind call operation event world)
      (Action.sql .commit >>= fun _ => pure WebhookResult.applied) events before := by
  apply stops_sql
  · exact .consumed consumed
  · exact .consumed (consumed.step rfl rfl rfl (by simp))
  · intro error after executed
    have same := tables_of_failed_commit executed
    exact .consumed (consumed.step (by rw [same]) (by rw [same]) (by rw [same]) (by simp))
  · intro value after executed
    rw [Action.eval_sql_ok executed, Action.eval_pure] at progress
    rcases handleWebhook_eval unlocked signed consumed.unseen call with
      ⟨after', evaluates, rows, transitions, seen⟩
    rw [progress, Option.some.injEq, Prod.mk.injEq] at evaluates
    rcases evaluates with ⟨_, rfl⟩
    apply LeftBehind.applied consumed.unseen .head ?_ rows transitions
    rw [seen]
    exact List.mem_append_right _ (List.mem_singleton_self _)

theorem applyMoved_stops {events : List EngineEvent} {before : World} {update : RefundUpdate}
    {reason : Option String}
    (consumed : Consumed call operation event world events before)
    (progress : (handleWebhook hmac event rawBody sig secret).eval call world =
      (Action.sql (.applyMoved update reason) >>= fun _ => Action.sql .commit >>= fun _ =>
        pure WebhookResult.applied : Action _).eval call before) :
    Stops hmac call operation (LeftBehind call operation event world)
      (fun _ => LeftBehind call operation event world)
      (Action.sql (.applyMoved update reason) >>= fun _ => Action.sql .commit >>= fun _ =>
        pure WebhookResult.applied) events before := by
  apply stops_sql
  · exact .consumed consumed
  · exact .consumed (consumed.step rfl rfl rfl (by simp))
  · intro error after executed
    rcases tables_of_applyMoved executed with ⟨refunds, transitions, seen⟩
    exact .consumed (consumed.step refunds transitions seen (by simp))
  · intro value after executed
    rcases tables_of_applyMoved executed with ⟨refunds, transitions, seen⟩
    rw [Action.eval_sql_ok executed] at progress
    exact commit_stops unlocked signed (consumed.step refunds transitions seen (by simp)) progress

theorem conclude_stops {events : List EngineEvent} {before : World}
    (consumed : Consumed call operation event world events before)
    (progress : (handleWebhook hmac event rawBody sig secret).eval call world =
      event.conclude.eval call before) :
    Stops hmac call operation (LeftBehind call operation event world)
      (fun _ => LeftBehind call operation event world) event.conclude events before := by
  rw [WebhookEvent.conclude] at progress ⊢
  cases updates : event.update with
  | none =>
      rw [updates] at progress
      exact commit_stops unlocked signed consumed progress
  | some update =>
      rw [updates] at progress
      exact applyMoved_stops unlocked signed consumed progress

/-- Wherever the handler stops, it leaves behind one of the four. -/
theorem handleWebhook_stops :
    Stops hmac call operation (LeftBehind call operation event world)
      (fun _ => LeftBehind call operation event world)
      (handleWebhook hmac event rawBody sig secret) [.started call operation] world := by
  have verified : ¬verifySignature hmac rawBody sig secret = false := by simp [signed]
  have progress := Eq.refl ((handleWebhook hmac event rawBody sig secret).eval call world)
  conv at progress => rhs; simp only [handleWebhook_eq, if_neg verified]
  simp only [handleWebhook_eq, if_neg verified]
  apply stops_sql
  · exact .untouched (by simp [InsertedId, Answered])
  · exact .untouched (by simp [InsertedId, Answered])
  · intro error after executed
    cases executed
  · intro value after executed
    rw [Action.eval_sql_ok executed] at progress
    simp only [World.execute, World.insertWebhookEvent] at executed
    split at executed
    · rename_i seen
      cases executed
      exact .duplicate seen
    · rename_i unseen
      cases executed
      have fresh : ¬some event.id = none := Option.some_ne_none _
      simp only [if_neg fresh] at progress ⊢
      have consumed : Consumed call operation event world
          [.answered call operation (.sql (.insertWebhookEvent event.id)) (.ok (some event.id))
            world, .started call operation]
          { world with
            database :=
              { world.database with
                webhookEvents := world.database.webhookEvents ++ [event.id] } } :=
        { unseen := unseen
          inserted := ⟨_, .head⟩
          uncommitted := by simp [Committed, Answered]
          seen := by simp
          rows := rfl
          transitions := rfl }
      apply stops_sql
      · exact .consumed consumed
      · exact .consumed (consumed.step rfl rfl rfl (by simp))
      · intro error after executed
        cases executed
      · intro _ after executed
        rw [Action.eval_sql_ok executed] at progress
        cases executed
        exact conclude_stops unlocked signed (consumed.step rfl rfl rfl (by simp)) progress

end Handler

end Stop

/-! ## Delivering again -/

section Redelivery

variable {hmac : Hmac} {event : WebhookEvent} {rawBody secret : Bytes} {sig : String}
variable {state final : EngineState} {trace : List EngineEvent} {call : CallId}
variable {result : Except RefundError Reply}

/-- What a whole delivery does to the tables. -/
structure Delivered (event : WebhookEvent) (state final : EngineState) : Prop where
  seen : event.id ∈ state.world.database.webhookEvents →
    final.world.rows = state.world.rows ∧
      final.world.database.transitions = state.world.database.transitions
  unseen : event.id ∉ state.world.database.webhookEvents →
    (∀ call, state.world.transaction call = none) →
    final.world.rows = state.world.rows.map (event.revise state.world.now) ∧
      final.world.database.transitions =
        state.world.database.transitions ++ event.audit state.world

theorem tables_of_delivery (signed : verifySignature hmac rawBody sig secret = true)
    (idle : state.calls call = .idle)
    (run : (engine hmac).Run (Machine.Alone call (.handleWebhook event rawBody sig secret)) state
      trace final)
    (finished : final.calls call = .finished (.handleWebhook event rawBody sig secret) result) :
    Delivered event state final := by
  rcases run.eval_of_alone idle finished with ⟨reached, evaluates, closed⟩
  have tables : ∀ {reply : WebhookResult} {after : World},
      (handleWebhook hmac event rawBody sig secret).eval call state.world =
        some (.ok reply, after) →
      final.world.rows = after.rows ∧
        final.world.database.transitions = after.database.transitions := by
    intro reply after delivers
    have mapped : ((engine hmac).program (.handleWebhook event rawBody sig secret)).eval
        ((engine hmac).execute call) state.world = some (.ok (.webhook reply), after) :=
      Action.eval_map_ok delivers
    rw [mapped, Option.some.injEq, Prod.mk.injEq] at evaluates
    rw [closed, ← evaluates.2]
    exact ⟨rfl, rfl⟩
  constructor
  · intro seen
    exact tables (handleWebhook_eval_seen signed seen call)
  · intro unseen unlocked
    rcases handleWebhook_eval unlocked signed unseen call with
      ⟨after, delivers, rows, transitions, _⟩
    rcases tables delivers with ⟨sameRows, sameTransitions⟩
    exact ⟨sameRows.trans rows, sameTransitions.trans transitions⟩

theorem audit_eq_nil (world : World) : event.audit world = [] ↔ event.Unmatched world := by
  rw [WebhookEvent.audit, WebhookEvent.Unmatched]
  cases updates : event.update with
  | none => simp
  | some decided =>
      rcases decided with ⟨update, reason⟩
      constructor
      · intro none update' reason' same row member applies
        cases same
        simp only [List.mapIdx_eq_nil_iff, List.filter_eq_nil_iff] at none
        exact none row member (decide_eq_true applies)
      · intro unmatched
        simp only [List.mapIdx_eq_nil_iff, List.filter_eq_nil_iff]
        intro row member applies
        exact unmatched update reason rfl row member (of_decide_eq_true applies)

theorem revise_of_unmatched {world : World} (unmatched : event.Unmatched world) :
    world.rows.map (event.revise world.now) = world.rows := by
  have same : ∀ row ∈ world.rows, event.revise world.now row = row := by
    intro row member
    rw [WebhookEvent.revise]
    cases updates : event.update with
    | none => rfl
    | some decided => exact if_neg (unmatched _ _ updates row member)
  exact (List.map_congr_left same).trans (List.map_id _)

/-- A delivery that does not match any row, and no other, leaves the tables alone. -/
theorem unchanged_iff_unmatched {world : World} :
    (world.rows = world.rows.map (event.revise world.now) ∧
      world.database.transitions = world.database.transitions ++ event.audit world) ↔
    event.Unmatched world := by
  rw [List.self_eq_append_right, audit_eq_nil]
  constructor
  · intro unchanged
    exact unchanged.2
  · intro unmatched
    exact ⟨(revise_of_unmatched unmatched).symm, unmatched⟩

theorem answered_of_ends {operation : Operation} {events : List EngineEvent}
    {last : EngineEvent} (ends : last.ends = true) {command : Command}
    {answer : command.Answer}
    (answered : Answered call operation (last :: events) command answer) :
    Answered call operation events command answer := by
  rcases answered with ⟨before, member⟩
  rcases List.mem_cons.mp member with same | earlier
  · rw [← same] at ends
    cases ends
  · exact ⟨before, earlier⟩

/-- What a delivery that ran by itself and has ended left behind. -/
theorem leftBehind_of_run (signed : verifySignature hmac rawBody sig secret = true)
    (unlocked : ∀ call, state.world.transaction call = none)
    (idle : state.calls call = .idle)
    (run : (engine hmac).Run (Machine.Only call (.handleWebhook event rawBody sig secret)) state
      trace final)
    (started : final.calls call ≠ .idle) (ended : ¬(final.calls call).InProgress) :
    ∃ after, LeftBehind call (.handleWebhook event rawBody sig secret) event state.world trace
        after ∧
      final.world = after.endTransaction call := by
  have withstands : (engine hmac).Withstands call (.handleWebhook event rawBody sig secret)
      (LeftBehind call (.handleWebhook event rawBody sig secret) event state.world)
      (fun _ => LeftBehind call (.handleWebhook event rawBody sig secret) event state.world)
      ((engine hmac).program (.handleWebhook event rawBody sig secret))
      [.started call (.handleWebhook event rawBody sig secret)] state.world := by
    apply Machine.Withstands.bind
    apply (handleWebhook_stops unlocked signed).mono
    intro result events world left
    cases result with
    | ok value => exact left
    | error error => exact left
  rcases run.stopped idle withstands started ended with
    ⟨last, events, after, rfl, ends, left, closed⟩
  refine ⟨after, ?_, closed⟩
  cases left with
  | untouched early =>
      apply LeftBehind.untouched
      intro inserted
      rcases inserted with ⟨answer, answered⟩
      exact early ⟨answer, answered_of_ends ends answered⟩
  | duplicate seen => exact .duplicate seen
  | consumed consumed =>
      apply LeftBehind.consumed
      apply consumed.step rfl rfl rfl
      intro at' isCommit
      rw [isCommit] at ends
      cases ends
  | applied unseen committed seen rows transitions =>
      exact .applied unseen (committed.cons last) seen rows transitions

/-- A delivery that ended short of success in a state at rest, a later one that succeeded
with nothing in between, and one from the first state that was not interrupted. -/
structure Redelivery (hmac : Hmac) (delivery : Operation) (call : CallId) (state : EngineState)
    (trace : List EngineEvent) (stopped final reference : EngineState) : Prop where
  unlocked : ∀ call, state.world.transaction call = none
  idle : state.calls call = .idle
  interrupted : (engine hmac).Run (Machine.Only call delivery) state trace stopped
  short : stopped.calls call = .dead delivery ∨
    ∃ error, stopped.calls call = .finished delivery (.error error)
  retried : ∃ again more reply, stopped.calls again = .idle ∧
    (engine hmac).Run (Machine.Alone again delivery) stopped more final ∧
    final.calls again = .finished delivery (.ok reply)
  delivered : ∃ once whole reply, state.calls once = .idle ∧
    (engine hmac).Run (Machine.Alone once delivery) state whole reference ∧
    reference.calls once = .finished delivery (.ok reply)

namespace Redelivery

variable {stopped reference : EngineState}

theorem leftBehind (signed : verifySignature hmac rawBody sig secret = true)
    (redelivery : Redelivery hmac (.handleWebhook event rawBody sig secret) call state trace
      stopped final reference) :
    ∃ after, LeftBehind call (.handleWebhook event rawBody sig secret) event state.world trace
        after ∧
      stopped.world = after.endTransaction call := by
  apply leftBehind_of_run signed redelivery.unlocked redelivery.idle redelivery.interrupted
  · intro idle
    rcases redelivery.short with dead | ⟨error, finished⟩
    · cases dead.symm.trans idle
    · cases finished.symm.trans idle
  · rcases redelivery.short with dead | ⟨error, finished⟩
    · rw [dead]
      exact id
    · rw [finished]
      exact id

theorem tables_final (signed : verifySignature hmac rawBody sig secret = true)
    (redelivery : Redelivery hmac (.handleWebhook event rawBody sig secret) call state trace
      stopped final reference) : Delivered event stopped final := by
  rcases redelivery.retried with ⟨_, _, _, idle, run, finished⟩
  exact tables_of_delivery signed idle run finished

theorem tables_reference (signed : verifySignature hmac rawBody sig secret = true)
    (redelivery : Redelivery hmac (.handleWebhook event rawBody sig secret) call state trace
      stopped final reference) : Delivered event state reference := by
  rcases redelivery.delivered with ⟨_, _, _, idle, run, finished⟩
  exact tables_of_delivery signed idle run finished

end Redelivery

/-- For every database at rest, every signed event and every way its delivery can end short
of success: delivering the event again leaves the refunds and their audit rows as one
uninterrupted delivery would, exactly when the event had been seen before, or no row
matches it, or the interrupted delivery had not inserted the event id, or had committed. -/
theorem redelivery_iff {stopped reference : EngineState}
    (signed : verifySignature hmac rawBody sig secret = true)
    (redelivery : Redelivery hmac (.handleWebhook event rawBody sig secret) call state trace
      stopped final reference) :
    (final.world.rows = reference.world.rows ∧
      final.world.database.transitions = reference.world.database.transitions) ↔
    event.id ∈ state.world.database.webhookEvents ∨ event.Unmatched state.world ∨
      ¬InsertedId call (.handleWebhook event rawBody sig secret) event trace ∨
      Committed call (.handleWebhook event rawBody sig secret) trace := by
  rcases redelivery.leftBehind signed with ⟨after, left, closed⟩
  have unlocked := redelivery.unlocked
  rcases redelivery.tables_final signed with ⟨againSeen, againUnseen⟩
  rcases redelivery.tables_reference signed with ⟨onceSeen, onceUnseen⟩
  rw [closed] at againSeen againUnseen
  cases left with
  | untouched early =>
      have same : final.world.rows = reference.world.rows ∧
          final.world.database.transitions = reference.world.database.transitions := by
        by_cases seen : event.id ∈ state.world.database.webhookEvents
        · rw [(againSeen seen).1, (againSeen seen).2, (onceSeen seen).1, (onceSeen seen).2]
          exact ⟨rfl, rfl⟩
        · have again := againUnseen seen (World.unlocked_endTransaction unlocked)
          rw [again.1, again.2, (onceUnseen seen unlocked).1, (onceUnseen seen unlocked).2]
          exact ⟨rfl, rfl⟩
      exact iff_of_true same (.inr (.inr (.inl early)))
  | duplicate seen =>
      have same : final.world.rows = reference.world.rows ∧
          final.world.database.transitions = reference.world.database.transitions := by
        rw [(againSeen seen).1, (againSeen seen).2, (onceSeen seen).1, (onceSeen seen).2]
        exact ⟨rfl, rfl⟩
      exact iff_of_true same (.inl seen)
  | consumed consumed =>
      -- The second delivery does nothing, so nothing must have been left to do.
      rcases againSeen consumed.seen with ⟨rows, transitions⟩
      rcases onceUnseen consumed.unseen unlocked with ⟨rows', transitions'⟩
      have rows'' : final.world.rows = state.world.rows := rows.trans consumed.rows
      have transitions'' : final.world.database.transitions = state.world.database.transitions :=
        transitions.trans consumed.transitions
      rw [rows'', transitions'', rows', transitions', unchanged_iff_unmatched]
      constructor
      · intro unmatched
        exact .inr (.inl unmatched)
      · intro condition
        rcases condition with seen | unmatched | early | committed
        · exact (consumed.unseen seen).elim
        · exact unmatched
        · exact (early consumed.inserted).elim
        · exact (consumed.uncommitted committed).elim
  | applied unseen committed seen rows transitions =>
      have same : final.world.rows = reference.world.rows ∧
          final.world.database.transitions = reference.world.database.transitions := by
        rcases againSeen seen with ⟨sameRows, sameTransitions⟩
        rw [sameRows, sameTransitions, (onceUnseen unseen unlocked).1,
          (onceUnseen unseen unlocked).2]
        exact ⟨rows, transitions⟩
      exact iff_of_true same (.inr (.inr (.inr committed)))

end Redelivery

/-- The settlement of the sample. -/
def sampleDelivery : Operation :=
  .handleWebhook sampleEvent [] (sign sampleHmac [] []) []

/-- The sample before its settlement arrives. -/
def sampleUnsettled : List EngineEvent × EngineState :=
  (samplePrefix (sampleLabels.length - 6)).get (by decide +kernel)

theorem sampleUnsettled_run : EngineRun sampleHmac sampleUnsettled.1 sampleUnsettled.2 :=
  .of_play (Option.some_get _).symm

theorem sampleUnsettled_unlocked (call : CallId) :
    sampleUnsettled.2.world.transaction call = none :=
  sampleUnsettled_run.unlocked (sampleUnsettled_run.quiet_of_ended (by decide +kernel)) call

/-- The delivery dies after it has inserted the event id. -/
def diedInBetween : List EngineEvent × EngineState :=
  ((engine sampleHmac).play (Machine.Only 5 sampleDelivery)
    [.start 5 sampleDelivery, .execute 5, .die 5] ([], sampleUnsettled.2)).get
    (by decide +kernel)

/-- The event is delivered again. -/
def deliveredAgain : List EngineEvent × EngineState :=
  ((engine sampleHmac).play (Machine.Alone 6 sampleDelivery) (uninterrupted 6 sampleDelivery 1)
    ([], diedInBetween.2)).get (by decide +kernel)

/-- The event is delivered without interruption. -/
def deliveredOnce : List EngineEvent × EngineState :=
  ((engine sampleHmac).play (Machine.Alone 5 sampleDelivery) (uninterrupted 5 sampleDelivery 4)
    ([], sampleUnsettled.2)).get (by decide +kernel)

theorem redelivery_diedInBetween :
    Redelivery sampleHmac sampleDelivery 5 sampleUnsettled.2 diedInBetween.1 diedInBetween.2
      deliveredAgain.2 deliveredOnce.2 := by
  have idle : ∀ call, call ∉ sampleUnsettled.1.filterMap Interleaving.Event.caller →
      sampleUnsettled.2.calls call = .idle := fun _ => sampleUnsettled_run.idle_of_absent
  have interrupted : (engine sampleHmac).Run (Machine.Only 5 sampleDelivery) sampleUnsettled.2
      diedInBetween.1 diedInBetween.2 := Machine.play_run .nil (Option.some_get _).symm
  have retry : (engine sampleHmac).Run (Machine.Alone 6 sampleDelivery) diedInBetween.2
      deliveredAgain.1 deliveredAgain.2 := Machine.play_run .nil (Option.some_get _).symm
  have whole : (engine sampleHmac).Run (Machine.Alone 5 sampleDelivery) sampleUnsettled.2
      deliveredOnce.1 deliveredOnce.2 := Machine.play_run .nil (Option.some_get _).symm
  have died : ∃ event ∈ diedInBetween.1, event.ending = some (5, sampleDelivery, none) := by
    decide +kernel
  have retried : ∃ event ∈ deliveredAgain.1,
      event.ending = some (6, sampleDelivery, some (.ok (.webhook .duplicate))) := by
    decide +kernel
  have delivered : ∃ event ∈ deliveredOnce.1,
      event.ending = some (5, sampleDelivery, some (.ok (.webhook .applied))) := by
    decide +kernel
  rcases died with ⟨_, diedIn, died⟩
  rcases retried with ⟨_, retriedIn, retried⟩
  rcases delivered with ⟨_, deliveredIn, delivered⟩
  exact
    { unlocked := sampleUnsettled_unlocked
      idle := idle 5 (by decide +kernel)
      interrupted := interrupted
      short := .inl (interrupted.calls_of_ending diedIn died)
      retried := ⟨6, _, _, interrupted.idle_of_no_events (idle 6 (by decide +kernel))
        (by decide +kernel), retry, retry.calls_of_ending retriedIn retried⟩
      delivered := ⟨5, _, _, idle 5 (by decide +kernel), whole,
        whole.calls_of_ending deliveredIn delivered⟩ }

theorem redelivery_iff_diedInBetween :
    (deliveredAgain.2.world.rows = deliveredOnce.2.world.rows ∧
      deliveredAgain.2.world.database.transitions =
        deliveredOnce.2.world.database.transitions) ↔
    sampleEvent.id ∈ sampleUnsettled.2.world.database.webhookEvents ∨
      sampleEvent.Unmatched sampleUnsettled.2.world ∨
      ¬InsertedId 5 sampleDelivery sampleEvent diedInBetween.1 ∨
      Committed 5 sampleDelivery diedInBetween.1 :=
  redelivery_iff (verifySignature_sign ..) redelivery_diedInBetween

/-- The event of the sample is used up, and the refund stays unsettled. -/
theorem redelivery_loses_event :
    ¬∀ (hmac : Hmac) (event : WebhookEvent) (rawBody secret : Bytes) (sig : String)
      (call : CallId) (trace : List EngineEvent) (state stopped final reference : EngineState),
      verifySignature hmac rawBody sig secret = true →
      Redelivery hmac (.handleWebhook event rawBody sig secret) call state trace stopped final
        reference →
      final.world.rows = reference.world.rows ∧
        final.world.database.transitions = reference.world.database.transitions := by
  intro same
  have rows := (same _ _ _ _ _ _ _ _ _ _ _ (verifySignature_sign sampleHmac [] [])
    redelivery_diedInBetween).1
  revert rows
  decide +kernel

end RefundEngine
