import RefundEngine.Issued

/-!
# Waiting calls

A statement has to wait while another call's open transaction holds what it needs: the
locked charge, a row it would update, or a refund inserted under the same identifier.
What an open transaction has written decides what its call can still wait for, so calls
never wait for each other in a circle, and every call comes to an end.
-/

namespace RefundEngine

open Interleaving (CallId Machine Program own)

/-- The open transaction holds what the command needs. -/
def Transaction.Blocks (transaction : Transaction) (world : World) : Command → Prop
  | .sql (.updateRefunds update) | .sql (.applyMoved update _) =>
      ∃ row ∈ world.rows, update.Applies row ∧ row.id ∈ transaction.lockedRows
  | .sql (.lockCharge id) => transaction.chargeLock = some id
  | .sql (.insertRefund new) => new.id ∈ transaction.insertedRows
  | _ => False

/-- The next command of the call has to wait, for something the other's transaction holds. -/
def WaitsFor (state : EngineState) (call other : CallId) : Prop :=
  ∃ operation command next transaction,
    state.calls call = .running operation (.call command next) ∧
    command.execute call state.world = none ∧ other ≠ call ∧
    state.world.transaction other = some transaction ∧
    transaction.Blocks state.world command

/-- A transaction that has written waits for nothing, and one that holds a charge only for
one that has written. -/
def Transaction.height (transaction : Transaction) : Nat :=
  if transaction.refundWrites ≠ [] then 0 else if transaction.chargeLock ≠ none then 1 else 2

/-- How far a call may be from one that need not wait. -/
def World.waitHeight (world : World) (call : CallId) : Nat :=
  (world.transaction call).elim 2 Transaction.height

section Blocks

variable {world : World} {call : CallId} {command : Command} {transaction : Transaction}

/-- A command that cannot be executed is blocked by an open transaction: another's, unless it
is an update outside of one. -/
theorem blocked_of_execute (waits : command.execute call world = none) :
    ∃ other transaction, world.transaction other = some transaction ∧
      transaction.Blocks world command ∧
      (other ≠ call ∨ ∃ update, command = .sql (.updateRefunds update)) := by
  cases command with
  | createRefund | lookupByKey => cases waits
  | sql statement =>
      cases statement with
      | getRefund | recordTransition | selectStuck | selectAmount | insertWebhookEvent
      | selectSettled | begin | rollback => cases waits
      | sumRefunds | insertTransition | commit =>
          simp only [Command.execute, World.execute, World.sumRefunds, World.insertTransition,
            World.commit, World.inTransaction] at waits
          repeat' split at waits
          all_goals cases waits
      | updateRefunds update =>
          simp only [Command.execute, World.execute, World.updateRefunds] at waits
          split at waits
          · rename_i blocked
            rcases blocked with ⟨row, member, applies, held⟩
            rcases World.otherTransaction_iff.mp held with
              ⟨other, transaction, _, opened, locked⟩
            exact ⟨other, transaction, opened, ⟨row, member, applies, locked⟩, .inr ⟨_, rfl⟩⟩
          · split at waits <;> cases waits
      | applyMoved update reason =>
          simp only [Command.execute, World.execute, World.applyMoved, World.inTransaction]
            at waits
          split at waits
          · split at waits
            · rename_i blocked
              rcases blocked with ⟨row, member, applies, held⟩
              rcases World.otherTransaction_iff.mp held with
                ⟨other, transaction, different, opened, locked⟩
              exact ⟨other, transaction, opened, ⟨row, member, applies, locked⟩,
                .inl fun same => different (congrArg some same.symm)⟩
            · cases waits
          · cases waits
      | lockCharge id =>
          simp only [Command.execute, World.execute, World.lockCharge, World.inTransaction]
            at waits
          split at waits
          · split at waits
            · cases waits
            · split at waits
              · rename_i held
                rcases World.otherTransaction_iff.mp held with
                  ⟨other, transaction, different, opened, locked⟩
                exact ⟨other, transaction, opened, locked,
                  .inl fun same => different (congrArg some same.symm)⟩
              · cases waits
          · cases waits
      | insertRefund new =>
          simp only [Command.execute, World.execute, World.insertRefund, World.inTransaction]
            at waits
          split at waits
          · split at waits
            · rename_i held
              rcases World.otherTransaction_iff.mp held with
                ⟨other, transaction, different, opened, inserted⟩
              exact ⟨other, transaction, opened, inserted,
                .inl fun same => different (congrArg some same.symm)⟩
            · repeat' split at waits
              all_goals cases waits
          · cases waits

theorem Transaction.height_of_written {write : RefundWrite}
    (written : write ∈ transaction.refundWrites) : transaction.height = 0 := by
  rw [Transaction.height, if_pos (List.ne_nil_of_mem written)]

theorem Transaction.height_of_locked {id : Uuid} (locked : id ∈ transaction.lockedRows) :
    transaction.height = 0 := by
  rcases List.mem_filterMap.mp locked with ⟨write, member, _⟩
  exact height_of_written member

theorem Transaction.height_of_inserted {id : Uuid} (inserted : id ∈ transaction.insertedRows) :
    transaction.height = 0 := by
  rcases List.mem_filterMap.mp inserted with ⟨write, member, _⟩
  exact height_of_written member

theorem Transaction.height_of_chargeLock {id : Uuid}
    (locked : transaction.chargeLock = some id) : transaction.height ≤ 1 := by
  rw [Transaction.height]
  split
  · omega
  · rw [if_pos (by rw [locked]; exact nofun)]

theorem World.waitHeight_eq (opened : world.transaction call = some transaction) :
    world.waitHeight call = transaction.height := by
  rw [World.waitHeight, opened]
  rfl

end Blocks

section Run

variable {hmac : Hmac} {trace : List EngineEvent} {state : EngineState}
variable {call other : CallId} {operation : Operation} {command : Command}
variable {next : command.Answer → Program Command.Answer (Except RefundError Reply)}

theorem EngineRun.licensed_next {statement : Statement}
    {next : Except DbError statement.Value →
      Program Command.Answer (Except RefundError Reply)}
    (run : EngineRun hmac trace state)
    (stands : state.calls call = .running operation (.call (.sql statement) next)) :
    Licensed call operation (own call trace) hmac (.sql statement) :=
  run.permits (.fail stands rfl)

theorem EngineRun.closed_of_update {update : RefundUpdate}
    {next : Except DbError Unit → Program Command.Answer (Except RefundError Reply)}
    (run : EngineRun hmac trace state)
    (stands : state.calls call = .running operation (.call (.sql (.updateRefunds update)) next)) :
    state.world.transaction call = none := by
  cases opened : state.world.transaction call with
  | none => rfl
  | some transaction =>
      rcases run.opens_of_transaction opened with ⟨operation', rest, stands', transacts⟩
      cases stands.symm.trans stands'
      exact ((run.mayIssue stands).1.not_opens transacts).elim

/-- Right after `BEGIN` a call is as far as can be from one that need not wait. -/
theorem EngineRun.waitHeight_of_began {before : World} {events : List EngineEvent}
    (run : EngineRun hmac trace state)
    (began : own call trace = .answered call operation (.sql .begin) (.ok ()) before :: events) :
    state.world.waitHeight call = 2 := by
  have linked := run.recalled.linked call
  rw [began] at linked
  rw [World.waitHeight_eq (transaction_of_began linked)]
  rfl

/-- Waiting goes down: the other call has written, or it holds a charge and the waiting one
does not. -/
theorem EngineRun.lower_of_waitsFor (run : EngineRun hmac trace state)
    (waits : WaitsFor state call other) :
    state.world.waitHeight other < state.world.waitHeight call := by
  rcases waits with ⟨operation, command, next, transaction, stands, waits, _, opened, blocks⟩
  rw [World.waitHeight_eq opened]
  cases command with
  | createRefund | lookupByKey => exact blocks.elim
  | sql statement =>
      cases statement with
      | getRefund | recordTransition | selectStuck | selectAmount | insertWebhookEvent
      | selectSettled | begin | rollback | sumRefunds | insertTransition | commit =>
          exact blocks.elim
      | updateRefunds update =>
          rcases blocks with ⟨row, _, _, locked⟩
          rw [transaction.height_of_locked locked, World.waitHeight, run.closed_of_update stands]
          decide
      | applyMoved update reason =>
          rcases blocks with ⟨row, _, _, locked⟩
          rcases run.licensed_next stands with
            ⟨event, rawBody, sig, secret, seen, before, began, _, _, _, behind⟩
          rw [transaction.height_of_locked locked, run.waitHeight_of_began behind]
          decide
      | lockCharge id =>
          rcases run.licensed_next stands with ⟨before, events, behind⟩
          rw [run.waitHeight_of_began behind]
          exact Nat.lt_succ_of_le (transaction.height_of_chargeLock blocks)
      | insertRefund new =>
          have admitted : Admitted call operation (own call trace) new := run.licensed_next stands
          rw [transaction.height_of_inserted blocks]
          cases mine : state.world.transaction call with
          | none =>
              rw [World.waitHeight, mine]
              decide
          | some pending =>
              rcases (admitted.fits (run.recalled.linked call)).2 pending mine with
                ⟨unwritten, locked⟩
              rw [World.waitHeight_eq mine, Transaction.height, unwritten, locked]
              simp

/-- A call whose next command cannot be executed waits for another call in progress. -/
theorem EngineRun.waitsFor_of_waiting (run : EngineRun hmac trace state)
    (waiting : (engine hmac).Waiting state call) :
    ∃ other, WaitsFor state call other ∧ (state.calls other).InProgress := by
  rcases waiting with ⟨operation, command, next, stands, waits⟩
  rcases blocked_of_execute waits with ⟨other, transaction, opened, blocks, whose⟩
  have different : other ≠ call := by
    rcases whose with different | ⟨update, rfl⟩
    · exact different
    · rintro rfl
      cases (run.closed_of_update stands).symm.trans opened
  exact ⟨other, ⟨operation, command, next, transaction, stands, waits, different, opened, blocks⟩,
    run.inProgress_of_transaction other transaction opened⟩

/-- Some call in progress can go on, and a waiting call waits for such a one. -/
theorem EngineRun.exists_free (run : EngineRun hmac trace state)
    (inProgress : (state.calls call).InProgress) :
    ∃ other, Relation.ReflTransGen (WaitsFor state) call other ∧
      (state.calls other).InProgress ∧ ¬(engine hmac).Waiting state other := by
  refine Machine.exists_free_of_ranked state.world.waitHeight ?_ inProgress
  intro call waiting
  rcases run.waitsFor_of_waiting waiting with ⟨other, waits, inProgress⟩
  exact ⟨other, waits, inProgress, run.lower_of_waitsFor waits⟩

/-- In no reachable state do calls wait for each other in a circle, and every call in progress
can go on itself or waits, directly or through others, for one that can. -/
theorem never_deadlocked (run : EngineRun hmac trace state) :
    (∀ call, ¬Relation.TransGen (WaitsFor state) call call) ∧
    ∀ call, (state.calls call).InProgress → ∃ other event next,
      Relation.ReflTransGen (WaitsFor state) call other ∧
      (engine hmac).Step state event next ∧ event.caller = some other ∧
      Machine.Working [] event := by
  constructor
  · intro call circle
    have lower : ∀ other, Relation.TransGen (WaitsFor state) call other →
        state.world.waitHeight other < state.world.waitHeight call := by
      intro other chain
      induction chain with
      | single waits => exact run.lower_of_waitsFor waits
      | tail _ waits ih => exact (run.lower_of_waitsFor waits).trans ih
    exact lt_irrefl _ (lower call circle)
  · intro call inProgress
    rcases run.exists_free inProgress with ⟨other, chain, inProgress, free⟩
    rcases Machine.exists_working_step inProgress free with ⟨event, next, step, taken, works⟩
    exact ⟨other, event, next, chain, step, taken, works⟩

/-- A request that has locked the charge, and another one for the same charge behind it. -/
def contended : List EngineEvent × EngineState :=
  ((engine sampleHmac).play NoCancel
    [.start 0 (.requestRefund ⟨7⟩ sampleCharge.id 150000 "EUR" "alice" none), .execute 0,
      .execute 0, .start 1 (.requestRefund ⟨8⟩ sampleCharge.id 2000 "EUR" "bob" none),
      .execute 1]
    ([], initialState sampleCharges {} 10)).get (by decide +kernel)

theorem contended_run : EngineRun sampleHmac contended.1 contended.2 :=
  .of_play (Option.some_get _).symm

/-- The second request cannot lock the charge, and waits for one that can go on. -/
theorem never_deadlocked_contended :
    ((engine sampleHmac).step (.execute 1) contended.2).isNone = true ∧
      (∀ call, ¬Relation.TransGen (WaitsFor contended.2) call call) ∧
      ∀ call, (contended.2.calls call).InProgress → ∃ other event next,
        Relation.ReflTransGen (WaitsFor contended.2) call other ∧
        (engine sampleHmac).Step contended.2 event next ∧ event.caller = some other ∧
        Machine.Working [] event :=
  ⟨by decide +kernel, never_deadlocked contended_run⟩

/-! ## Every call comes to an end -/

theorem EngineRun.working {more : List EngineEvent} {final : EngineState}
    (run : EngineRun hmac trace state)
    (continued : (engine hmac).Run Machine.Working state more final) :
    EngineRun hmac (more ++ trace) final := by
  apply run.append
  apply continued.mono
  intro earlier event works
  cases event with
  | answered | finished => trivial
  | started | failed | died | acted => exact works.elim

theorem EngineRun.covers (run : EngineRun hmac trace state) :
    Machine.Covers (trace.filterMap Interleaving.Event.caller).dedup state := by
  intro call inProgress
  rw [List.mem_dedup]
  by_contra absent
  rw [run.idle_of_absent absent] at inProgress
  exact inProgress

end Run

end RefundEngine
