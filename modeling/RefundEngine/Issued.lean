import RefundEngine.AllOrNothing
import RefundEngine.Interleaving.Progress

/-!
# What operations issue

Which statements and gateway calls the program of each operation can contain, with which
parameters, whatever it is answered.  With the effect of one command on an open
transaction, this says what the transaction of a running call can hold.
-/

namespace RefundEngine

open Interleaving (CallId Machine Program own)

/-- The operations that work in a transaction; the others only run statements of their own. -/
def Operation.Opens : Operation → Prop
  | .requestRefund .. | .handleWebhook .. => True
  | .approve .. | .submitRefund .. | .recoverSubmitted | .reconcile .. => False

/-- The operations that take a refund to the gateway. -/
def Operation.Sends (refundId : Uuid) : Operation → Prop
  | .submitRefund submitted => submitted = refundId
  | .recoverSubmitted => True
  | .requestRefund .. | .approve .. | .handleWebhook .. | .reconcile .. => False

/-- The updates of refunds an operation runs outside of a transaction. -/
def Operation.Updates (operation : Operation) : RefundUpdate → Prop
  | .markRequested refundId => ∃ approver, operation = .approve refundId approver
  | .markSubmitted refundId | .recordRef refundId _ => operation.Sends refundId
  | .recoverRef _ _ => operation = .recoverSubmitted
  | .settle _ | .fail _ _ => False

/-- The audit rows an operation inserts outside of a transaction. -/
def Operation.Notes (refundId : Uuid) (fromStatus : Option Status) (toStatus : Status)
    (actor : String) : Operation → Prop
  | .approve approved approver =>
      approved = refundId ∧ fromStatus = some .pendingReview ∧ toStatus = .requested ∧
        actor = "approver:" ++ approver
  | .submitRefund submitted =>
      submitted = refundId ∧ fromStatus = some .requested ∧ toStatus = .submitted ∧
        actor = "job:submit"
  | .recoverSubmitted =>
      fromStatus ≠ none ∧ toStatus = .submitted ∧
        (actor = "job:recover" ∨ actor = "job:recover-resubmit")
  | .requestRefund .. | .handleWebhook .. | .reconcile .. => False

/-- The status a refund of some amount starts with. -/
def initialStatus (amountCents : Int64) : Status :=
  if amountCents ≥ reviewThresholdCents then .pendingReview else .requested

/-- The commands an operation can issue, with their parameters. -/
def Operation.MayIssue (operation : Operation) : Command → Prop
  | .sql .begin | .sql (.lockCharge _) | .sql (.sumRefunds _) | .sql .commit | .sql .rollback =>
      operation.Opens
  | .sql (.updateRefunds update) => operation.Updates update
  | .sql (.recordTransition refundId fromStatus toStatus actor) =>
      operation.Notes refundId fromStatus toStatus actor
  | .sql (.insertWebhookEvent id) => ∃ event rawBody sig secret,
      operation = .handleWebhook event rawBody sig secret ∧ id = event.id
  | .sql (.insertRefund new) =>
      operation = .requestRefund new.id new.chargeId new.amountCents new.currency
        new.requestedBy new.reasonCode ∧ new.status = initialStatus new.amountCents
  | .sql (.insertTransition refundId toStatus actor reason) =>
      ∃ chargeId amountCents currency, operation =
        .requestRefund refundId chargeId amountCents currency actor reason ∧
          toStatus = initialStatus amountCents
  | .createRefund _ _ key => ∃ refundId, key = refundId.toString ∧ operation.Sends refundId
  | .sql (.applyMoved update reason) => ∃ event rawBody sig secret,
      operation = .handleWebhook event rawBody sig secret ∧ event.update = some (update, reason)
  | _ => True

theorem Operation.Updates.not_opens {operation : Operation} {update : RefundUpdate}
    (updates : operation.Updates update) : ¬operation.Opens := by
  cases update with
  | markRequested refundId =>
      rcases updates with ⟨approver, rfl⟩
      exact id
  | markSubmitted refundId | recordRef refundId gatewayRef =>
      cases operation with
      | submitRefund | recoverSubmitted => exact id
      | requestRefund | approve | handleWebhook | reconcile => exact updates.elim
  | recoverRef refundId gatewayRef =>
      rw [show operation = .recoverSubmitted from updates]
      exact id
  | settle | fail => exact updates.elim

theorem Operation.Notes.between {operation : Operation} {refundId : Uuid}
    {fromStatus : Option Status} {toStatus : Status} {actor : String}
    (notes : operation.Notes refundId fromStatus toStatus actor) :
    fromStatus ≠ none ∧ toStatus ≠ .settled ∧ toStatus ≠ .failed := by
  cases operation with
  | approve =>
      rcases notes with ⟨_, rfl, rfl, _⟩
      decide
  | submitRefund =>
      rcases notes with ⟨_, rfl, rfl, _⟩
      decide
  | recoverSubmitted =>
      rcases notes with ⟨source, rfl, _⟩
      exact ⟨source, by decide, by decide⟩
  | requestRefund | handleWebhook | reconcile => exact notes.elim

/-- The statements that only run in a transaction. -/
def Statement.Transacts : Statement → Prop
  | .begin | .lockCharge _ | .sumRefunds _ | .insertRefund _ | .insertTransition _ _ _ _
  | .applyMoved _ _ | .commit | .rollback => True
  | _ => False

theorem Operation.MayIssue.opens {operation : Operation} {statement : Statement}
    (issued : operation.MayIssue (.sql statement)) (transacts : statement.Transacts) :
    operation.Opens := by
  cases statement with
  | begin | lockCharge | sumRefunds | commit | rollback => exact issued
  | insertRefund new =>
      rw [issued.1]
      trivial
  | insertTransition refundId toStatus actor reason =>
      rcases issued with ⟨_, _, _, rfl, _⟩
      trivial
  | applyMoved update reason =>
      rcases issued with ⟨_, _, _, _, rfl, _⟩
      trivial
  | getRefund | updateRefunds | recordTransition | selectStuck | selectAmount
  | insertWebhookEvent | selectSettled => exact transacts.elim

section Issues

variable {α β : Type} {kind : Command → Prop}

theorem issues_createRefund {amount : Int64} {currency key : String}
    {continuation : GatewayOutcome → Action β}
    (simple : kind (.createRefund amount currency key))
    (rest : ∀ outcome, (continuation outcome).run.Issues kind) :
    (Action.createRefund amount currency key >>= continuation : Action β).run.Issues kind :=
  ⟨simple, rest⟩

theorem issues_lookupByKey {key : String} {continuation : Option GatewayRefund → Action β}
    (simple : kind (.lookupByKey key))
    (rest : ∀ found, (continuation found).run.Issues kind) :
    (Action.lookupByKey key >>= continuation : Action β).run.Issues kind :=
  ⟨simple, rest⟩

theorem issues_bind {action : Action α} {continuation : α → Action β}
    (issues : action.run.Issues kind) (rest : ∀ value, (continuation value).run.Issues kind) :
    (action >>= continuation : Action β).run.Issues kind := by
  apply issues.bind
  intro result
  cases result with
  | ok value => exact rest value
  | error error => trivial

theorem issues_statement {statement : Statement} (simple : kind (.sql statement)) :
    (Action.sql statement).run.Issues kind :=
  ⟨simple, fun _ => trivial⟩

theorem issues_getRefund {refundId : Uuid} (simple : kind (.sql (.getRefund refundId))) :
    (getRefund refundId).run.Issues kind := by
  apply issues_sql simple
  intro found
  cases found with
  | some row => trivial
  | none => trivial

end Issues

theorem RefundRequest.Executes.mayIssue {request : RefundRequest} {command : Command}
    (executes : request.Executes command) : request.operation.MayIssue command := by
  cases executes with
  | begin | lock | sum | rollback | commit => trivial
  | insert => exact ⟨rfl, rfl⟩
  | audit => exact ⟨request.chargeId, request.amountCents, request.currency, rfl, rfl⟩

theorem approve_mayIssue (refundId : Uuid) (approver : String) :
    (approve refundId approver).run.Issues (Operation.approve refundId approver).MayIssue := by
  unfold approve
  apply issues_bind (issues_getRefund trivial)
  intro row
  by_cases pending : row.status ≠ .pendingReview
  · simp only [if_pos pending]
    trivial
  simp only [if_neg pending]
  by_cases same : approver = row.requestedBy
  · simp only [if_pos same]
    trivial
  simp only [if_neg same]
  apply issues_sql ⟨approver, rfl⟩
  intro _
  exact issues_statement ⟨rfl, rfl, rfl, rfl⟩

theorem submitRefund_mayIssue (refundId : Uuid) :
    (submitRefund refundId).run.Issues (Operation.submitRefund refundId).MayIssue := by
  unfold submitRefund
  apply issues_bind (issues_getRefund trivial)
  intro row
  by_cases terminal : row.status = .settled ∨ row.status = .failed ∨ row.status = .canceled
  · simp only [if_pos terminal]
    trivial
  simp only [if_neg terminal]
  by_cases pending : row.status = .pendingReview
  · simp only [if_pos pending]
    trivial
  simp only [if_neg pending]
  refine issues_sql rfl ?_
  intro _
  have sends : ∀ _ : Unit,
      (Action.createRefund row.amountCents row.currency refundId.toString >>=
        recordOutcome refundId).run.Issues (Operation.submitRefund refundId).MayIssue := by
    intro _
    apply issues_createRefund ⟨refundId, rfl, rfl⟩
    intro outcome
    cases outcome with
    | accepted refund =>
        refine issues_sql rfl ?_
        intro _
        trivial
    | dropped => trivial
    | timedOut => trivial
  by_cases submitted : row.status ≠ .submitted
  · simp only [if_pos submitted]
    have requested : row.status = .requested := by
      revert terminal pending submitted
      cases row.status <;> simp
    exact issues_bind (issues_statement ⟨rfl, congrArg some requested, rfl, rfl⟩) sends
  · simp only [if_neg submitted]
    exact sends ()

theorem recoverRow_mayIssue (report : RecoveryReport) (refundId : Uuid) (status : Status) :
    (recoverRow report refundId status).run.Issues Operation.recoverSubmitted.MayIssue := by
  unfold recoverRow
  apply issues_lookupByKey trivial
  intro found
  cases found with
  | some refund =>
      refine issues_sql rfl ?_
      intro _
      exact issues_bind (issues_statement ⟨Option.some_ne_none _, rfl, .inl rfl⟩) fun _ => trivial
  | none =>
      apply issues_sql trivial
      intro terms
      apply issues_sql trivial
      intro _
      have records : ∀ _ : Unit, (do
          recordTransition refundId (some status) .submitted "job:recover-resubmit"
          return { report with
            walked := report.walked + 1
            resubmitted := report.resubmitted + 1 } : Action RecoveryReport).run.Issues
          Operation.recoverSubmitted.MayIssue :=
        fun _ => issues_bind (issues_statement ⟨Option.some_ne_none _, rfl, .inr rfl⟩)
          fun _ => trivial
      apply issues_createRefund ⟨refundId, rfl, trivial⟩
      intro outcome
      cases outcome with
      | accepted refund =>
          apply issues_sql trivial
          exact records
      | dropped => exact records ()
      | timedOut => exact records ()

theorem recoverRows_mayIssue (report : RecoveryReport) (stuck : List (Uuid × Status)) :
    (recoverRows report stuck).run.Issues Operation.recoverSubmitted.MayIssue := by
  induction stuck generalizing report with
  | nil => trivial
  | cons entry stuck ih =>
      exact issues_bind (recoverRow_mayIssue report entry.1 entry.2) fun report => ih report

theorem handleWebhook_mayIssue (hmac : Hmac) (event : WebhookEvent) (rawBody : Bytes)
    (sig : String) (secret : Bytes) :
    (handleWebhook hmac event rawBody sig secret).run.Issues
      (Operation.handleWebhook event rawBody sig secret).MayIssue := by
  rw [handleWebhook_eq]
  by_cases forged : verifySignature hmac rawBody sig secret = false
  · simp only [if_pos forged]
    trivial
  simp only [if_neg forged]
  apply issues_sql ⟨event, rawBody, sig, secret, rfl, rfl⟩
  intro inserted
  by_cases seen : inserted = none
  · simp only [if_pos seen]
    trivial
  simp only [if_neg seen]
  apply issues_sql trivial
  intro _
  have commits : ∀ _ : Unit, (do
      Action.sql .commit
      return .applied : Action WebhookResult).run.Issues
      (Operation.handleWebhook event rawBody sig secret).MayIssue :=
    fun _ => issues_sql trivial fun _ => trivial
  unfold WebhookEvent.conclude
  cases updates : event.update with
  | some update => exact issues_sql ⟨event, rawBody, sig, secret, rfl, updates⟩ commits
  | none => exact commits ()

/-- The program of an operation issues only what the operation may. -/
theorem program_mayIssue (hmac : Hmac) (operation : Operation) :
    ((engine hmac).program operation).Issues operation.MayIssue := by
  cases operation with
  | requestRefund refundId chargeId amountCents currency actor reasonCode =>
      let request : RefundRequest := ⟨refundId, chargeId, amountCents, currency, actor, reasonCode⟩
      exact (request.issues hmac).mono fun _ executes => executes.mayIssue
  | approve refundId approver => exact issues_map (approve_mayIssue ..)
  | submitRefund refundId => exact issues_map (submitRefund_mayIssue ..)
  | recoverSubmitted =>
      exact issues_map (issues_sql trivial fun stuck => recoverRows_mayIssue {} stuck)
  | handleWebhook event rawBody sig secret => exact issues_map (handleWebhook_mayIssue ..)
  | reconcile settlementFile =>
      exact issues_map (issues_sql trivial fun _ => trivial)

/-! ## What a command does to an open transaction -/

/-- What a command does to the open transaction of its call, if that stays open. -/
inductive TransactionStep (world : World) (call : CallId) :
    Command → Transaction → Transaction → Prop where
  | same {command : Command} {transaction : Transaction} :
      TransactionStep world call command transaction transaction
  | begun {transaction : Transaction} :
      TransactionStep world call (.sql .begin) transaction { began := world.now }
  | locked {id : Uuid} {transaction : Transaction} :
      TransactionStep world call (.sql (.lockCharge id)) transaction
        { transaction with chargeLock := some id }
  | inserted {new : NewRefund} {transaction : Transaction} {row : Refund}
      (id : row.id = new.id) (chargeId : row.chargeId = new.chargeId)
      (amountCents : row.amountCents = new.amountCents) (currency : row.currency = new.currency)
      (status : row.status = new.status) (reasonCode : row.reasonCode = new.reasonCode)
      (requestedBy : row.requestedBy = new.requestedBy) :
      TransactionStep world call (.sql (.insertRefund new)) transaction
        { transaction with refundWrites := transaction.refundWrites ++ [.insert row] }
  | opened {refundId : Uuid} {toStatus : Status} {actor : String} {reason : Option String}
      {transaction : Transaction} :
      TransactionStep world call (.sql (.insertTransition refundId toStatus actor reason))
        transaction
        { transaction with
          transitionWrites := transaction.transitionWrites ++
            [{ id := world.database.nextTransition, refundId, fromStatus := none, toStatus, actor
               reason }] }
  | moved {update : RefundUpdate} {reason : Option String} {transaction : Transaction}
      {writes : List RefundWrite} {audits : List Transition}
      (updates : ∀ write ∈ writes, ∃ id writtenAt, write = .update id update writtenAt)
      (audited : ∀ audit ∈ audits, ∃ row ∈ world.rows, update.Applies row ∧
        audit.refundId = row.id ∧
        audit.fromStatus = newestStatus (world.visible call update) row.id ∧
        audit.toStatus = (update.assign transaction.began row).status ∧
        audit.actor = "webhook" ∧ audit.reason = reason) :
      TransactionStep world call (.sql (.applyMoved update reason)) transaction
        { transaction with
          refundWrites := transaction.refundWrites ++ writes
          transitionWrites := transaction.transitionWrites ++ audits }

section TransactionStep

variable {world after : World} {call : CallId} {command : Command} {answer : command.Answer}
variable {transaction : Transaction}

/-- A transaction that is open after a command was begun by it, or went one step on. -/
theorem transactionStep (executed : command.execute call world = some (answer, after))
    (opened : after.transaction call = some transaction) :
    (world.transaction call = none ∧ command = .sql .begin ∧
      transaction = { began := world.now }) ∨
    ∃ earlier, world.transaction call = some earlier ∧
      TransactionStep world call command earlier transaction := by
  have kept : after.transaction call = world.transaction call →
      ∃ earlier, world.transaction call = some earlier ∧
        TransactionStep world call command earlier transaction :=
    fun same => ⟨transaction, same.symm.trans opened, .same⟩
  cases command with
  | createRefund | lookupByKey =>
      cases executed
      exact .inr (kept rfl)
  | sql statement =>
      cases statement with
      | begin =>
          cases executed
          simp only [World.begin, World.transaction_setTransaction_self,
            Option.some.injEq] at opened
          cases earlier : world.transaction call with
          | none => exact .inl ⟨rfl, rfl, opened.symm⟩
          | some pending => exact .inr ⟨pending, rfl, opened ▸ .begun⟩
      | rollback =>
          cases executed
          rw [World.transaction_endTransaction_self] at opened
          cases opened
      | commit =>
          simp only [Command.execute, World.execute, World.commit, World.inTransaction]
            at executed
          repeat' split at executed
          all_goals cases executed
          · cases (World.transaction_endTransaction_self world call).symm.trans opened
          · cases (World.transaction_endTransaction_self world call).symm.trans opened
          · exact .inr (kept rfl)
      | getRefund | recordTransition | selectStuck | selectAmount | insertWebhookEvent
      | selectSettled | updateRefunds | sumRefunds =>
          right
          apply kept
          simp only [Command.execute, World.execute, World.recordTransition,
            World.insertWebhookEvent, World.updateRefunds, World.sumRefunds,
            World.inTransaction] at executed
          repeat' split at executed
          all_goals cases executed
          all_goals rfl
      | lockCharge id =>
          right
          simp only [Command.execute, World.execute, World.lockCharge, World.inTransaction]
            at executed
          repeat' split at executed
          all_goals cases executed
          · exact kept rfl
          · rename_i pending earlier _ _ _ _
            rw [World.transaction_setTransaction_self] at opened
            cases opened
            exact ⟨pending, earlier, .locked⟩
          · exact kept rfl
      | insertRefund new =>
          right
          simp only [Command.execute, World.execute, World.insertRefund, World.inTransaction]
            at executed
          split at executed
          · rename_i pending earlier
            repeat' split at executed
            all_goals cases executed
            all_goals try exact kept rfl
            rw [World.transaction_setTransaction_self] at opened
            cases opened
            exact ⟨pending, earlier, .inserted rfl rfl rfl rfl rfl rfl rfl⟩
          · cases executed
            exact kept rfl
      | insertTransition refundId toStatus actor reason =>
          right
          simp only [Command.execute, World.execute, World.insertTransition,
            World.inTransaction] at executed
          split at executed
          · rename_i pending earlier
            split at executed
            · cases executed
              rw [World.transaction_advanceSequence, World.transaction_setTransaction_self]
                at opened
              cases opened
              exact ⟨pending, earlier, .opened⟩
            · cases executed
              exact kept rfl
          · cases executed
            exact kept rfl
      | applyMoved update reason =>
          right
          simp only [Command.execute, World.execute, World.applyMoved, World.inTransaction]
            at executed
          split at executed
          · rename_i pending earlier
            split at executed
            · cases executed
            · cases executed
              rw [World.transaction_advanceSequence, World.transaction_setTransaction_self]
                at opened
              cases opened
              refine ⟨pending, earlier, .moved ?_ ?_⟩
              · intro write member
                rcases List.mem_map.mp member with ⟨row, _, rfl⟩
                exact ⟨row.id, pending.began, rfl⟩
              · intro audit member
                rcases List.mem_mapIdx.mp member with ⟨index, inside, rfl⟩
                have listed := List.mem_filter.mp (List.getElem_mem inside)
                exact ⟨_, listed.1, of_decide_eq_true listed.2, rfl, rfl, rfl, rfl, rfl⟩
          · cases executed
            exact kept rfl

end TransactionStep

section Run

variable {hmac : Hmac} {trace : List EngineEvent} {state : EngineState} {call : CallId}
variable {operation : Operation} {transaction : Transaction}

theorem EngineRun.mayIssue {rest : Program Command.Answer (Except RefundError Reply)}
    (run : EngineRun hmac trace state) (stands : state.calls call = .running operation rest) :
    rest.Issues operation.MayIssue :=
  let ⟨_, _, _, run⟩ := run
  run.issues (program_mayIssue hmac) (fun _ => rfl) stands

/-- What is true of a transaction that has just begun, and is kept by what its operation can
issue, is true of every open transaction. -/
theorem EngineRun.transaction_invariant (holds : Operation → Transaction → Prop)
    (begun : ∀ operation now, operation.Opens → holds operation { began := now })
    (kept : ∀ trace state call operation command earlier transaction,
      EngineRun hmac trace state → operation.MayIssue command →
      TransactionStep state.world call command earlier transaction →
      holds operation earlier → holds operation transaction)
    (run : EngineRun hmac trace state)
    (opened : state.world.transaction call = some transaction) :
    ∃ operation rest, state.calls call = .running operation rest ∧ operation.Opens ∧
      holds operation transaction := by
  refine run.preserves (fun _ state => ∀ transaction,
    state.world.transaction call = some transaction →
      ∃ operation rest, state.calls call = .running operation rest ∧ operation.Opens ∧
        holds operation transaction) ?_ ?_ transaction opened
  · intro charges config now transaction opened
    cases opened
  · intro trace state event next run ih step permitted transaction opened
    by_cases taken : event.caller = some call
    · cases step with
      | start operation idle =>
          cases taken
          rcases ih transaction opened with ⟨operation, rest, stands, _⟩
          cases idle.symm.trans stands
      | fail running =>
          cases taken
          rcases ih transaction opened with ⟨operation, rest, stands, transacts, held⟩
          cases running.symm.trans stands
          exact ⟨_, _, Function.update_self .., transacts, held⟩
      | @answer _ operation command next answer world running executed =>
          cases taken
          refine ⟨operation, _, Function.update_self .., ?_⟩
          have issued := (run.mayIssue running).1
          rcases transactionStep executed opened with
            ⟨closed, rfl, rfl⟩ | ⟨earlier, before, stepped⟩
          · exact ⟨issued, begun operation _ issued⟩
          · rcases ih earlier before with ⟨operation', rest, stands, transacts, held⟩
            cases running.symm.trans stands
            exact ⟨transacts,
              kept trace state _ _ command earlier transaction run issued stepped held⟩
      | finish running | die running =>
          cases taken
          cases (World.transaction_endTransaction_self state.world call).symm.trans opened
      | act => cases taken
    · rw [transaction_of_step step taken] at opened
      rcases ih transaction opened with ⟨operation, rest, stands, held⟩
      exact ⟨operation, rest, by rw [step.calls_other taken, stands], held⟩

theorem EngineRun.opens_of_transaction (run : EngineRun hmac trace state)
    (opened : state.world.transaction call = some transaction) :
    ∃ operation rest, state.calls call = .running operation rest ∧ operation.Opens := by
  rcases run.transaction_invariant (fun _ _ => True) (fun _ _ _ => trivial)
    (fun _ _ _ _ _ _ _ _ _ _ _ => trivial) opened with ⟨operation, rest, stands, opens, _⟩
  exact ⟨operation, rest, stands, opens⟩

/-- A refund is inserted by the request that carries its columns. -/
theorem EngineRun.request_of_insert (run : EngineRun hmac trace state)
    (opened : state.world.transaction call = some transaction) {row : Refund}
    (written : .insert row ∈ transaction.refundWrites) :
    ∃ rest, state.calls call = .running (.requestRefund row.id row.chargeId row.amountCents
      row.currency row.requestedBy row.reasonCode) rest := by
  have held := run.transaction_invariant
    (fun operation transaction => ∀ row, .insert row ∈ transaction.refundWrites → operation =
      .requestRefund row.id row.chargeId row.amountCents row.currency row.requestedBy
        row.reasonCode)
    (fun _ _ _ _ member => nomatch member) ?_ opened
  · rcases held with ⟨operation, rest, stands, _, requests⟩
    rw [requests row written] at stands
    exact ⟨rest, stands⟩
  · intro trace state caller operation command earlier transaction _ issued stepped held row member
    cases stepped with
    | same | locked | opened => exact held row member
    | begun => cases member
    | inserted id chargeId amountCents currency _ reasonCode requestedBy =>
        rcases List.mem_append.mp member with before | last
        · exact held row before
        · cases List.mem_singleton.mp last
          rw [id, chargeId, amountCents, currency, reasonCode, requestedBy]
          exact issued.1
    | moved updates =>
        rcases List.mem_append.mp member with before | last
        · exact held row before
        · rcases updates _ last with ⟨_, _, isUpdate⟩
          cases isUpdate

/-- A refund is updated in a transaction by the delivery of an event that asks for it. -/
theorem EngineRun.delivery_of_update (run : EngineRun hmac trace state)
    (opened : state.world.transaction call = some transaction) {id : Uuid}
    {update : RefundUpdate} {writtenAt : Timestamp}
    (written : .update id update writtenAt ∈ transaction.refundWrites) :
    ∃ event rawBody sig secret reason rest,
      state.calls call = .running (.handleWebhook event rawBody sig secret) rest ∧
      event.update = some (update, reason) := by
  have held := run.transaction_invariant
    (fun operation transaction => ∀ id update writtenAt,
      .update id update writtenAt ∈ transaction.refundWrites →
      ∃ event rawBody sig secret reason,
        operation = .handleWebhook event rawBody sig secret ∧
        event.update = some (update, reason))
    (fun _ _ _ _ _ _ member => nomatch member) ?_ opened
  · rcases held with ⟨operation, rest, stands, _, delivers⟩
    rcases delivers id update writtenAt written with
      ⟨event, rawBody, sig, secret, reason, rfl, asks⟩
    exact ⟨event, rawBody, sig, secret, reason, rest, stands, asks⟩
  · intro trace state caller operation command earlier transaction _ issued stepped held id update
      writtenAt member
    cases stepped with
    | same | locked | opened => exact held id update writtenAt member
    | begun => cases member
    | inserted =>
        rcases List.mem_append.mp member with before | last
        · exact held id update writtenAt before
        · cases List.mem_singleton.mp last
    | moved updates =>
        rcases List.mem_append.mp member with before | last
        · exact held id update writtenAt before
        · rcases updates _ last with ⟨_, _, isUpdate⟩
          cases isUpdate
          rcases issued with ⟨event, rawBody, sig, secret, isDelivery, asks⟩
          exact ⟨event, rawBody, sig, secret, _, isDelivery, asks⟩

end Run

end RefundEngine
