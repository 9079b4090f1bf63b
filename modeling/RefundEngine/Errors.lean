import RefundEngine.Acknowledged
import RefundEngine.Issued
import RefundEngine.Overlap
import RefundEngine.RequestDecision

/-!
# Why a call fails

Every error that a call returns names its own cause, and the cause is real.  Recovery and
reconciliation fail only when a statement of theirs does; no call ever violates
the unique index on `gateway_ref`, a foreign key, or the range of a `bigint`, whatever runs at
the same time.
-/

namespace RefundEngine

open Interleaving (CallId Contract own mem_own)

/-- The error of the last thing a call has done. -/
def lastError : List EngineEvent → Option DbError
  | .failed _ _ (.sql _) :: _ => some .failed
  | .answered _ _ (.sql _) (.error error) _ :: _ => some error
  | _ => none

/-- The operations that judge what they are asked to do. -/
def Operation.Judging : Operation → Prop
  | .requestRefund .. | .approve .. => True
  | .submitRefund _ | .recoverSubmitted | .handleWebhook .. | .reconcile _ => False

/-- How a call can come to return an error. -/
inductive Failure (hmac : Hmac) (call : CallId) :
    Operation → List EngineEvent → RefundError → Prop where
  | lost {operation : Operation} {statement : Statement} {events : List EngineEvent} :
      Failure hmac call operation (.failed call operation (.sql statement) :: events)
        (.db .failed)
  | refused {operation : Operation} {statement : Statement} {error : DbError} {before : World}
      {events : List EngineEvent} :
      Failure hmac call operation
        (.answered call operation (.sql statement) (.error error) before :: events) (.db error)
  | judged {operation : Operation} {events : List EngineEvent} {error : RefundError}
      (judging : operation.Judging) (clean : lastError events = none)
      (named : ∀ refused, error ≠ .db refused) : Failure hmac call operation events error
  | unknown {refundId : Uuid} {before : World} :
      Failure hmac call (.submitRefund refundId)
        [.answered call (.submitRefund refundId) (.sql (.getRefund refundId)) (.ok none) before,
          .started call (.submitRefund refundId)]
        (.refundNotFound refundId)
  | forged {event : WebhookEvent} {rawBody secret : Bytes} {sig : String}
      (forged : verifySignature hmac rawBody sig secret = false) :
      Failure hmac call (.handleWebhook event rawBody sig secret)
        [.started call (.handleWebhook event rawBody sig secret)] .badSignature

/-- Errors come from somewhere, and amounts are selected for known refunds. -/
def errorContract (hmac : Hmac) : Contract (engine hmac) where
  license call operation events
    | .sql (.selectAmount refundId) => Known call operation events refundId
    | _ => True
  outcome call operation events result := ∀ error, result = .error error →
    Failure hmac call operation events error

section Rules

variable {hmac : Hmac} {call : CallId} {operation : Operation} {events : List EngineEvent}
variable {α β : Type}

/-- The action keeps the contract, and what it returns satisfies `post`. -/
abbrev Fails (hmac : Hmac) (call : CallId) (operation : Operation)
    (post : α → List EngineEvent → Prop) (action : Action α) (events : List EngineEvent) : Prop :=
  Upholds (errorContract hmac) call operation
    (fun result events =>
      match result with
      | .ok value => post value events
      | .error error => Failure hmac call operation events error) action events

theorem fails_pure {post : α → List EngineEvent → Prop} {value : α} (holds : post value events) :
    Fails hmac call operation post (pure value) events := holds

theorem fails_throw {post : α → List EngineEvent → Prop} {error : RefundError}
    (failure : Failure hmac call operation events error) :
    Fails hmac call operation post (throw error) events := failure

theorem fails_statement {statement : Statement}
    {post : statement.Value → List EngineEvent → Prop}
    (licensed : (errorContract hmac).license call operation events (.sql statement))
    (holds : ∀ value before,
      post value (.answered call operation (.sql statement) (.ok value) before :: events)) :
    Fails hmac call operation post (Action.sql statement) events :=
  upholds_statement licensed (fun value before _ _ => holds value before)
    (fun _ _ _ _ => .refused) .lost

theorem fails_sql {statement : Statement} {post : β → List EngineEvent → Prop}
    {continuation : statement.Value → Action β}
    (licensed : (errorContract hmac).license call operation events (.sql statement))
    (rest : ∀ value before, Fails hmac call operation post (continuation value)
      (.answered call operation (.sql statement) (.ok value) before :: events)) :
    Fails hmac call operation post (Action.sql statement >>= continuation) events :=
  upholds_sql licensed (fun value before _ _ => rest value before)
    (fun _ _ _ _ => .refused) .lost

theorem fails_bind {action : Action α} {continuation : α → Action β}
    {post : β → List EngineEvent → Prop}
    (fails : Fails hmac call operation
      (fun value => Fails hmac call operation post (continuation value)) action events) :
    Fails hmac call operation post (action >>= continuation) events := by
  apply upholds_bind
  apply fails.mono
  intro result events holds
  cases result with
  | ok value => exact holds
  | error error => exact holds

end Rules

section Operations

variable {hmac : Hmac} {call : CallId} {operation : Operation} {events : List EngineEvent}

theorem requestRefund_fails (refundId chargeId : Uuid) (amountCents : Int64)
    (currency actor : String) (reasonCode : Option String)
    (isRequest : operation =
      .requestRefund refundId chargeId amountCents currency actor reasonCode) :
    Fails hmac call operation (fun _ _ => True)
      (requestRefund refundId chargeId amountCents currency actor reasonCode) events := by
  subst isRequest
  unfold requestRefund
  refine fails_sql trivial ?_
  intro _ began
  refine fails_sql trivial ?_
  intro found locked
  cases found with
  | none =>
      apply fails_bind
      exact fails_throw (.judged trivial rfl nofun)
  | some charge =>
      apply fails_bind
      apply fails_pure
      refine fails_sql trivial ?_
      intro total summed
      by_cases differs : currency ≠ charge.2
      · simp only [if_pos differs]
        apply fails_bind
        exact fails_throw (.judged trivial rfl nofun)
      simp only [if_neg differs]
      by_cases exceeds : amountCents > charge.1 - total
      · simp only [if_pos exceeds]
        refine fails_sql trivial ?_
        intro _ rolledBack
        apply fails_bind
        exact fails_throw (.judged trivial rfl nofun)
      simp only [if_neg exceeds]
      refine fails_sql trivial ?_
      intro _ inserted
      refine fails_sql trivial ?_
      intro _ recorded
      refine fails_sql trivial ?_
      intro _ committed
      exact fails_pure trivial

theorem approve_fails (refundId : Uuid) (approver : String) :
    Fails hmac call (.approve refundId approver) (fun _ _ => True) (approve refundId approver)
      events := by
  unfold approve
  apply fails_bind
  unfold getRefund
  refine fails_sql trivial ?_
  intro found read
  cases found with
  | none => exact fails_throw (.judged trivial rfl nofun)
  | some row =>
      apply fails_pure
      by_cases past : row.status ≠ .pendingReview
      · simp only [if_pos past]
        apply fails_bind
        exact fails_throw (.judged trivial rfl nofun)
      simp only [if_neg past]
      by_cases same : approver = row.requestedBy
      · simp only [if_pos same]
        apply fails_bind
        exact fails_throw (.judged trivial rfl nofun)
      simp only [if_neg same]
      refine fails_sql trivial ?_
      intro _ released
      exact fails_statement trivial fun _ _ => trivial

theorem submitRefund_fails (refundId : Uuid) :
    Fails hmac call (.submitRefund refundId) (fun _ _ => True) (submitRefund refundId)
      [.started call (.submitRefund refundId)] := by
  unfold submitRefund
  apply fails_bind
  unfold getRefund
  refine fails_sql trivial ?_
  intro found read
  cases found with
  | none => exact fails_throw .unknown
  | some row =>
      apply fails_pure
      by_cases terminal : row.status = .settled ∨ row.status = .failed ∨ row.status = .canceled
      · simp only [if_pos terminal]
        exact fails_pure trivial
      simp only [if_neg terminal]
      by_cases pending : row.status = .pendingReview
      · simp only [if_pos pending]
        exact fails_pure trivial
      simp only [if_neg pending]
      refine fails_sql trivial ?_
      intro _ marked
      have sends : ∀ events : List EngineEvent,
          Fails hmac call (.submitRefund refundId) (fun _ _ => True)
            (Action.createRefund row.amountCents row.currency refundId.toString >>=
              recordOutcome refundId)
            events := by
        intro events
        refine upholds_createRefund trivial ?_
        intro outcome asked
        cases outcome with
        | accepted refund =>
            refine fails_sql trivial ?_
            intro _ recorded
            exact fails_pure trivial
        | dropped | timedOut => exact fails_pure trivial
      by_cases submitted : row.status ≠ .submitted
      · simp only [if_pos submitted]
        refine fails_sql trivial ?_
        intro _ recorded
        exact sends _
      · simp only [if_neg submitted]
        exact sends _

/-- The recovery has read that these refunds exist. -/
private def KnowsAll (call : CallId) (refunds : List Uuid) (events : List EngineEvent) : Prop :=
  ∀ refundId ∈ refunds, Known call .recoverSubmitted events refundId

private theorem Known.cons {refundId : Uuid} (event : EngineEvent)
    (known : Known call operation events refundId) :
    Known call operation (event :: events) refundId := by
  rcases known with ⟨row, read⟩ | ⟨stuck, status, read, listed⟩
  · exact .inl ⟨row, read.cons event⟩
  · exact .inr ⟨stuck, status, read.cons event, listed⟩

private theorem KnowsAll.cons {refunds : List Uuid} (event : EngineEvent)
    (knows : KnowsAll call refunds events) : KnowsAll call refunds (event :: events) :=
  fun refundId member => (knows refundId member).cons event

theorem recoverRow_fails {refunds : List Uuid} (report : RecoveryReport) {refundId : Uuid}
    (status : Status) (member : refundId ∈ refunds) (knows : KnowsAll call refunds events) :
    Fails hmac call .recoverSubmitted (fun _ events => KnowsAll call refunds events)
      (recoverRow report refundId status) events := by
  unfold recoverRow
  refine upholds_lookupByKey trivial ?_
  intro found looked
  have looked := knows.cons (.answered call .recoverSubmitted (.lookupByKey refundId.toString)
    found looked)
  cases found with
  | some refund =>
      refine fails_sql trivial ?_
      intro _ recovered
      refine fails_sql trivial ?_
      intro _ audited
      exact fails_pure ((looked.cons _).cons _)
  | none =>
      refine fails_sql (looked refundId member) ?_
      intro terms selected
      refine fails_sql trivial ?_
      intro _ marked
      refine upholds_createRefund trivial ?_
      intro outcome sent
      cases outcome with
      | accepted refund =>
          refine fails_sql trivial ?_
          intro _ recorded
          refine fails_sql trivial ?_
          intro _ audited
          exact fails_pure (((((looked.cons _).cons _).cons _).cons _).cons _)
      | dropped | timedOut =>
          refine fails_sql trivial ?_
          intro _ audited
          exact fails_pure ((((looked.cons _).cons _).cons _).cons _)

/-- The loop, by induction on the rows still to be walked. -/
theorem recoverRows_fails {refunds : List Uuid} (report : RecoveryReport)
    (stuck : List (Uuid × Status)) (inside : ∀ entry ∈ stuck, entry.1 ∈ refunds)
    (knows : KnowsAll call refunds events) :
    Fails hmac call .recoverSubmitted (fun _ _ => True) (recoverRows report stuck) events := by
  induction stuck generalizing report events with
  | nil => exact fails_pure trivial
  | cons entry stuck ih =>
      apply fails_bind
      apply (recoverRow_fails report entry.2 (inside entry (List.mem_cons_self ..)) knows).mono
      intro result later holds
      cases result with
      | ok after =>
          exact ih after (fun other member => inside other (List.mem_cons_of_mem _ member)) holds
      | error error => exact holds

theorem recoverSubmitted_fails :
    Fails hmac call .recoverSubmitted (fun _ _ => True) recoverSubmitted events := by
  unfold recoverSubmitted
  refine fails_sql trivial ?_
  intro stuck selected
  apply recoverRows_fails {} stuck (fun entry member => List.mem_map_of_mem member)
  intro refundId member
  rcases List.mem_map.mp member with ⟨entry, listed, rfl⟩
  exact .inr ⟨stuck, entry.2, .head, listed⟩

theorem handleWebhook_fails (event : WebhookEvent) (rawBody : Bytes) (sig : String)
    (secret : Bytes) :
    Fails hmac call (.handleWebhook event rawBody sig secret) (fun _ _ => True)
      (handleWebhook hmac event rawBody sig secret)
      [.started call (.handleWebhook event rawBody sig secret)] := by
  rw [handleWebhook_eq]
  by_cases forged : verifySignature hmac rawBody sig secret = false
  · simp only [if_pos forged]
    apply fails_bind
    exact fails_throw (.forged forged)
  simp only [if_neg forged]
  refine fails_sql trivial ?_
  intro inserted deduped
  by_cases duplicate : inserted = none
  · simp only [if_pos duplicate]
    exact fails_pure trivial
  simp only [if_neg duplicate]
  refine fails_sql trivial ?_
  intro _ began
  unfold WebhookEvent.conclude
  cases event.update with
  | none =>
      refine fails_sql trivial ?_
      intro _ committed
      exact fails_pure trivial
  | some decision =>
      refine fails_sql trivial ?_
      intro _ applied
      refine fails_sql trivial ?_
      intro _ committed
      exact fails_pure trivial

theorem reconcile_fails (settlementFile : List SettlementLine) :
    Fails hmac call (.reconcile settlementFile) (fun _ _ => True) (reconcile settlementFile)
      events := by
  unfold reconcile
  refine fails_sql trivial ?_
  intro settled selected
  exact fails_pure trivial

theorem errorContract_upheld (hmac : Hmac) : (errorContract hmac).Upheld := by
  intro call operation
  have mapped : ∀ {α : Type} {change : α → Reply} {action : Action α},
      Fails hmac call operation (fun _ _ => True) action [.started call operation] →
      (errorContract hmac).Obeys call operation
        (fun result events => (errorContract hmac).outcome call operation events result)
        (change <$> action).run [.started call operation] := by
    intro α change action fails
    apply upholds_map
    apply fails.mono
    intro result events holds error returned
    cases result with
    | ok value => cases returned
    | error error =>
        cases returned
        exact holds
  cases operation with
  | requestRefund => exact mapped (requestRefund_fails _ _ _ _ _ _ rfl)
  | approve refundId approver => exact mapped (approve_fails refundId approver)
  | submitRefund refundId => exact mapped (submitRefund_fails refundId)
  | recoverSubmitted => exact mapped recoverSubmitted_fails
  | handleWebhook event rawBody sig secret =>
      exact mapped (handleWebhook_fails event rawBody sig secret)
  | reconcile settlementFile => exact mapped (reconcile_fails settlementFile)

end Operations

section Refused

variable {world after : World} {call : CallId} {error : DbError}

theorem RefundTable.write_ok (table : RefundTable) {update : RefundUpdate}
    {decision : String × Status} (decides : update.decision = some decision) (id : Uuid)
    (writtenAt : Timestamp) :
    ∃ written, table.write (.update id update writtenAt) = .ok written := by
  have refs : ∀ other : Refund,
      (if other.id = id then update.assign writtenAt other else other).gatewayRef =
        other.gatewayRef := by
    intro other
    split
    · exact RefundUpdate.gatewayRef_assign decides writtenAt other
    · rfl
  refine ⟨_, dif_pos ?_⟩
  rw [List.filterMap_map]
  simp only [Function.comp_def, refs]
  exact table.refs_nodup

/-- A commit is refused only if it inserts a refund. -/
theorem insert_of_refused_commit (ok : WorldOk world) {transaction : Transaction}
    (opened : world.transaction call = some transaction)
    (executed : world.execute call .commit = some (.error error, after)) :
    ∃ row, transaction.refundWrites = [.insert row] := by
  have pending := ok.pending call transaction opened
  simp only [World.execute, World.commit, World.inTransaction, opened, Database.commit] at executed
  generalize transaction.refundWrites = writes at pending executed
  cases pending with
  | none => cases executed
  | @insert row => exact ⟨row, rfl⟩
  | @update row update writtenAt gatewayRef status member applies decides =>
      rcases world.database.refunds.write_ok decides row.id writtenAt with ⟨written, writes⟩
      simp only [List.foldlM_cons, writes] at executed
      cases executed

theorem opened_of_written {statement : Statement} {value : statement.Value}
    (writes : (∃ update reason, statement = .applyMoved update reason) ∨
      ∃ refundId toStatus actor reason,
        statement = .insertTransition refundId toStatus actor reason)
    (executed : world.execute call statement = some (.ok value, after)) :
    ∃ transaction, after.transaction call = some transaction := by
  rcases writes with ⟨update, reason, rfl⟩ | ⟨refundId, toStatus, actor, reason, rfl⟩
  all_goals
    simp only [World.execute, World.applyMoved, World.insertTransition,
      World.inTransaction] at executed
    repeat' split at executed
    all_goals cases executed
    all_goals exact ⟨_, World.transaction_setTransaction_self _ _ _⟩

theorem opened_of_ready {hmac : Hmac} {operation : Operation} {events : List EngineEvent}
    (linked : (engineRegime hmac).Linked events world) (ready : Ready call operation events) :
    ∃ transaction, world.transaction call = some transaction := by
  rcases ready with ⟨⟨before, rest, rfl⟩, _⟩ | ⟨update, reason, before, rest, rfl⟩ |
    ⟨new, refundId, toStatus, actor, reason, before, before', rest, _, rfl⟩
  · exact ⟨_, transaction_of_began linked⟩
  · rcases linked with ⟨⟨after, executed, rely⟩, _⟩
    rw [rely.own]
    exact opened_of_written (.inl ⟨update, reason, rfl⟩) executed
  · rcases linked with ⟨⟨after, executed, rely⟩, _⟩
    rw [rely.own]
    exact opened_of_written (.inr ⟨refundId, toStatus, actor, reason, rfl⟩) executed

/-- The database refuses a request at once in two cases. -/
theorem Ledger.refusal_of_request {ledger : Ledger} {request : RefundRequest} {began : Timestamp}
    (refused : (ledger.request request began).1 = .error (.db error)) :
    error = .checkViolation "refunds_amount_cents_check" ∧ request.amountCents ≤ 0 ∨
      error = .uniqueViolation "refunds_pkey" ∧
        request.refundId ∈ ledger.refunds.map Refund.id := by
  cases found : ledger.charges.find? request.chargeId with
  | none =>
      simp only [Ledger.request, found] at refused
      cases refused
  | some charge =>
      rw [request_of_found found] at refused
      split_ifs at refused with _ _ positive taken
      · cases refused
      · cases refused
      · cases refused
        exact .inr ⟨rfl, taken⟩
      · cases refused
        exact .inl ⟨rfl, Int64.not_lt.mp positive⟩

end Refused

section Run

variable {hmac : Hmac} {trace : List EngineEvent} {state : EngineState} {call : CallId}
variable {operation : Operation} {error : DbError} {before : World}

theorem EngineRun.respects (run : EngineRun hmac trace state) {contract : Contract (engine hmac)}
    (upheld : contract.Upheld) {event : EngineEvent} {newer earlier : List EngineEvent}
    (split : trace = newer ++ event :: earlier) : contract.Permits earlier event := by
  rcases run with ⟨_, _, _, run⟩
  have respected := upheld.respected (fun _ => rfl) run
  rw [split] at respected
  exact respected.permits_of_append

theorem EngineRun.standing_of_split (run : EngineRun hmac trace state) {command : Command}
    {answer : command.Answer} {newer earlier : List EngineEvent}
    (split : trace = newer ++ .answered call operation command answer before :: earlier) :
    ∃ reached next after, EngineRun hmac earlier reached ∧ reached.world = before ∧
      reached.calls call = .running operation (.call command next) ∧
      command.execute call before = some (answer, after) := by
  rcases run with ⟨charges, config, now, run⟩
  rcases run.step_of_split split with ⟨reached, _, reaches, step, _⟩
  cases step with
  | @answer _ _ _ next _ after running executed =>
      exact ⟨reached, next, after, ⟨charges, config, now, reaches⟩, rfl, running, executed⟩

/-- The database refuses a delivery nothing: what it stages is there to be written. -/
theorem EngineRun.delivery_unrefused (run : EngineRun hmac trace state) {statement : Statement}
    {event : WebhookEvent} {rawBody secret : Bytes} {sig : String}
    {newer earlier : List EngineEvent} (transacts : statement.Transacts) :
    trace ≠ newer ++ .answered call (.handleWebhook event rawBody sig secret) (.sql statement)
      (.error error) before :: earlier := by
  intro split
  rcases run.standing_of_split split with ⟨reached, next, after, reaches, rfl, stands, executed⟩
  have executed : reached.world.execute call statement = some (.error error, after) := executed
  rcases (run.respects (intakeContract_upheld hmac) split).2 event rawBody sig secret rfl with
    ⟨_, ⟨⟩, webhook⟩
  have linked := reaches.recalled.linked call
  have licensed := run.licensed split
  cases statement with
  | begin | rollback => cases executed
  | applyMoved update reason =>
      rcases licensed with ⟨_, _, _, _, _, _, _, _, _, _, shape⟩
      rw [shape] at linked
      simp only [World.execute, World.applyMoved, World.inTransaction,
        transaction_of_began linked] at executed
      split at executed <;> cases executed
  | commit =>
      rcases opened_of_ready linked licensed with ⟨transaction, opened⟩
      rcases insert_of_refused_commit reaches.worldOk opened executed with ⟨row, writes⟩
      rcases reaches.request_of_insert opened
        (writes ▸ List.mem_singleton_self _ : .insert row ∈ transaction.refundWrites) with
        ⟨rest, requests⟩
      cases stands.symm.trans requests
  | lockCharge | sumRefunds | insertRefund | insertTransition => exact webhook
  | getRefund | updateRefunds | recordTransition | selectStuck | selectAmount | insertWebhookEvent
  | selectSettled => exact transacts

/-- The only statements the database ever refuses are the two with which a request would insert
an amount that is not positive, or a refund whose identifier is taken. -/
theorem EngineRun.refusal (run : EngineRun hmac trace state) {statement : Statement}
    (member : .answered call operation (.sql statement) (.error error) before ∈ trace) :
    ∃ request : RefundRequest, operation = request.operation ∧
      (error = .checkViolation "refunds_amount_cents_check" ∧ request.amountCents ≤ 0 ∨
        error = .uniqueViolation "refunds_pkey" ∧
          request.refundId ∈ before.rows.map Refund.id) := by
  rcases List.append_of_mem member with ⟨newer, earlier, split⟩
  rcases run.standing_of_split split with ⟨reached, next, after, reaches, rfl, stands, executed⟩
  have executed : reached.world.execute call statement = some (.error error, after) := executed
  have issued := (reaches.mayIssue stands).1
  -- A request is refused where it inserts; no other operation has its transaction refused.
  have opens : statement.Transacts → ∃ request : RefundRequest, operation = request.operation ∧
      (error = .checkViolation "refunds_amount_cents_check" ∧ request.amountCents ≤ 0 ∨
        error = .uniqueViolation "refunds_pkey" ∧
          request.refundId ∈ reached.world.rows.map Refund.id) := by
    intro transacts
    have opens := issued.opens transacts
    cases operation with
    | requestRefund refundId chargeId amountCents currency actor reasonCode =>
        let request : RefundRequest :=
          { refundId, chargeId, amountCents, currency, actor, reasonCode }
        have intake := run.respects (intakeContract_upheld hmac) split
        rcases intake.1 request rfl with ⟨_, ⟨⟩, next⟩
        exact ⟨request, rfl, Ledger.refusal_of_request (reaches.request_refused next executed).2⟩
    | handleWebhook => exact (run.delivery_unrefused transacts split).elim
    | approve | submitRefund | recoverSubmitted | reconcile => exact opens.elim
  cases statement with
  | getRefund | selectStuck | selectSettled | begin | rollback | insertWebhookEvent =>
      cases executed
  | updateRefunds update => exact (run.update_ok member).elim
  | recordTransition => exact (run.record_ok member).elim
  | selectAmount refundId =>
      exfalso
      have licensed := run.respects (errorContract_upheld hmac) split
      have known : refundId ∈ reached.world.rows.map Refund.id := Known.mem reaches licensed
      rcases List.mem_map.mp known with ⟨row, inside, rfl⟩
      have found : reached.world.database.refunds.find? row.id = some row :=
        RefundTable.find?_eq_some.mpr ⟨inside, rfl⟩
      simp only [World.execute, World.selectAmount, found] at executed
      cases executed
  | lockCharge | sumRefunds | commit | insertRefund | insertTransition | applyMoved =>
      exact opens trivial

end Run

/-! ## Errors and their causes -/

/-- What an error says, about the call that returned it and the tables it found or has left. -/
def Explained (hmac : Hmac) (trace : List EngineEvent) (world : World) (call : CallId)
    (operation : Operation) : RefundError → Prop
  | .db error =>
      (error = .failed ∧ ∃ statement, .failed call operation (.sql statement) ∈ trace) ∨
      ∃ request : RefundRequest, operation = request.operation ∧
        (error = .checkViolation "refunds_amount_cents_check" ∧ request.amountCents ≤ 0 ∨
          error = .uniqueViolation "refunds_pkey" ∧
            request.refundId ∈ world.rows.map Refund.id)
  | .chargeNotFound chargeId =>
      ∃ request : RefundRequest, operation = request.operation ∧ request.chargeId = chargeId ∧
        ∃ before, .answered call operation (.sql (.lockCharge chargeId)) (.ok none) before ∈ trace ∧
          chargeId ∉ before.charges.map Charge.id
  | .currencyMismatch refund charge =>
      ∃ request : RefundRequest, operation = request.operation ∧ request.currency = refund ∧
        refund ≠ charge ∧ ∃ found ∈ world.charges,
          found.id = request.chargeId ∧ found.currency = charge
  | .overRefund chargeId requested remaining =>
      ∃ request : RefundRequest, operation = request.operation ∧ request.chargeId = chargeId ∧
        request.amountCents = requested ∧ ∃ found ∈ world.charges, found.id = chargeId ∧
        ∃ total before,
          .answered call operation (.sql (.sumRefunds chargeId)) (.ok total) before ∈ trace ∧
          remaining.toInt = before.remaining found ∧ 0 ≤ remaining.toInt ∧
          remaining.toInt < requested.toInt
  | .refundNotFound refundId =>
      ((∃ approver, operation = .approve refundId approver) ∨ operation = .submitRefund refundId) ∧
        ∃ before, .answered call operation (.sql (.getRefund refundId)) (.ok none) before ∈ trace ∧
          refundId ∉ before.rows.map Refund.id
  | .notPendingReview refundId =>
      (∃ approver, operation = .approve refundId approver) ∧ ∃ read before,
        .answered call operation (.sql (.getRefund refundId)) (.ok (some read)) before ∈ trace ∧
        read ∈ before.rows ∧ read.id = refundId ∧ read.status ≠ .pendingReview ∧
        ∃ row ∈ world.rows, Advances read row ∧ row.status ≠ .pendingReview
  | .separationOfDuties approver =>
      ∃ refundId, operation = .approve refundId approver ∧ ∃ read before,
        .answered call operation (.sql (.getRefund refundId)) (.ok (some read)) before ∈ trace ∧
        read ∈ before.rows ∧ read.id = refundId ∧ read.status = .pendingReview ∧
        read.requestedBy = approver ∧ reviewThresholdCents ≤ read.amountCents ∧
        ∃ row ∈ world.rows, Advances read row
  | .badSignature =>
      ∃ event rawBody sig secret, operation = .handleWebhook event rawBody sig secret ∧
        verifySignature hmac rawBody sig secret = false ∧
        own call trace = [.finished call operation (.error .badSignature), .started call operation]

section Explanations

variable {hmac : Hmac} {trace : List EngineEvent} {state : EngineState} {call : CallId}
variable {operation : Operation}

theorem EngineRun.mem_of_read (run : EngineRun hmac trace state) {refundId : Uuid}
    {read : Refund} {before : World}
    (member : .answered call operation (.sql (.getRefund refundId)) (.ok (some read)) before ∈
      trace) : read ∈ before.rows := by
  have found := Except.ok.inj (run.getRefund_answer member)
  exact (RefundTable.find?_eq_some.mp found.symm).1

theorem EngineRun.absent_of_read (run : EngineRun hmac trace state) {refundId : Uuid}
    {before : World}
    (member : .answered call operation (.sql (.getRefund refundId)) (.ok none) before ∈ trace) :
    refundId ∉ before.rows.map Refund.id := by
  have missing := Except.ok.inj (run.getRefund_answer member)
  intro known
  rcases List.mem_map.mp known with ⟨row, inside, same⟩
  rw [RefundTable.find?_eq_some.mpr ⟨inside, same⟩] at missing
  cases missing

theorem EngineRun.taken_since (run : EngineRun hmac trace state) {refundId : Uuid}
    {command : Command} {answer : command.Answer} {before : World}
    (member : .answered call operation command answer before ∈ trace)
    (taken : refundId ∈ before.rows.map Refund.id) :
    refundId ∈ state.world.rows.map Refund.id := by
  rcases run.recalled.seen _ member with ⟨after, _, changed, since⟩
  rcases List.mem_map.mp taken with ⟨row, inside, rfl⟩
  rcases (changed.trans since).forward row inside with ⟨row', inside', advances⟩
  exact List.mem_map.mpr ⟨row', inside', advances.id⟩

theorem absent_of_lock {world after : World} {chargeId : Uuid}
    (executed : world.execute call (.lockCharge chargeId) = some (.ok none, after)) :
    chargeId ∉ world.charges.map Charge.id := by
  intro known
  rcases List.mem_map.mp known with ⟨charge, inside, same⟩
  have found := world.database.charges.find?_of_mem inside same
  cases opened : world.transaction call with
  | none =>
      simp only [World.execute, World.lockCharge, World.inTransaction, opened] at executed
      cases executed
  | some transaction =>
      simp only [World.execute, World.lockCharge, World.inTransaction, opened, found] at executed
      split at executed <;> cases executed

/-- What a request has read was so when it read it, and its charge is there for good. -/
theorem EngineRun.charge_of_reading (run : EngineRun hmac trace state) {earlier : List EngineEvent}
    {reached : EngineState} (reaches : EngineRun hmac earlier reached)
    (inTrace : ∀ event ∈ own call earlier, event ∈ trace) {request : RefundRequest}
    {reading : Reading} (behind : own call earlier = reading.events call request) :
    ∃ charge ∈ state.world.charges, charge.id = request.chargeId ∧
      charge.currency = reading.currency ∧
      (reading.captured - reading.total).toInt = reading.summed.remaining charge ∧
      0 ≤ reading.summed.remaining charge := by
  rw [behind] at inTrace
  have member := inTrace _ (List.mem_cons_self ..)
  rcases reaches.reached_of_own behind with ⟨_, summing, after, run', own', world, executed⟩
  have linked := run'.recalled.linked call
  rw [own', world] at linked
  rcases transaction_of_locked linked (transaction_of_began linked.2) with
    ⟨opened, charge, inside, same, captured, currency⟩
  have ok := run'.worldOk
  rw [world] at ok
  rcases ok.remaining inside with ⟨total, cast, _, remaining, nonneg, _⟩
  simp only [Command.execute, World.execute, World.sumRefunds, World.inTransaction, opened,
    ← same, cast] at executed
  cases executed
  rcases run.recalled.seen _ member with ⟨after, _, changed, since⟩
  refine ⟨charge, (changed.trans since).charges inside, same, currency, ?_, nonneg⟩
  rw [← captured]
  exact remaining

theorem EngineRun.explains_request (run : EngineRun hmac trace state) (request : RefundRequest)
    {error : RefundError} (finished : .finished call request.operation (.error error) ∈ trace)
    (named : ∀ refused, error ≠ .db refused) :
    Explained hmac trace state.world call request.operation error := by
  rcases run.before_finished finished with ⟨earlier, _, reaches, inTrace, _, outcome⟩
  have failure := outcome _ (errorContract_upheld hmac) error rfl
  have refusal := outcome _ (intakeContract_upheld hmac) request rfl
  generalize behind : own call earlier = events at failure refusal
  have clean : lastError events = none := by
    cases failure with
    | lost | refused => exact (named _ rfl).elim
    | judged _ clean => exact clean
  rw [behind] at inTrace
  cases refusal with
  | @missing began locked =>
      have member := inTrace _ (List.mem_cons_self ..)
      refine ⟨request, rfl, rfl, locked, member, ?_⟩
      rcases run.recalled.seen _ member with ⟨after, executed, _, _⟩
      exact absent_of_lock executed
  | @mismatched reading differs =>
      rcases run.charge_of_reading reaches (behind ▸ inTrace) behind with
        ⟨charge, inside, same, currency, _⟩
      exact ⟨request, rfl, rfl, differs, charge, inside, same, currency⟩
  | @exceeded reading rolledBack currency exceeds =>
      rcases reaches.reached_of_own behind with ⟨before, _, _, run', own', _⟩
      have inTrace' : ∀ event ∈ own call before, event ∈ trace := by
        intro event member
        rw [own'] at member
        exact inTrace event (List.mem_cons_of_mem _ member)
      rcases run.charge_of_reading run' inTrace' own' with
        ⟨charge, inside, same, _, remaining, nonneg⟩
      refine ⟨request, rfl, rfl, rfl, charge, inside, same, reading.total, reading.summed, ?_,
        remaining, ?_, Int64.lt_iff_toInt_lt.mp exceeds⟩
      · rw [own'] at inTrace'
        exact inTrace' _ (List.mem_cons_self ..)
      · rw [remaining]
        exact nonneg
  | refused => cases clean
  | lost => cases clean

theorem EngineRun.explains_approval (run : EngineRun hmac trace state) {refundId : Uuid}
    {approver : String} {error : RefundError}
    (finished : .finished call (.approve refundId approver) (.error error) ∈ trace)
    (named : ∀ refused, error ≠ .db refused) :
    Explained hmac trace state.world call (.approve refundId approver) error := by
  rcases run.before_finished finished with ⟨earlier, _, _, inTrace, _, outcome⟩
  have approval := (outcome _ (auditContract_upheld hmac)).2 refundId approver rfl
  generalize own call earlier = events at inTrace approval
  cases approval with
  | @passed read before past =>
      have member := inTrace _ (List.mem_cons_self ..)
      rcases run.row_of_read member with ⟨same, row, inside, advances⟩
      have listed := run.mem_of_read member
      refine ⟨⟨approver, rfl⟩, read, before, member, listed, same, past, row, inside, advances, ?_⟩
      intro pending
      rcases advances.status with unchanged | advanced
      · exact past (unchanged.symm.trans pending)
      · rw [pending] at advanced
        exact absurd advanced (Nat.not_lt_zero _)
  | @own read before pending same =>
      have member := inTrace _ (List.mem_cons_self ..)
      rcases run.row_of_read member with ⟨named, row, inside, advances⟩
      have listed := run.mem_of_read member
      have large : reviewThresholdCents ≤ read.amountCents := by
        apply Int64.not_lt.mp
        intro below
        exact ((run.worldOk_of_answered member).row read listed).small below pending
      exact ⟨refundId, rfl, read, before, member, listed, named, pending, same.symm, large, row,
        inside, advances⟩
  | missing =>
      have member := inTrace _ (List.mem_cons_self ..)
      exact ⟨.inl ⟨approver, rfl⟩, _, member, run.absent_of_read member⟩
  | refused => exact (named _ rfl).elim

end Explanations

/-- Every error that a call returns is explained, whatever ran at the same time.  A call fails
with an error of the database only if a statement of it failed, or if a request asked for an
amount that is not positive or for an identifier that is taken. -/
theorem errors_explained {hmac : Hmac} {trace : List EngineEvent} {state : EngineState}
    {call : CallId} {operation : Operation} {error : RefundError}
    (run : EngineRun hmac trace state)
    (finished : .finished call operation (.error error) ∈ trace) :
    Explained hmac trace state.world call operation error := by
  rcases run.before_finished finished with ⟨earlier, _, _, inTrace, latest, outcome⟩
  have failure := outcome _ (errorContract_upheld hmac) error rfl
  generalize own call earlier = events at inTrace latest failure
  cases failure with
  | lost => exact .inl ⟨rfl, _, inTrace _ (List.mem_cons_self ..)⟩
  | refused =>
      have member := inTrace _ (List.mem_cons_self ..)
      rcases run.refusal member with ⟨request, asks, refusal⟩
      refine .inr ⟨request, asks, refusal.imp_right ?_⟩
      rintro ⟨violated, taken⟩
      exact ⟨violated, run.taken_since member taken⟩
  | judged judging _ named =>
      cases operation with
      | requestRefund refundId chargeId amountCents currency actor reasonCode =>
          exact run.explains_request
            ⟨refundId, chargeId, amountCents, currency, actor, reasonCode⟩ finished named
      | approve refundId approver => exact run.explains_approval finished named
      | submitRefund | recoverSubmitted | handleWebhook | reconcile => exact judging.elim
  | unknown =>
      have member := inTrace _ (List.mem_cons_self ..)
      exact ⟨.inr rfl, _, member, run.absent_of_read member⟩
  | forged forged => exact ⟨_, _, _, _, rfl, forged, latest⟩

/-- Two requests on one charge, of which the second asks for more than is left. -/
def exceeding : List EngineEvent × EngineState :=
  ((engine sampleHmac).play NoCancel
    (uninterrupted 0 (.requestRefund ⟨7⟩ sampleCharge.id 400000 "EUR" "alice" none) 6 ++
      uninterrupted 1 (.requestRefund ⟨8⟩ sampleCharge.id 200000 "EUR" "bob" none) 4)
    ([], initialState sampleCharges {} 10)).get (by decide +kernel)

theorem exceeding_run : EngineRun sampleHmac exceeding.1 exceeding.2 :=
  .of_play (Option.some_get _).symm

theorem errors_explained_exceeding :
    Explained sampleHmac exceeding.1 exceeding.2.world 1
      (.requestRefund ⟨8⟩ sampleCharge.id 200000 "EUR" "bob" none)
      (.overRefund sampleCharge.id 200000 100000) :=
  errors_explained exceeding_run (finished_of_ending (by decide +kernel))

end RefundEngine
