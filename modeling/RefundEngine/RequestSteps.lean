import RefundEngine.Ledger

/-!
# The steps of a request

What a request has behind it at each of its statements, and what it returns after which of
them.  A webhook runs four statements only.
-/

namespace RefundEngine

open Interleaving (CallId Contract)

/-- What a request has read under the lock of its charge, and where. -/
structure Reading where
  captured : Int64
  currency : String
  total : Int64
  began : World
  locked : World
  summed : World

/-- The request passes the checks. -/
structure Reading.Admits (reading : Reading) (request : RefundRequest) : Prop where
  currency : request.currency = reading.currency
  room : request.amountCents ≤ reading.captured - reading.total

section Events

variable (call : CallId) (request : RefundRequest)

/-- The events of a request that has read its charge and the sum of its refunds. -/
def Reading.events (reading : Reading) : List EngineEvent :=
  [.answered call request.operation (.sql (.sumRefunds request.chargeId)) (.ok reading.total)
      reading.summed,
    .answered call request.operation (.sql (.lockCharge request.chargeId))
      (.ok (some (reading.captured, reading.currency))) reading.locked,
    .answered call request.operation (.sql .begin) (.ok ()) reading.began,
    .started call request.operation]

/-- The events of one that has also inserted its refund. -/
def Reading.inserted (reading : Reading) (inserting : World) : List EngineEvent :=
  .answered call request.operation (.sql (.insertRefund request.newRefund)) (.ok ()) inserting ::
    reading.events call request

/-- The events of one that has also written the audit row. -/
def Reading.recorded (reading : Reading) (inserting recording : World) : List EngineEvent :=
  .answered call request.operation
      (.sql (.insertTransition request.refundId request.initialStatus request.actor
        request.reasonCode)) (.ok ()) recording ::
    reading.inserted call request inserting

/-- The next statement of a request, after its events so far. -/
inductive RequestStep : List EngineEvent → Statement → Prop where
  | begin : RequestStep [.started call request.operation] .begin
  | lockCharge {began : World} :
      RequestStep
        [.answered call request.operation (.sql .begin) (.ok ()) began,
          .started call request.operation] (.lockCharge request.chargeId)
  | sumRefunds {captured : Int64} {currency : String} {began locked : World} :
      RequestStep
        [.answered call request.operation (.sql (.lockCharge request.chargeId))
            (.ok (some (captured, currency))) locked,
          .answered call request.operation (.sql .begin) (.ok ()) began,
          .started call request.operation] (.sumRefunds request.chargeId)
  | rollback {reading : Reading} (currency : request.currency = reading.currency)
      (exceeds : request.amountCents > reading.captured - reading.total) :
      RequestStep (reading.events call request) .rollback
  | insertRefund {reading : Reading} (admits : reading.Admits request) :
      RequestStep (reading.events call request) (.insertRefund request.newRefund)
  | insertTransition {reading : Reading} {inserting : World} (admits : reading.Admits request) :
      RequestStep (reading.inserted call request inserting)
        (.insertTransition request.refundId request.initialStatus request.actor
          request.reasonCode)
  | commit {reading : Reading} {inserting recording : World} (admits : reading.Admits request) :
      RequestStep (reading.recorded call request inserting recording) .commit

/-- What a request returns, after which events. -/
inductive RequestOutcome : Except RefundError Reply → List EngineEvent → Prop where
  | accepted {reading : Reading} {inserting recording committing : World}
      (admits : reading.Admits request) :
      RequestOutcome (.ok (.refundId request.refundId))
        (.answered call request.operation (.sql .commit) (.ok ()) committing ::
          reading.recorded call request inserting recording)
  | missing {began locked : World} :
      RequestOutcome (.error (.chargeNotFound request.chargeId))
        [.answered call request.operation (.sql (.lockCharge request.chargeId)) (.ok none) locked,
          .answered call request.operation (.sql .begin) (.ok ()) began,
          .started call request.operation]
  | mismatched {reading : Reading} (differs : request.currency ≠ reading.currency) :
      RequestOutcome (.error (.currencyMismatch request.currency reading.currency))
        (reading.events call request)
  | exceeded {reading : Reading} {rolledBack : World}
      (currency : request.currency = reading.currency)
      (exceeds : request.amountCents > reading.captured - reading.total) :
      RequestOutcome
        (.error (.overRefund request.chargeId request.amountCents
          (reading.captured - reading.total)))
        (.answered call request.operation (.sql .rollback) (.ok ()) rolledBack ::
          reading.events call request)
  | refused {statement : Statement} {error : DbError} {before : World}
      {events : List EngineEvent} (step : RequestStep call request events statement) :
      RequestOutcome (.error (.db error))
        (.answered call request.operation (.sql statement) (.error error) before :: events)
  | lost {statement : Statement} {error : RefundError} {events : List EngineEvent} :
      RequestOutcome (.error error)
        (.failed call request.operation (.sql statement) :: events)

end Events

/-- The statements of a webhook. -/
def WebhookStatement : Statement → Prop
  | .insertWebhookEvent _ | .begin | .applyMoved _ _ | .commit => True
  | _ => False

/-- Requests keep to their steps and webhooks to their statements. -/
def intakeContract (hmac : Hmac) : Contract (engine hmac) where
  license call operation events command :=
    (∀ request : RefundRequest, operation = request.operation →
      ∃ statement, command = .sql statement ∧ RequestStep call request events statement) ∧
    ∀ event rawBody sig secret, operation = .handleWebhook event rawBody sig secret →
      ∃ statement, command = .sql statement ∧ WebhookStatement statement
  outcome call operation events result :=
    ∀ request : RefundRequest, operation = request.operation →
      RequestOutcome call request result events

section Operations

variable {hmac : Hmac} {call : CallId}

theorem RefundRequest.operation_injective {request other : RefundRequest}
    (same : request.operation = other.operation) : request = other := by
  cases request
  cases other
  simpa [RefundRequest.operation] using same

theorem RequestStep.licensed {request : RefundRequest} {events : List EngineEvent}
    {statement : Statement} (step : RequestStep call request events statement) :
    (intakeContract hmac).license call request.operation events (.sql statement) := by
  constructor
  · intro other same
    rw [← RefundRequest.operation_injective same]
    exact ⟨statement, rfl, step⟩
  · intro event rawBody sig secret same
    cases same

/-- Wherever the action returns it has the outcome of a request. -/
abbrev Requests (hmac : Hmac) (call : CallId) (request : RefundRequest) (action : Action Uuid)
    (events : List EngineEvent) : Prop :=
  Upholds (intakeContract hmac) call request.operation
    (fun result events => RequestOutcome call request (result.map Reply.refundId) events) action
    events

theorem requests_sql {request : RefundRequest} {events : List EngineEvent}
    {statement : Statement} {continuation : statement.Value → Action Uuid}
    (step : RequestStep call request events statement)
    (rest : ∀ value before, Requests hmac call request (continuation value)
      (.answered call request.operation (.sql statement) (.ok value) before :: events)) :
    Requests hmac call request (Action.sql statement >>= continuation) events := by
  apply upholds_sql step.licensed
  · intro value before after executed
    exact rest value before
  · intro error before after executed
    exact .refused step
  · exact .lost

theorem requestRefund_requests (request : RefundRequest) :
    Requests hmac call request
      (requestRefund request.refundId request.chargeId request.amountCents request.currency
        request.actor request.reasonCode)
      [.started call request.operation] := by
  unfold requestRefund
  refine requests_sql .begin ?_
  intro _ began
  refine requests_sql .lockCharge ?_
  intro charge locked
  cases charge with
  | none => exact upholds_bind (upholds_throw .missing)
  | some found =>
      apply upholds_bind (upholds_pure _)
      refine requests_sql .sumRefunds ?_
      intro total summed
      by_cases mismatch : request.currency ≠ found.2
      · simp only [if_pos mismatch]
        have mismatched : RequestOutcome call request _
            (Reading.events call request ⟨found.1, found.2, total, began, locked, summed⟩) :=
          .mismatched mismatch
        exact upholds_bind (upholds_throw mismatched)
      simp only [if_neg mismatch]
      have currency := not_not.mp mismatch
      by_cases exceeds : request.amountCents > found.1 - total
      · simp only [if_pos exceeds]
        have rollback : RequestStep call request
            (Reading.events call request ⟨found.1, found.2, total, began, locked, summed⟩)
            .rollback := .rollback currency exceeds
        refine requests_sql rollback ?_
        intro _ rolledBack
        have exceeded : RequestOutcome call request _
            (.answered call request.operation (.sql .rollback) (.ok ()) rolledBack ::
              Reading.events call request ⟨found.1, found.2, total, began, locked, summed⟩) :=
          .exceeded currency exceeds
        exact upholds_bind (upholds_throw exceeded)
      simp only [if_neg exceeds]
      have admits : Reading.Admits ⟨found.1, found.2, total, began, locked, summed⟩ request :=
        ⟨currency, Int64.not_lt.mp exceeds⟩
      refine requests_sql (.insertRefund admits) ?_
      intro _ inserting
      refine requests_sql (.insertTransition admits) ?_
      intro _ recording
      refine requests_sql (.commit admits) ?_
      intro _ committing
      exact upholds_pure (.accepted admits)

section Webhook

variable {event : WebhookEvent} {rawBody : Bytes} {sig : String} {secret : Bytes}
variable {events : List EngineEvent} {α : Type}

theorem delivers_sql {statement : Statement} {continuation : statement.Value → Action α}
    (runs : WebhookStatement statement)
    (rest : ∀ value before, Upholds (intakeContract hmac) call
      (.handleWebhook event rawBody sig secret) (fun _ _ => True) (continuation value)
      (.answered call (.handleWebhook event rawBody sig secret) (.sql statement) (.ok value)
        before :: events)) :
    Upholds (intakeContract hmac) call (.handleWebhook event rawBody sig secret) (fun _ _ => True)
      (Action.sql statement >>= continuation) events := by
  apply upholds_sql
  · constructor
    · intro request same
      cases same
    · intro _ _ _ _ _
      exact ⟨statement, rfl, runs⟩
  · intro value before after executed
    exact rest value before
  · intro error before after executed
    trivial
  · trivial

theorem handleWebhook_delivers :
    Upholds (intakeContract hmac) call (.handleWebhook event rawBody sig secret) (fun _ _ => True)
      (handleWebhook hmac event rawBody sig secret) events := by
  rw [handleWebhook_eq]
  by_cases forged : verifySignature hmac rawBody sig secret = false
  · simp only [if_pos forged]
    exact upholds_bind (upholds_throw trivial)
  simp only [if_neg forged]
  refine delivers_sql trivial ?_
  intro inserted deduped
  cases inserted with
  | none => exact upholds_pure trivial
  | some seen =>
      refine delivers_sql trivial ?_
      intro _ began
      rw [WebhookEvent.conclude]
      split
      · refine delivers_sql trivial ?_
        intro _ applied
        refine delivers_sql trivial ?_
        intro _ committed
        exact upholds_pure trivial
      · refine delivers_sql trivial ?_
        intro _ committed
        exact upholds_pure trivial

end Webhook

theorem intakeContract_upheld (hmac : Hmac) : (intakeContract hmac).Upheld := by
  intro call operation
  have free : (∀ request : RefundRequest, operation ≠ request.operation) →
      (∀ event rawBody sig secret, operation ≠ .handleWebhook event rawBody sig secret) →
      (intakeContract hmac).Obeys call operation
        (fun result events => (intakeContract hmac).outcome call operation events result)
        ((engine hmac).program operation) [.started call operation] := by
    intro noRequest noWebhook
    apply Contract.obeys_of_free
    · intro events command
      constructor
      · intro request same
        exact (noRequest request same).elim
      · intro event rawBody sig secret same
        exact (noWebhook event rawBody sig secret same).elim
    · intro result events request same
      exact (noRequest request same).elim
  cases operation with
  | requestRefund refundId chargeId amountCents currency actor reasonCode =>
      let request : RefundRequest :=
        ⟨refundId, chargeId, amountCents, currency, actor, reasonCode⟩
      apply upholds_map
      apply (requestRefund_requests request).mono
      intro result events outcome other same
      have isRequest : request = other := RefundRequest.operation_injective same
      rw [← isRequest]
      exact outcome
  | handleWebhook event rawBody sig secret =>
      apply upholds_map
      apply handleWebhook_delivers.mono
      intro result events _ request same
      cases same
  | approve | submitRefund | recoverSubmitted | reconcile =>
      apply free
      · intro request same
        cases same
      · intro event rawBody sig secret same
        cases same

end Operations

/-- The charge is the one that was read. -/
structure Reading.Read (reading : Reading) (request : RefundRequest) (world : World)
    (charge : Charge) : Prop where
  member : charge ∈ world.charges
  id : charge.id = request.chargeId
  captured : charge.amountCaptured = reading.captured
  currency : charge.currency = reading.currency

namespace Reading

variable {hmac : Hmac} {call : CallId} {request : RefundRequest} {reading : Reading}
variable {world inserting recording : World} {charge : Charge}

theorem Read.mono {after : World} (read : reading.Read request world charge)
    (charges : world.charges ⊆ after.charges) : reading.Read request after charge :=
  { read with member := charges read.member }

theorem Read.found (read : reading.Read request world charge) :
    world.database.charges.find? request.chargeId = some charge :=
  world.database.charges.find?_of_mem read.member read.id

/-- After its reading a request has written nothing and holds the lock. -/
theorem of_events (linked : (engineRegime hmac).Linked (reading.events call request) world) :
    world.transaction call =
        some { began := reading.began.now, chargeLock := some request.chargeId } ∧
      ∃ charge, reading.Read request world charge := by
  have opened := transaction_of_began linked.2.2
  rcases transaction_of_locked linked.2 opened with
    ⟨locked, charge, member, same, captured, currency⟩
  rcases transaction_of_summed linked locked rfl with ⟨summed, charges, _, _⟩
  exact ⟨summed, charge, charges member, same, captured, currency⟩

/-- While it holds the lock, what it has found room for still fits. -/
theorem fits (linked : (engineRegime hmac).Linked (reading.events call request) world)
    (admits : reading.Admits request) (read : reading.Read request world charge) :
    request.amountCents.toInt ≤ world.remaining charge := by
  have opened := transaction_of_began linked.2.2
  rcases transaction_of_locked linked.2 opened with ⟨locked, _⟩
  rcases transaction_of_summed linked locked rfl with ⟨_, _, nonneg, bound⟩
  have captured : 0 ≤ reading.captured.toInt := by
    rw [← read.captured]
    simpa using Int64.le_iff_toInt_le.mp charge.amountCaptured_nonneg
  have room := Int64.le_iff_toInt_le.mp admits.room
  rw [toInt_remaining captured nonneg] at room
  rw [World.remaining, read.id, read.captured]
  omega

theorem of_inserted
    (linked : (engineRegime hmac).Linked (reading.inserted call request inserting) world) :
    ∃ positive, world.transaction call =
        some
          { began := reading.began.now
            chargeLock := some request.chargeId
            refundWrites := [.insert (request.row positive reading.began.now)] } ∧
      ∃ charge, reading.Read request world charge := by
  rcases linked with ⟨⟨after, executed, rely⟩, earlier⟩
  rcases of_events earlier with ⟨opened, charge, read⟩
  simp only [engine, Command.execute, World.execute, World.insertRefund, World.inTransaction,
    opened, List.nil_append] at executed
  repeat' split at executed
  all_goals cases executed
  rename_i positive _ _ _
  refine ⟨positive, ?_, charge, ?_⟩
  · rw [rely.own, World.transaction_setTransaction_self]
    rfl
  · exact read.mono rely.charges

theorem of_recorded
    (linked : (engineRegime hmac).Linked (reading.recorded call request inserting recording)
      world) :
    ∃ positive audit, world.transaction call =
        some
          { began := reading.began.now
            chargeLock := some request.chargeId
            refundWrites := [.insert (request.row positive reading.began.now)]
            transitionWrites := [audit] } ∧
      audit.refundId = request.refundId ∧ audit.line = request.line ∧
      ∃ charge, reading.Read request world charge := by
  rcases linked with ⟨⟨after, executed, rely⟩, earlier⟩
  rcases of_inserted earlier with ⟨positive, opened, charge, read⟩
  simp only [engine, Command.execute, World.execute, World.insertTransition,
    World.inTransaction, opened, List.nil_append] at executed
  split at executed
  · cases executed
    let audit : Transition :=
      { id := recording.database.nextTransition
        refundId := request.refundId
        fromStatus := none
        toStatus := request.initialStatus
        actor := request.actor
        reason := request.reasonCode }
    refine ⟨positive, audit, ?_, rfl, rfl, charge, read.mono rely.charges⟩
    rw [rely.own, World.transaction_advanceSequence, World.transaction_setTransaction_self]
  · cases executed

end Reading

end RefundEngine
