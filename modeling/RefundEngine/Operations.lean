import RefundEngine.Statement

/-!
# Requesting, approving, submitting and recovering refunds

The operations that move a refund towards the gateway, as programs over statements
and gateway calls.  A failed statement ends the operation with its database error, as
the `?` operator does.
-/

namespace RefundEngine

open Interleaving (Program)

/-- A program that may end early with an error of the engine. -/
abbrev Action (α : Type) := ExceptT RefundError (Program Command.Answer) α

/-- The answer of a statement as a result of the engine. -/
def liftDb {α : Type} : Except DbError α → Except RefundError α
  | .ok value => .ok value
  | .error error => .error (.db error)

namespace Action

/-- Execute a statement, passing on its error. -/
def sql (statement : Statement) : Action statement.Value :=
  ExceptT.mk (.call (.sql statement) fun answer => .ret (liftDb answer))

/-- Call the gateway's `create_refund`. -/
def createRefund (amount : Int64) (currency idempotencyKey : String) :
    Action GatewayOutcome :=
  ExceptT.mk (.call (.createRefund amount currency idempotencyKey) fun outcome =>
    .ret (.ok outcome))

/-- Call the gateway's `lookup_by_key`. -/
def lookupByKey (idempotencyKey : String) : Action (Option GatewayRefund) :=
  ExceptT.mk (.call (.lookupByKey idempotencyKey) fun refund => .ret (.ok refund))

end Action

/-- Fetch a refund by id. -/
def getRefund (refundId : Uuid) : Action Refund := do
  match ← Action.sql (.getRefund refundId) with
  | some refund => return refund
  | none => throw (.refundNotFound refundId)

/-- Append a transition row. -/
def recordTransition (refundId : Uuid) (fromStatus : Option Status) (toStatus : Status)
    (actor : String) : Action Unit :=
  Action.sql (.recordTransition refundId fromStatus toStatus actor)

/-- Request a refund against a charge, enforcing the sum of its refunds under a row
lock.  `refundId` is the fresh identifier the request allocates. -/
def requestRefund (refundId chargeId : Uuid) (amountCents : Int64)
    (currency actor : String) (reasonCode : Option String) : Action Uuid := do
  Action.sql .begin
  let charge ← Action.sql (.lockCharge chargeId)
  let (amountCaptured, chargeCurrency) ←
    match charge with
    | some found => pure found
    | none => throw (.chargeNotFound chargeId)
  let refundedSoFar ← Action.sql (.sumRefunds chargeId)
  if currency ≠ chargeCurrency then
    throw (.currencyMismatch currency chargeCurrency)
  let remaining := amountCaptured - refundedSoFar
  if amountCents > remaining then
    Action.sql .rollback
    throw (.overRefund chargeId amountCents remaining)
  let initialStatus : Status :=
    if amountCents ≥ reviewThresholdCents then .pendingReview else .requested
  Action.sql (.insertRefund
    { id := refundId
      chargeId := chargeId
      amountCents := amountCents
      currency := currency
      idempotencyKey := refundId.toString
      reasonCode := reasonCode
      requestedBy := actor
      status := initialStatus })
  Action.sql (.insertTransition refundId initialStatus actor reasonCode)
  Action.sql .commit
  return refundId

/-- Approve a refund sitting in `pending_review`.  The approver must not be the
requester. -/
def approve (refundId : Uuid) (approver : String) : Action Unit := do
  let refund ← getRefund refundId
  if refund.status ≠ .pendingReview then
    throw (.notPendingReview refundId)
  if approver = refund.requestedBy then
    throw (.separationOfDuties approver)
  Action.sql (.updateRefunds (.markRequested refundId))
  recordTransition refundId (some .pendingReview) .requested ("approver:" ++ approver)

/-- Submit a requested refund to the gateway under its own id as the idempotency key.
Returns whether the gateway accepted and a `gateway_ref` was recorded. -/
def submitRefund (refundId : Uuid) : Action Bool := do
  let row ← getRefund refundId
  if row.status = .settled ∨ row.status = .failed ∨ row.status = .canceled then
    return false
  if row.status = .pendingReview then
    return false
  Action.sql (.updateRefunds (.markSubmitted refundId))
  if row.status ≠ .submitted then
    recordTransition refundId (some row.status) .submitted "job:submit"
  match ← Action.createRefund row.amountCents row.currency refundId.toString with
  | .accepted gw =>
      Action.sql (.updateRefunds (.recordRef refundId gw.id))
      return true
  | .dropped | .timedOut => return false

/-- What recovery did, so the headline can be reported. -/
structure RecoveryReport where
  alreadyAtGateway : Nat := 0
  resubmitted : Nat := 0
  walked : Nat := 0
  deriving DecidableEq, Repr

/-- Converge one stuck row: ask the gateway whether it holds the key, and record its
reference or resubmit with the same key. -/
def recoverRow (report : RecoveryReport) (refundId : Uuid) (status : Status) :
    Action RecoveryReport := do
  let report := { report with walked := report.walked + 1 }
  let key := refundId.toString
  match ← Action.lookupByKey key with
  | some gw =>
      Action.sql (.updateRefunds (.recoverRef refundId gw.id))
      recordTransition refundId (some status) .submitted "job:recover"
      return { report with alreadyAtGateway := report.alreadyAtGateway + 1 }
  | none =>
      let (amountCents, currency) ← Action.sql (.selectAmount refundId)
      Action.sql (.updateRefunds (.markSubmitted refundId))
      match ← Action.createRefund amountCents currency key with
      | .accepted gw => Action.sql (.updateRefunds (.recordRef refundId gw.id))
      | .dropped | .timedOut => pure ()
      recordTransition refundId (some status) .submitted "job:recover-resubmit"
      return { report with resubmitted := report.resubmitted + 1 }

/-- The loop over the snapshot of stuck rows. -/
def recoverRows : RecoveryReport → List (Uuid × Status) → Action RecoveryReport
  | report, [] => return report
  | report, (refundId, status) :: stuck => do
      let report ← recoverRow report refundId status
      recoverRows report stuck

/-- Walk every row that could be stuck in the crash window and converge it. -/
def recoverSubmitted : Action RecoveryReport := do
  let stuck ← Action.sql .selectStuck
  recoverRows {} stuck

end RefundEngine
