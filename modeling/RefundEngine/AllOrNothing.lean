import RefundEngine.Audit.OneAtATime

/-!
# Requesting a refund is all or nothing

Run without interference, `request_refund` accepts exactly what fits its charge, and either
adds one refund with its audit row or changes no table, also when a statement of it fails.
-/

namespace RefundEngine

open Interleaving (CallId Event Machine)

/-- The arguments of a request, with the identifier it allocates. -/
structure RefundRequest where
  refundId : Uuid
  chargeId : Uuid
  amountCents : Int64
  currency : String
  actor : String
  reasonCode : Option String
  deriving DecidableEq

/-- The operation it asks for. -/
def RefundRequest.operation (request : RefundRequest) : Operation :=
  .requestRefund request.refundId request.chargeId request.amountCents request.currency
    request.actor request.reasonCode

/-- The status its refund starts with. -/
def RefundRequest.initialStatus (request : RefundRequest) : Status :=
  if request.amountCents ≥ reviewThresholdCents then .pendingReview else .requested

/-- The columns it binds. -/
def RefundRequest.newRefund (request : RefundRequest) : NewRefund where
  id := request.refundId
  chargeId := request.chargeId
  amountCents := request.amountCents
  currency := request.currency
  idempotencyKey := request.refundId.toString
  reasonCode := request.reasonCode
  requestedBy := request.actor
  status := request.initialStatus

/-- The texts it gives are ones that the server takes. -/
def RefundRequest.Storable (request : RefundRequest) : Prop :=
  ∀ text ∈ request.currency :: request.actor :: request.reasonCode.toList,
    RefundEngine.Storable text

theorem RefundRequest.storable_iff {request : RefundRequest} :
    request.Storable ↔
      ∀ text ∈ (Statement.insertRefund request.newRefund).texts, RefundEngine.Storable text := by
  simp only [RefundRequest.Storable, Statement.texts, newRefund, List.forall_mem_cons,
    request.refundId.storable_toString, true_and]

/-- The row it inserts; the unset columns take their defaults. -/
def RefundRequest.row (request : RefundRequest) (positive : 0 < request.amountCents)
    (began : Timestamp) : Refund where
  id := request.refundId
  chargeId := request.chargeId
  amountCents := request.amountCents
  currency := request.currency
  idempotencyKey := request.refundId.toString
  gatewayRef := none
  status := request.initialStatus
  reasonCode := request.reasonCode
  requestedBy := request.actor
  failureReason := none
  createdAt := began
  updatedAt := began
  amountCents_pos := positive

/-- What is left of a charge: what was captured, less its refunds that are neither failed
nor canceled. -/
def World.remaining (world : World) (charge : Charge) : Int :=
  charge.amountCaptured.toInt - refundedSoFar world.rows charge.id

/-- What a request deserves, as one check. -/
def RefundRequest.verdict (request : RefundRequest) (world : World) :
    Except RefundError Unit :=
  match world.database.charges.find? request.chargeId with
  | none => .error (.chargeNotFound request.chargeId)
  | some charge =>
      if request.currency ≠ charge.currency then
        .error (.currencyMismatch request.currency charge.currency)
      else if world.remaining charge < request.amountCents.toInt then
        .error (.overRefund request.chargeId request.amountCents
          (Int64.ofInt (world.remaining charge)))
      else if 0 < request.amountCents.toInt then .ok ()
      else .error (.db (.checkViolation "refunds_amount_cents_check"))

/-- The row a request inserts. -/
structure RequestedRow (request : RefundRequest) (row : Refund) : Prop where
  id : row.id = request.refundId
  chargeId : row.chargeId = request.chargeId
  amountCents : row.amountCents = request.amountCents
  currency : row.currency = request.currency
  idempotencyKey : row.idempotencyKey = request.refundId.toString
  gatewayRef : row.gatewayRef = none
  status : row.status = request.initialStatus
  reasonCode : row.reasonCode = request.reasonCode
  requestedBy : row.requestedBy = request.actor
  failureReason : row.failureReason = none

/-- The audit row it comes with. -/
structure RequestedAudit (request : RefundRequest) (audit : Transition) : Prop where
  refundId : audit.refundId = request.refundId
  fromStatus : audit.fromStatus = none
  toStatus : audit.toStatus = request.initialStatus
  actor : audit.actor = request.actor
  reason : audit.reason = request.reasonCode

/-- The tables, the gateway and the open transactions are as they were.  A sequence may have
advanced. -/
structure Untouched (before after : World) : Prop where
  charges : after.database.charges = before.database.charges
  refunds : after.database.refunds = before.database.refunds
  transitions : after.database.transitions = before.database.transitions
  webhookEvents : after.database.webhookEvents = before.database.webhookEvents
  gateway : after.gateway = before.gateway
  transactions : ∀ call, after.transaction call = before.transaction call

/-- One refund and one audit row have been added, and nothing else has changed. -/
structure Accepted (request : RefundRequest) (before after : World) : Prop where
  refund : ∃ row, RequestedRow request row ∧ after.rows = before.rows ++ [row]
  audit : ∃ audit, RequestedAudit request audit ∧
    after.database.transitions = before.database.transitions ++ [audit]
  charges : after.database.charges = before.database.charges
  webhookEvents : after.database.webhookEvents = before.database.webhookEvents
  gateway : after.gateway = before.gateway
  transactions : ∀ call, after.transaction call = before.transaction call

section Arithmetic

variable {world : World} {charge : Charge}

/-- The sum over a charge fits its type, subtracting it does not overflow, and what remains
is between nothing and everything. -/
theorem WorldOk.remaining (ok : WorldOk world) (member : charge ∈ world.charges) :
    ∃ total, castBigint (refundedSoFar world.rows charge.id) = .ok total ∧
      total.toInt = refundedSoFar world.rows charge.id ∧
      (charge.amountCaptured - total).toInt = world.remaining charge ∧
      0 ≤ world.remaining charge ∧ world.remaining charge ≤ charge.amountCaptured.toInt := by
  have lower := refundedSoFar_nonneg world.rows charge.id
  have upper := ok.captured charge member
  have limit := charge.amountCaptured.toInt_lt
  have fits : castBigint (refundedSoFar world.rows charge.id) =
      .ok (Int64.ofInt (refundedSoFar world.rows charge.id)) := by
    apply if_pos
    omega
  have total := castBigint_eq_ok fits
  have captured : 0 ≤ charge.amountCaptured.toInt := by omega
  refine ⟨_, fits, total, ?_, ?_, ?_⟩
  · rw [toInt_remaining captured (by omega), total]
    rfl
  · simp only [World.remaining]
    omega
  · simp only [World.remaining]
    omega

/-- The request is in order exactly when the charge exists, the currencies agree and the
amount is positive and fits. -/
theorem verdict_eq_ok_iff {request : RefundRequest} :
    request.verdict world = .ok () ↔
      ∃ charge ∈ world.charges, charge.id = request.chargeId ∧
        request.currency = charge.currency ∧ 0 < request.amountCents.toInt ∧
        request.amountCents.toInt ≤ world.remaining charge := by
  constructor
  · intro accepted
    simp only [RefundRequest.verdict] at accepted
    cases found : world.database.charges.find? request.chargeId with
    | none =>
        rw [found] at accepted
        cases accepted
    | some charge =>
        rcases ChargeTable.mem_of_find? found with ⟨member, same⟩
        simp only [found] at accepted
        by_cases mismatch : request.currency ≠ charge.currency
        · simp only [if_pos mismatch] at accepted
          cases accepted
        by_cases exceeds : world.remaining charge < request.amountCents.toInt
        · simp only [if_neg mismatch, if_pos exceeds] at accepted
          cases accepted
        by_cases positive : 0 < request.amountCents.toInt
        · exact ⟨charge, member, same, not_not.mp mismatch, positive, not_lt.mp exceeds⟩
        · simp only [if_neg mismatch, if_neg exceeds, if_neg positive] at accepted
          cases accepted
  · rintro ⟨charge, member, same, currency, positive, fits⟩
    have found := world.database.charges.find?_of_mem member same
    simp only [RefundRequest.verdict, found, currency, ne_eq,
      not_true_eq_false, ↓reduceIte, if_neg (not_lt.mpr fits), if_pos positive]

end Arithmetic

/-! ## The statements of a request -/

/-- The request has made these writes in its transaction and changed nothing else. -/
structure Working (call : CallId) (before : World) (refundWrites : List RefundWrite)
    (transitionWrites : List Transition) (world : World) : Prop where
  charges : world.database.charges = before.database.charges
  refunds : world.database.refunds = before.database.refunds
  transitions : world.database.transitions = before.database.transitions
  webhookEvents : world.database.webhookEvents = before.database.webhookEvents
  gateway : world.gateway = before.gateway
  others : ∀ other, other ≠ call → world.transaction other = before.transaction other
  opened : ∃ transaction, world.transaction call = some transaction ∧
    transaction.refundWrites = refundWrites ∧ transaction.transitionWrites = transitionWrites

section Statements

variable {call : CallId} {before world after : World} {refundWrites : List RefundWrite}
variable {transitionWrites : List Transition}

theorem untouched_endTransaction (charges : world.database.charges = before.database.charges)
    (refunds : world.database.refunds = before.database.refunds)
    (transitions : world.database.transitions = before.database.transitions)
    (webhookEvents : world.database.webhookEvents = before.database.webhookEvents)
    (gateway : world.gateway = before.gateway)
    (others : ∀ other, other ≠ call → world.transaction other = before.transaction other)
    (idle : before.transaction call = none) : Untouched before (world.endTransaction call) where
  charges := charges
  refunds := refunds
  transitions := transitions
  webhookEvents := webhookEvents
  gateway := gateway
  transactions other := by
    by_cases own : other = call
    · rw [own, World.transaction_endTransaction_self, idle]
    · rw [World.transaction_endTransaction_of_ne _ own]
      exact others other own

theorem Working.untouched (working : Working call before refundWrites transitionWrites world)
    (idle : before.transaction call = none) : Untouched before (world.endTransaction call) :=
  untouched_endTransaction working.charges working.refunds working.transitions
    working.webhookEvents working.gateway working.others idle

theorem Working.rows (working : Working call before refundWrites transitionWrites world) :
    world.rows = before.rows :=
  congrArg RefundTable.rows working.refunds

theorem Working.write (working : Working call before refundWrites transitionWrites world)
    {transaction : Transaction} {refundWrites' : List RefundWrite}
    {transitionWrites' : List Transition} (writes : transaction.refundWrites = refundWrites')
    (audits : transaction.transitionWrites = transitionWrites') :
    Working call before refundWrites' transitionWrites'
      (world.setTransaction call transaction) where
  charges := working.charges
  refunds := working.refunds
  transitions := working.transitions
  webhookEvents := working.webhookEvents
  gateway := working.gateway
  others other different := by
    rw [World.transaction_setTransaction_of_ne _ _ different]
    exact working.others other different
  opened := ⟨transaction, World.transaction_setTransaction_self _ _ _, writes, audits⟩

theorem Working.advanceSequence
    (working : Working call before refundWrites transitionWrites world) (count : Nat) :
    Working call before refundWrites transitionWrites (world.advanceSequence count) :=
  ⟨working.charges, working.refunds, working.transitions, working.webhookEvents,
    working.gateway, working.others, working.opened⟩

theorem working_begin (call : CallId) (world : World) :
    Working call world [] [] (world.begin call) where
  charges := rfl
  refunds := rfl
  transitions := rfl
  webhookEvents := rfl
  gateway := rfl
  others _ different := World.transaction_setTransaction_of_ne _ _ different
  opened := ⟨_, World.transaction_setTransaction_self _ _ _, rfl, rfl⟩

theorem Working.lockCharge (working : Working call before [] [] world) {id : Uuid}
    {answer : Except DbError (Option (Int64 × String))}
    (executed : world.execute call (.lockCharge id) = some (answer, after)) :
    answer = .ok ((before.database.charges.find? id).map fun charge =>
      (charge.amountCaptured, charge.currency)) ∧ Working call before [] [] after := by
  rcases working.opened with ⟨transaction, opened, writes, audits⟩
  simp only [World.execute, World.lockCharge, World.inTransaction, opened,
    working.charges] at executed
  cases found : before.database.charges.find? id with
  | none =>
      simp only [found] at executed
      cases executed
      exact ⟨rfl, working⟩
  | some charge =>
      simp only [found] at executed
      split at executed
      · cases executed
      · cases executed
        constructor
        · rfl
        · exact working.write writes audits

theorem Working.sumRefunds (working : Working call before [] [] world) {id : Uuid}
    {answer : Except DbError Int64}
    (executed : world.execute call (.sumRefunds id) = some (answer, after)) :
    answer = castBigint (refundedSoFar before.rows id) ∧ after = world := by
  rcases working.opened with ⟨transaction, opened, _, _⟩
  simp only [World.execute, World.sumRefunds, World.inTransaction, opened, working.rows,
    Option.some.injEq, Prod.mk.injEq] at executed
  exact ⟨executed.1.symm, executed.2.symm⟩

theorem WorldOk.key_unused (ok : WorldOk world) {id : Uuid}
    (unused : id ∉ world.rows.map Refund.id) :
    id.toString ∉ world.rows.map Refund.idempotencyKey := by
  intro used
  rcases List.mem_map.mp used with ⟨row, member, same⟩
  rw [(ok.row row member).key] at same
  exact unused (Uuid.toString_injective same ▸ List.mem_map_of_mem member)

/-- The insert is accepted exactly when the amount is positive. -/
theorem Working.insertRefund (working : Working call before [] [] world)
    {request : RefundRequest} (ok : WorldOk before)
    (charged : before.database.charges.find? request.chargeId ≠ none)
    (unused : request.refundId ∉ before.rows.map Refund.id) {answer : Except DbError Unit}
    (executed : world.execute call (.insertRefund request.newRefund) = some (answer, after)) :
    (0 < request.amountCents.toInt ∧ answer = .ok () ∧
      ∃ row, RequestedRow request row ∧ Working call before [.insert row] [] after) ∨
    (¬0 < request.amountCents.toInt ∧
      answer = .error (.checkViolation "refunds_amount_cents_check") ∧ after = world) := by
  rcases working.opened with ⟨transaction, opened, writes, audits⟩
  simp only [World.execute, World.insertRefund, World.inTransaction, opened] at executed
  split at executed
  · cases executed
  split at executed
  · rename_i positive
    left
    have known : ¬(world.database.charges.find? request.newRefund.chargeId).isNone = true := by
      rw [working.charges, Option.isNone_iff_eq_none]
      exact charged
    have fresh : ¬(request.newRefund.id ∈ world.rows.map Refund.id ∨
        request.newRefund.id ∈ transaction.insertedRows) := by
      rw [working.rows, Transaction.insertedRows, writes]
      rintro (used | used)
      · exact unused used
      · cases used
    have freshKey : request.newRefund.idempotencyKey ∉
        world.rows.map Refund.idempotencyKey := by
      rw [working.rows]
      exact ok.key_unused unused
    simp only [if_neg known, if_neg fresh, if_neg freshKey] at executed
    cases executed
    have positive' : 0 < request.amountCents := positive
    refine ⟨by simpa using Int64.lt_iff_toInt_lt.mp positive', rfl, ?_⟩
    refine ⟨request.row positive' transaction.began,
      ⟨rfl, rfl, rfl, rfl, rfl, rfl, rfl, rfl, rfl, rfl⟩, ?_⟩
    apply working.write
    · rw [writes]
      rfl
    · exact audits
  · rename_i notPositive
    cases executed
    right
    refine ⟨?_, rfl, rfl⟩
    intro positive
    have positive' : 0 < request.amountCents :=
      Int64.lt_iff_toInt_lt.mpr (by simpa using positive)
    exact notPositive positive'

theorem Working.insertTransition {row : Refund} {request : RefundRequest}
    (working : Working call before [.insert row] [] world) (requested : RequestedRow request row)
    {answer : Except DbError Unit}
    (executed : world.execute call (.insertTransition request.refundId request.initialStatus
      request.actor request.reasonCode) = some (answer, after)) :
    answer = .ok () ∧ ∃ audit, RequestedAudit request audit ∧
      Working call before [.insert row] [audit] after := by
  rcases working.opened with ⟨transaction, opened, writes, audits⟩
  have inserted : request.refundId ∈ transaction.insertedRows := by
    simp [Transaction.insertedRows, writes, requested.id]
  simp only [World.execute, World.insertTransition, World.inTransaction, opened,
    if_pos (Or.inr inserted : request.refundId ∈ world.rows.map Refund.id ∨ _)] at executed
  cases executed
  let audit : Transition :=
    { id := world.database.nextTransition
      refundId := request.refundId
      fromStatus := none
      toStatus := request.initialStatus
      actor := request.actor
      reason := request.reasonCode }
  refine ⟨rfl, audit, ⟨rfl, rfl, rfl, rfl, rfl⟩, ?_⟩
  apply Working.advanceSequence
  apply working.write
  · exact writes
  · rw [audits]
    rfl

/-- The commit adds the row and its audit row. -/
theorem Working.commit {row : Refund} {audit : Transition} {request : RefundRequest}
    (working : Working call before [.insert row] [audit] world) (ok : WorldOk before)
    (idle : before.transaction call = none) (requested : RequestedRow request row)
    (audited : RequestedAudit request audit)
    (unused : request.refundId ∉ before.rows.map Refund.id) {answer : Except DbError Unit}
    (executed : world.execute call .commit = some (answer, after)) :
    answer = .ok () ∧ Accepted request before (after.endTransaction call) := by
  rcases working.opened with ⟨transaction, opened, writes, audits⟩
  have idUnused : row.id ∉ world.database.refunds.rows.map Refund.id := by
    rw [requested.id, working.refunds]
    exact unused
  have keyUnused : row.idempotencyKey ∉
      world.database.refunds.rows.map Refund.idempotencyKey := by
    rw [requested.idempotencyKey, working.refunds]
    exact ok.key_unused unused
  have refs : ((world.database.refunds.rows ++ [row]).filterMap Refund.gatewayRef).Nodup := by
    rw [List.filterMap_append]
    simpa [requested.gatewayRef] using world.database.refunds.refs_nodup
  have inserted : ∃ refunds, world.database.refunds.insert row = .ok refunds := by
    simp only [RefundTable.insert, dif_neg idUnused, dif_neg keyUnused, dif_pos refs]
    exact ⟨_, rfl⟩
  rcases inserted with ⟨refunds, inserted⟩
  have written : transaction.refundWrites.foldlM RefundTable.write world.database.refunds =
      .ok refunds := by
    rw [writes]
    simp only [List.foldlM_cons, List.foldlM_nil, RefundTable.write, inserted]
    rfl
  cases answer with
  | error error =>
      rcases execute_commit opened written with ⟨_, committed, _⟩
      cases executed.symm.trans committed
  | ok value =>
      rcases commit_ok executed with ⟨transaction', refunds', opened', written', rfl⟩
      cases opened.symm.trans opened'
      cases written.symm.trans written'
      refine ⟨rfl, ⟨row, requested, ?_⟩, ⟨audit, audited, ?_⟩, working.charges,
        working.webhookEvents, working.gateway, ?_⟩
      · have rows := (RefundTable.rows_of_insert inserted).1
        rw [← working.rows]
        exact rows
      · rw [← working.transitions, ← audits]
        rfl
      · intro other
        by_cases own : other = call
        · rw [own, World.transaction_endTransaction_self, idle]
        · rw [World.transaction_endTransaction_of_ne _ own]
          exact (World.transaction_endTransaction_of_ne world own).trans
            (working.others other own)

end Statements

/-- What a request that returned has met: its verdict, or a failed statement. -/
def Judged (request : RefundRequest) (call : CallId) (before : World) :
    Except RefundError Uuid → List EngineEvent → World → Prop
  | .ok id, events, world =>
      id = request.refundId ∧ request.verdict before = .ok () ∧
        Accepted request before (world.endTransaction call) ∧
        ∃ inserting, .answered call request.operation
          (.sql (.insertRefund request.newRefund)) (.ok ()) inserting ∈ events
  | .error error, events, world =>
      Untouched before (world.endTransaction call) ∧
        (request.verdict before = .error error ∨
          error = .db .failed ∧
            ∃ command, .failed call request.operation command ∈ events)

section Walk

variable {hmac : Hmac} {request : RefundRequest} {call : CallId} {before world : World}
variable {refundWrites : List RefundWrite} {transitionWrites : List Transition}
variable {events : List EngineEvent}

/-- Wherever the action returns it meets its verdict. -/
abbrev Judges (hmac : Hmac) (request : RefundRequest) (call : CallId) (before : World)
    (action : Action Uuid) (events : List EngineEvent) (world : World) : Prop :=
  (engine hmac).Withstands call request.operation (fun _ _ => True)
    (Judged request call before) action.run events world

/-- A statement: when it fails nothing has changed, and any answer is judged. -/
theorem judges_sql {statement : Statement} {continuation : statement.Value → Action Uuid}
    (untouched : Untouched before (world.endTransaction call))
    (errors : ∀ error after, world.execute call statement = some (.error error, after) →
      Judged request call before (.error (.db error))
        (.answered call request.operation (.sql statement) (.error error) world :: events) after)
    (rest : ∀ value after, world.execute call statement = some (.ok value, after) →
      Judges hmac request call before (continuation value)
        (.answered call request.operation (.sql statement) (.ok value) world :: events) after) :
    Judges hmac request call before (Action.sql statement >>= continuation) events world := by
  apply Machine.Withstands.bind
  constructor
  · trivial
  constructor
  · intro answer after executed
    cases answer with
    | ok value => exact rest value after executed
    | error error => exact errors error after executed
  · intro answer fails
    cases fails
    exact ⟨untouched, .inr ⟨rfl, _, List.mem_cons_self ..⟩⟩

theorem judges_working {statement : Statement} {continuation : statement.Value → Action Uuid}
    (working : Working call before refundWrites transitionWrites world)
    (idle : before.transaction call = none)
    (succeeds : ∀ error after, world.execute call statement ≠ some (.error error, after))
    (rest : ∀ value after, world.execute call statement = some (.ok value, after) →
      Judges hmac request call before (continuation value)
        (.answered call request.operation (.sql statement) (.ok value) world :: events) after) :
    Judges hmac request call before (Action.sql statement >>= continuation) events world := by
  apply judges_sql (working.untouched idle) _ rest
  intro error after executed
  exact (succeeds error after executed).elim

/-- What remains to be done once the request is known to fit. -/
theorem insert_judges (ok : WorldOk before) (idle : before.transaction call = none)
    (unused : request.refundId ∉ before.rows.map Refund.id) {charge : Charge}
    (found : before.database.charges.find? request.chargeId = some charge)
    (verdict : request.verdict before =
      if 0 < request.amountCents.toInt then .ok ()
      else .error (.db (.checkViolation "refunds_amount_cents_check")))
    (working : Working call before [] [] world) :
    Judges hmac request call before
      (do
        Action.sql (.insertRefund request.newRefund)
        Action.sql (.insertTransition request.refundId request.initialStatus request.actor
          request.reasonCode)
        Action.sql .commit
        return request.refundId)
      events world := by
  have charged : before.database.charges.find? request.chargeId ≠ none := by simp [found]
  apply judges_sql (working.untouched idle)
  · intro error after executed
    rcases working.insertRefund ok charged unused executed with
      ⟨_, succeeded, _⟩ | ⟨notPositive, refused, rfl⟩
    · cases succeeded
    · cases refused
      rw [if_neg notPositive] at verdict
      exact ⟨working.untouched idle, .inl verdict⟩
  intro _ inserted executed
  rcases working.insertRefund ok charged unused executed with
    ⟨positive, _, row, requested, working⟩ | ⟨_, refused, _⟩
  case inr => cases refused
  rw [if_pos positive] at verdict
  apply judges_working working idle
  · intro error after executed
    cases (working.insertTransition requested executed).1
  intro _ audited executed
  rcases working.insertTransition requested executed with ⟨_, audit, isAudit, working⟩
  apply judges_working working idle
  · intro error after executed
    cases (working.commit ok idle requested isAudit unused executed).1
  intro _ committed executed
  refine ⟨rfl, verdict, (working.commit ok idle requested isAudit unused executed).2, world, ?_⟩
  exact List.mem_cons_of_mem _ (List.mem_cons_of_mem _ (List.mem_cons_self ..))

/-- The request, from a world it shares with open transactions of others. -/
theorem requestRefund_judges (ok : WorldOk before) (idle : before.transaction call = none)
    (unused : request.refundId ∉ before.rows.map Refund.id) :
    Judges hmac request call before
      (requestRefund request.refundId request.chargeId request.amountCents request.currency
        request.actor request.reasonCode) events before := by
  unfold requestRefund
  apply judges_sql
  · exact untouched_endTransaction rfl rfl rfl rfl rfl (fun _ _ => rfl) idle
  · intro error after executed
    cases executed
  intro _ begun executed
  cases executed
  have working := working_begin call before
  apply judges_working working idle
  · intro error after executed
    cases (working.lockCharge executed).1
  intro charge locked executed
  rcases working.lockCharge executed with ⟨read, working⟩
  cases read
  cases found : before.database.charges.find? request.chargeId with
  | none =>
      refine ⟨working.untouched idle, .inl ?_⟩
      simp only [RefundRequest.verdict, found]
  | some charge =>
      rcases ChargeTable.mem_of_find? found with ⟨member, same⟩
      rcases ok.remaining member with ⟨total, summed, _, remaining, _, _⟩
      rw [same] at summed
      apply judges_working working idle
      · intro error after executed
        cases (working.sumRefunds executed).1.trans summed
      intro total' _ executed
      rcases working.sumRefunds executed with ⟨read, rfl⟩
      cases read.trans summed
      by_cases mismatch : request.currency ≠ charge.currency
      · simp only [if_pos mismatch]
        refine ⟨working.untouched idle, .inl ?_⟩
        simp only [RefundRequest.verdict, found, if_pos mismatch]
      simp only [if_neg mismatch]
      have compares : request.amountCents > charge.amountCaptured - total ↔
          before.remaining charge < request.amountCents.toInt := by
        rw [gt_iff_lt, Int64.lt_iff_toInt_lt, remaining]
      by_cases exceeds : request.amountCents > charge.amountCaptured - total
      · simp only [if_pos exceeds]
        apply judges_sql (working.untouched idle)
        · intro error after executed
          cases executed
        intro _ rolledBack executed
        cases executed
        constructor
        · apply untouched_endTransaction
          · exact working.charges
          · exact working.refunds
          · exact working.transitions
          · exact working.webhookEvents
          · exact working.gateway
          · intro other different
            rw [World.transaction_endTransaction_of_ne _ different]
            exact working.others other different
          · exact idle
        · left
          simp only [RefundRequest.verdict, found, if_neg mismatch, if_pos (compares.mp exceeds)]
          rw [← remaining, Int64.ofInt_toInt]
      simp only [if_neg exceeds]
      apply insert_judges ok idle unused found _ working
      simp only [RefundRequest.verdict, found, if_neg mismatch,
        if_neg (fun short => exceeds (compares.mpr short))]

end Walk

/-- A command that only its own transaction or no lock at all concerns. -/
def WithoutUpdate : Command → Prop
  | .sql (.updateRefunds _) => False
  | .sql (.applyMoved _ _) => False
  | _ => True

theorem executes_withoutUpdate {call : CallId} (command : Command) (world : World)
    (simple : WithoutUpdate command) (alone : Uncontended call world) :
    ∃ answer after, command.execute call world = some (answer, after) ∧
      Uncontended call after := by
  have free : ∀ {test : Transaction → Prop} [DecidablePred test],
      ¬world.OtherTransaction (some call) test := by
    intro test _ other
    rcases World.otherTransaction_iff.mp other with ⟨caller, transaction, different, opened, _⟩
    have isOther : caller ≠ call := fun same => different (congrArg some same.symm)
    rw [alone.1 caller isOther] at opened
    cases opened
  have replaced := alone.setTransaction
  have ended := alone.endTransaction
  cases command with
  | createRefund | lookupByKey => exact ⟨_, _, rfl, alone⟩
  | sql statement =>
      cases statement with
      | updateRefunds | applyMoved => exact simple.elim
      | getRefund | selectStuck | selectAmount | selectSettled => exact ⟨_, _, rfl, alone⟩
      | begin => exact ⟨_, _, rfl, replaced _⟩
      | rollback => exact ⟨_, _, rfl, ended⟩
      | recordTransition | insertWebhookEvent =>
          simp only [Command.execute, World.execute, World.recordTransition,
            World.insertWebhookEvent]
          split
          all_goals exact ⟨_, _, rfl, alone⟩
      | lockCharge =>
          simp only [Command.execute, World.execute, World.lockCharge, World.inTransaction,
            if_neg free]
          split
          · split
            · exact ⟨_, _, rfl, alone⟩
            · exact ⟨_, _, rfl, replaced _⟩
          · exact ⟨_, _, rfl, alone⟩
      | sumRefunds =>
          simp only [Command.execute, World.execute, World.sumRefunds, World.inTransaction]
          split
          all_goals exact ⟨_, _, rfl, alone⟩
      | insertRefund =>
          simp only [Command.execute, World.execute, World.insertRefund, World.inTransaction,
            if_neg free]
          repeat' split
          all_goals first
            | exact ⟨_, _, rfl, alone⟩
            | exact ⟨_, _, rfl, replaced _⟩
      | insertTransition =>
          simp only [Command.execute, World.execute, World.insertTransition,
            World.inTransaction]
          repeat' split
          all_goals first
            | exact ⟨_, _, rfl, alone⟩
            | exact ⟨_, _, rfl, replaced _⟩
      | commit =>
          simp only [Command.execute, World.execute, World.commit, World.inTransaction]
          repeat' split
          all_goals first
            | exact ⟨_, _, rfl, alone⟩
            | exact ⟨_, _, rfl, ended⟩

section Issues

variable {α β : Type} {kind : Command → Prop}

theorem issues_sql {statement : Statement} {continuation : statement.Value → Action β}
    (simple : kind (.sql statement))
    (rest : ∀ value, (continuation value).run.Issues kind) :
    (Action.sql statement >>= continuation : Action β).run.Issues kind := by
  apply Interleaving.Program.Issues.bind
  · exact ⟨simple, fun _ => trivial⟩
  · intro result
    cases result with
    | ok value => exact rest value
    | error error => trivial

theorem issues_map {action : Action α} {change : α → β} (issues : action.run.Issues kind) :
    (change <$> action : Action β).run.Issues kind := by
  apply issues.bind
  intro result
  cases result with
  | ok value => trivial
  | error error => trivial

end Issues

/-- The statements of a request. -/
inductive RefundRequest.Executes (request : RefundRequest) : Command → Prop where
  | begin : request.Executes (.sql .begin)
  | lock : request.Executes (.sql (.lockCharge request.chargeId))
  | sum : request.Executes (.sql (.sumRefunds request.chargeId))
  | rollback : request.Executes (.sql .rollback)
  | insert : request.Executes (.sql (.insertRefund request.newRefund))
  | audit : request.Executes (.sql (.insertTransition request.refundId request.initialStatus
      request.actor request.reasonCode))
  | commit : request.Executes (.sql .commit)

theorem requestRefund_issues (request : RefundRequest) :
    (requestRefund request.refundId request.chargeId request.amountCents request.currency
      request.actor request.reasonCode).run.Issues request.Executes := by
  unfold requestRefund
  apply issues_sql .begin
  intro _
  apply issues_sql .lock
  intro charge
  cases charge with
  | none => trivial
  | some found =>
      apply issues_sql .sum
      intro total
      by_cases mismatch : request.currency ≠ found.2
      · simp only [if_pos mismatch]
        trivial
      simp only [if_neg mismatch]
      by_cases exceeds : request.amountCents > found.1 - total
      · simp only [if_pos exceeds]
        apply issues_sql .rollback
        intro _
        trivial
      simp only [if_neg exceeds]
      apply issues_sql .insert
      intro _
      apply issues_sql .audit
      intro _
      apply issues_sql .commit
      intro _
      trivial

theorem RefundRequest.issues (request : RefundRequest) (hmac : Hmac) :
    (request.operation.program hmac).Issues request.Executes :=
  issues_map (requestRefund_issues request)

theorem RefundRequest.Executes.storable {request : RefundRequest} {statement : Statement}
    (executes : request.Executes (.sql statement)) (storable : request.Storable) :
    ∀ text ∈ statement.texts, RefundEngine.Storable text := by
  cases executes with
  | insert => exact RefundRequest.storable_iff.mp storable
  | audit => exact fun text bound => storable text (List.mem_cons_of_mem _ bound)
  | begin | lock | sum | rollback | commit => exact nofun

/-! ## The result -/

section Result

variable {hmac : Hmac} {trace more : List EngineEvent} {state final : EngineState} {call : CallId}

theorem EngineRun.transaction_of_idle (run : EngineRun hmac trace state)
    (idle : state.calls call = .idle) : state.world.transaction call = none := by
  cases opened : state.world.transaction call with
  | none => rfl
  | some transaction =>
      have inProgress := run.inProgress_of_transaction call transaction opened
      rw [idle] at inProgress
      exact inProgress.elim

/-- What a request that ran by itself has returned. -/
theorem EngineRun.judged (run : EngineRun hmac trace state) {request : RefundRequest}
    (idle : state.calls call = .idle)
    (fresh : request.refundId ∉ state.world.rows.map Refund.id)
    (ran : (engine hmac).Run (Machine.Only call request.operation) state more final)
    {result : Except RefundError Reply}
    (finished : final.calls call = .finished request.operation result) :
    ∃ inner events world, result = inner.map Reply.refundId ∧
      Judged request call state.world inner events world ∧ events ⊆ more ∧
      final.world = world.endTransaction call := by
  have judges : (engine hmac).Withstands call request.operation (fun _ _ => True)
      (fun result events world => ∃ inner, result = inner.map Reply.refundId ∧
        Judged request call state.world inner events world)
      ((engine hmac).program request.operation) [.started call request.operation]
      state.world := by
    apply Machine.Withstands.bind
    apply (requestRefund_judges run.worldOk (run.transaction_of_idle idle) fresh).mono
    intro inner events world judged
    cases inner with
    | ok id => exact ⟨.ok id, rfl, judged⟩
    | error error => exact ⟨.error error, rfl, judged⟩
  rcases ran.returned idle judges finished with
    ⟨events, world, rfl, ⟨inner, same, judged⟩, left⟩
  exact ⟨inner, events, world, same, judged, fun _ member => List.mem_cons_of_mem _ member, left⟩

/-- In a quiet state a request that runs by itself returns, and binds only texts of its own. -/
theorem EngineRun.request_returns (run : EngineRun hmac trace state) (quiet : state.Quiet)
    (request : RefundRequest) (idle : state.calls call = .idle) :
    ∃ more final result,
      (engine hmac).Run (Machine.Alone call request.operation) state more final ∧
        final.calls call = .finished request.operation result ∧
        (request.Storable → ∀ event ∈ more, Encoded event) := by
  have issues : ((engine hmac).program request.operation).Issues request.Executes :=
    request.issues hmac
  have simple : ∀ command, request.Executes command → WithoutUpdate command := by
    intro command executes
    cases executes <;> trivial
  have alone : Uncontended call state.world :=
    ⟨fun other _ => run.unlocked quiet other, run.resumed quiet⟩
  rcases (issues.mono simple).evaluates executes_withoutUpdate alone with
    ⟨result, after, evaluates⟩
  have evaluates : ((engine hmac).program request.operation).eval ((engine hmac).execute call)
      state.world = some (result, after) := evaluates
  rcases Machine.exists_alone_run idle evaluates with ⟨more, final, ran, finished⟩
  refine ⟨more, final, result, ran, finished, ?_⟩
  intro storable event member
  have executed := (ran.only_of_alone.1.issued_of_only issues idle).2 event member
  cases event with
  | answered caller operation command answer before =>
      cases command with
      | sql statement => exact (executed _ rfl).storable storable
      | createRefund | lookupByKey => trivial
  | _ => trivial

/-- A request with a text that the server does not take is not accepted. -/
theorem EngineRun.refused_of_unstorable (run : EngineRun hmac trace state)
    {request : RefundRequest} (unstorable : ¬request.Storable) (idle : state.calls call = .idle)
    (fresh : request.refundId ∉ state.world.rows.map Refund.id)
    (ran : (engine hmac).Run (Machine.Only call request.operation) state more final)
    (encoded : ∀ event ∈ more, Encoded event) {result : Except RefundError Reply}
    (finished : final.calls call = .finished request.operation result) :
    ∃ error, result = .error error := by
  rcases run.judged idle fresh ran finished with ⟨inner, events, world, rfl, judged, inside, _⟩
  cases inner with
  | error error => exact ⟨error, rfl⟩
  | ok id =>
      rcases judged with ⟨_, _, _, _, inserted⟩
      exact (unstorable (RefundRequest.storable_iff.mpr (encoded _ (inside inserted)))).elim

end Result

/-- From every reachable state a request that runs without interference accepts exactly what
fits, gives its verdict unless a statement fails, and either adds its refund and audit row or
leaves everything as it was.  It does so for all texts that the server takes; with any other it
is never accepted. -/
theorem request_all_or_nothing {hmac : Hmac} {trace : List EngineEvent} {state : EngineState}
    (run : EngineRun hmac trace state) (request : RefundRequest) {call : CallId}
    (idle : state.calls call = .idle)
    (fresh : request.refundId ∉ state.world.rows.map Refund.id) :
    (∀ charge ∈ state.world.charges,
      ∃ total, castBigint (refundedSoFar state.world.rows charge.id) = .ok total ∧
        total.toInt = refundedSoFar state.world.rows charge.id ∧
        (charge.amountCaptured - total).toInt = state.world.remaining charge ∧
        0 ≤ state.world.remaining charge ∧
        state.world.remaining charge ≤ charge.amountCaptured.toInt) ∧
    (request.verdict state.world = .ok () ↔
      ∃ charge ∈ state.world.charges, charge.id = request.chargeId ∧
        request.currency = charge.currency ∧ 0 < request.amountCents.toInt ∧
        request.amountCents.toInt ≤ state.world.remaining charge) ∧
    (state.Quiet → ∃ more final result,
      (engine hmac).Run (Machine.Alone call request.operation) state more final ∧
        final.calls call = .finished request.operation result ∧
        (request.Storable → ∀ event ∈ more, Encoded event)) ∧
    ∀ more final result,
      (engine hmac).Run (Machine.Only call request.operation) state more final →
      final.calls call = .finished request.operation result →
      ((∀ command, .failed call request.operation command ∉ more) →
        result = (request.verdict state.world).map fun _ => .refundId request.refundId) ∧
      (∀ reply, result = .ok reply → reply = .refundId request.refundId ∧
        request.verdict state.world = .ok () ∧ Accepted request state.world final.world) ∧
      (∀ error, result = .error error → Untouched state.world final.world) ∧
      ((∀ event ∈ more, Encoded event) → ¬request.Storable → ∃ error, result = .error error) := by
  refine ⟨fun charge member => run.worldOk.remaining member, verdict_eq_ok_iff, ?_, ?_⟩
  · exact fun quiet => run.request_returns quiet request idle
  · intro more final result ran finished
    rcases run.judged idle fresh ran finished with ⟨inner, events, world, rfl, judged, inside, left⟩
    have refused : (∀ event ∈ more, Encoded event) → ¬request.Storable →
        ∃ error, inner.map Reply.refundId = .error error := fun encoded unstorable =>
      run.refused_of_unstorable unstorable idle fresh ran encoded finished
    rw [left]
    cases inner with
    | ok id =>
        rcases judged with ⟨rfl, verdict, accepted, _⟩
        refine ⟨fun _ => ?_, ?_, ?_, refused⟩
        · rw [verdict]
          rfl
        · rintro reply ⟨⟩
          exact ⟨rfl, verdict, accepted⟩
        · rintro error ⟨⟩
    | error error =>
        rcases judged with ⟨untouched, verdict⟩
        refine ⟨fun unfailed => ?_, ?_, ?_, refused⟩
        · rcases verdict with verdict | ⟨_, command, failed⟩
          · rw [verdict]
            rfl
          · exact (unfailed command (inside failed)).elim
        · rintro reply ⟨⟩
        · rintro error ⟨⟩
          exact untouched

/-- A request that fits what the sample has left of its charge. -/
def sampleRequest : RefundRequest where
  refundId := ⟨9⟩
  chargeId := sampleCharge.id
  amountCents := 348000
  currency := "EUR"
  actor := "carol"
  reasonCode := none

theorem sampleEnd_quiet : sampleEnd.2.Quiet :=
  sampleEnd_run.quiet_of_ended (by decide +kernel)

/-- The sample's charge is refunded to the last cent. -/
theorem request_all_or_nothing_sample : ∃ final : EngineState,
    sampleRequest.verdict sampleEnd.2.world = .ok () ∧
      Accepted sampleRequest sampleEnd.2.world final.world := by
  have fresh : sampleRequest.refundId ∉ sampleEnd.2.world.rows.map Refund.id := by
    decide +kernel
  have idle : sampleEnd.2.calls 9 = .idle := sampleEnd_run.idle_of_absent (by decide +kernel)
  rcases request_all_or_nothing sampleEnd_run sampleRequest idle fresh with
    ⟨_, accepts, exists_run, runs⟩
  have fits : sampleRequest.verdict sampleEnd.2.world = .ok () := by
    rw [accepts]
    exact ⟨sampleCharge, by decide +kernel, rfl, rfl, by decide +kernel, by decide +kernel⟩
  rcases exists_run sampleEnd_quiet with ⟨more, final, result, alone, finished, _⟩
  rcases alone.only_of_alone with ⟨only, unfailed⟩
  rcases runs more final result only finished with ⟨verdict, accepted, _⟩
  have succeeded := verdict unfailed
  rw [fits] at succeeded
  exact ⟨final, fits, (accepted _ succeeded).2.2⟩

/-- The same request, by an actor whose name holds U+0000. -/
def unstorableRequest : RefundRequest :=
  { sampleRequest with actor := String.ofList ['c', Char.ofNat 0] }

/-- The server refuses to insert its refund. -/
def unstorableEnd : List EngineEvent × EngineState :=
  ((engine sampleHmac).play (Machine.Only 9 unstorableRequest.operation)
    [.start 9 unstorableRequest.operation, .execute 9, .execute 9, .execute 9, .fail 9, .finish 9]
    ([], sampleEnd.2)).get (by decide +kernel)

/-- The request fits, and it never returns anything but an error. -/
theorem unstorable_refused :
    EngineRun sampleHmac sampleEnd.1 sampleEnd.2 ∧ sampleEnd.2.Quiet ∧
    unstorableRequest.verdict sampleEnd.2.world = .ok () ∧
    ((engine sampleHmac).Run (Machine.Only 9 unstorableRequest.operation) sampleEnd.2
        unstorableEnd.1 unstorableEnd.2 ∧
      (∀ event ∈ unstorableEnd.1, Encoded event) ∧
      unstorableEnd.2.calls 9 =
        .finished unstorableRequest.operation (.error (.db .failed))) ∧
    ∀ more final result,
      (engine sampleHmac).Run (Machine.Only 9 unstorableRequest.operation) sampleEnd.2 more
        final → (∀ event ∈ more, Encoded event) →
      final.calls 9 = .finished unstorableRequest.operation result →
      ∃ error, result = .error error := by
  have fits : unstorableRequest.verdict sampleEnd.2.world = .ok () := by
    rw [verdict_eq_ok_iff]
    exact ⟨sampleCharge, by decide +kernel, rfl, rfl, by decide +kernel, by decide +kernel⟩
  refine ⟨sampleEnd_run, sampleEnd_quiet, fits,
    ⟨Machine.play_run .nil (Option.some_get _).symm, by decide +kernel, rfl⟩, ?_⟩
  intro more final result ran encoded finished
  have unstorable : ¬unstorableRequest.Storable := by
    intro storable
    have held := storable unstorableRequest.actor (by simp)
    revert held
    decide
  exact sampleEnd_run.refused_of_unstorable unstorable
    (sampleEnd_run.idle_of_absent (by decide +kernel)) (by decide +kernel) ran encoded finished

end RefundEngine
