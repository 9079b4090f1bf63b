import RefundEngine.AuditRows

/-!
# What a call leaves alone

Every operation is about certain refunds: a request about the one it makes, an approval and a
submission about the one they name, a delivery about the one under its reference, a recovery
about any.  A refund that no call is about stays as it is, with its audit rows and with what the
gateway holds for it, whatever else goes on.
-/

namespace RefundEngine

open Interleaving (CallId Machine)

/-- What the database and the gateway hold for a refund. -/
structure Holding where
  row : Option Refund
  audits : List Transition
  object : Option GatewayRefund

def World.holding (world : World) (refundId : Uuid) : Holding where
  row := world.database.refunds.find? refundId
  audits := trail world.database.transitions refundId
  object := world.gateway.lookupByKey refundId.toString

/-- The reference under which the gateway reports on the refund. -/
def Holding.gatewayRef (holding : Holding) : Option String :=
  holding.row.bind Refund.gatewayRef

/-- The operation is about the refund. -/
def Operation.Concerns (refundId : Uuid) (holding : Holding) : Operation → Prop
  | .requestRefund requested .. => requested = refundId
  | .approve approved _ => approved = refundId
  | .submitRefund submitted => submitted = refundId
  | .recoverSubmitted => True
  | .handleWebhook event .. =>
      event.update ≠ none ∧ holding.gatewayRef = some event.data.gatewayRef
  | .reconcile _ => False

instance (refundId : Uuid) (holding : Holding) (operation : Operation) :
    Decidable (operation.Concerns refundId holding) :=
  match operation with
  | .requestRefund .. | .approve .. | .submitRefund _ => inferInstanceAs (Decidable (_ = _))
  | .recoverSubmitted => isTrue trivial
  | .handleWebhook .. => inferInstanceAs (Decidable (_ ∧ _))
  | .reconcile _ => isFalse id

/-- The event is no statement or gateway call of an operation that is about the refund. -/
def Avoids (refundId : Uuid) (holding : Holding) : EngineEvent → Prop
  | .answered _ operation _ _ _ => ¬operation.Concerns refundId holding
  | .started .. | .failed .. | .finished .. | .died .. | .acted .. => True

instance (refundId : Uuid) (holding : Holding) (event : EngineEvent) :
    Decidable (Avoids refundId holding event) :=
  match event with
  | .answered .. => inferInstanceAs (Decidable (¬_))
  | .started .. | .failed .. | .finished .. | .died .. | .acted .. => isTrue trivial

/-- Steps by which nobody does anything about the refund. -/
def Elsewhere (refundId : Uuid) (holding : Holding) (earlier : List EngineEvent)
    (event : EngineEvent) : Prop :=
  NoCancel earlier event ∧ Avoids refundId holding event

instance (refundId : Uuid) (holding : Holding) (earlier : List EngineEvent)
    (event : EngineEvent) : Decidable (Elsewhere refundId holding earlier event) :=
  inferInstanceAs (Decidable (_ ∧ _))

section Rows

variable {world after : World} {refundId : Uuid}

theorem find?_of_map {change : Refund → Refund} (ids : ∀ row, (change row).id = row.id)
    (rows : after.rows = world.rows.map change)
    (spared : ∀ row ∈ world.rows, row.id = refundId → change row = row) :
    after.database.refunds.find? refundId = world.database.refunds.find? refundId := by
  have listed : after.database.refunds.rows = world.database.refunds.rows.map change := rows
  rw [RefundTable.find?, listed, List.find?_map]
  simp only [Function.comp_def, ids]
  cases found : world.database.refunds.find? refundId with
  | none =>
      rw [RefundTable.find?] at found
      rw [found, Option.map_none]
  | some row =>
      rcases RefundTable.find?_eq_some.mp found with ⟨member, names⟩
      rw [RefundTable.find?] at found
      rw [found, Option.map_some, spared row member names]

theorem find?_of_insert {row : Refund} (rows : after.rows = world.rows ++ [row])
    (other : row.id ≠ refundId) :
    after.database.refunds.find? refundId = world.database.refunds.find? refundId := by
  have listed : after.database.refunds.rows = world.database.refunds.rows ++ [row] := rows
  rw [RefundTable.find?, RefundTable.find?, listed, List.find?_append,
    List.find?_singleton, if_neg (by simp [other]), Option.or_none]

theorem concerns_of_decision {webhook : WebhookEvent} {rawBody secret : Bytes} {sig : String}
    {update : RefundUpdate} {reason : Option String} {row : Refund} {gatewayRef : String}
    {status : Status} (asks : webhook.update = some (update, reason))
    (decides : update.decision = some (gatewayRef, status)) (member : row ∈ world.rows)
    (applies : update.Applies row) :
    (Operation.handleWebhook webhook rawBody sig secret).Concerns row.id
      (world.holding row.id) := by
  rcases webhook.asks_of_decision asks decides with ⟨rfl, _⟩
  constructor
  · rw [asks]
    exact Option.some_ne_none _
  · have found : world.database.refunds.find? row.id = some row :=
      RefundTable.find?_eq_some.mpr ⟨member, rfl⟩
    rw [Holding.gatewayRef, World.holding, found, Option.bind_some]
    exact RefundUpdate.gatewayRef_of_decision decides applies

/-- An update outside of a transaction reaches only refunds that its operation is about. -/
theorem concerns_of_updates {operation : Operation} {update : RefundUpdate} {row : Refund}
    {holding : Holding} (updates : operation.Updates update) (applies : update.Applies row) :
    operation.Concerns row.id holding := by
  cases update with
  | settle | fail => exact updates.elim
  | markRequested id =>
      rcases updates with ⟨approver, rfl⟩
      exact applies.1.symm
  | recoverRef =>
      cases updates
      exact trivial
  | markSubmitted | recordRef =>
      rw [applies.1]
      cases operation with
      | submitRefund => exact updates
      | recoverSubmitted => exact trivial
      | requestRefund | approve | handleWebhook | reconcile => exact updates.elim

theorem concerns_of_sends {operation : Operation} {holding : Holding}
    (sends : operation.Sends refundId) : operation.Concerns refundId holding := by
  cases operation with
  | submitRefund => exact sends
  | recoverSubmitted => exact trivial
  | requestRefund | approve | handleWebhook | reconcile => exact sends.elim

theorem concerns_of_notes {operation : Operation} {holding : Holding}
    {fromStatus : Option Status} {toStatus : Status} {actor : String}
    (notes : operation.Notes refundId fromStatus toStatus actor) :
    operation.Concerns refundId holding := by
  cases operation with
  | approve | submitRefund => exact notes.1
  | recoverSubmitted => exact trivial
  | requestRefund | handleWebhook | reconcile => exact notes.elim

end Rows

section Step

variable {hmac : Hmac} {trace : List EngineEvent} {state next : EngineState}
variable {event : EngineEvent} {refundId : Uuid}

/-- The tables keep what they hold for a refund that the step is not about. -/
theorem TrailStep.spares {before after : World} (stepped : TrailStep hmac before event after)
    (avoids : Avoids refundId (before.holding refundId) event) :
    after.database.refunds.find? refundId = before.database.refunds.find? refundId ∧
      trail after.database.transitions refundId = trail before.database.transitions refundId := by
  cases stepped with
  | still rows audits =>
      rw [audits, RefundTable.find?, RefundTable.find?]
      exact ⟨congrArg _ rows, rfl⟩
  | @updated _ operation update _ updates rows audits =>
      rw [audits]
      refine ⟨find?_of_map (RowChange.apply_id _) rows ?_, rfl⟩
      rintro row member rfl
      apply if_neg
      intro applies
      exact avoids (concerns_of_updates updates applies)
  | @noted _ _ noted _ _ _ _ rows audits notes =>
      have other : noted ≠ refundId := by
        rintro rfl
        exact avoids (concerns_of_notes notes)
      rw [audits, trail_concat_other other, RefundTable.find?, RefundTable.find?]
      exact ⟨congrArg _ rows, rfl⟩
  | @opened _ row _ _ _ _ _ rows audits names =>
      have other : row.id ≠ refundId := avoids
      rw [audits, trail_concat_other (names ▸ other)]
      exact ⟨find?_of_insert rows other, rfl⟩
  | @decided _ _ _ _ _ _ _ _ _ row _ _ _ _ asks decides member applies rows audits names =>
      have other : row.id ≠ refundId := by
        rintro rfl
        exact avoids (concerns_of_decision asks decides member applies)
      rw [audits, trail_concat_other (names ▸ other)]
      refine ⟨find?_of_map ?_ rows ?_, rfl⟩
      · intro changed
        split
        · exact RefundUpdate.assign_id ..
        · rfl
      · rintro changed _ rfl
        exact if_neg (Ne.symm other)

theorem EngineRun.issued_of_step (run : EngineRun hmac trace state) {call : CallId}
    {operation : Operation} {command : Command} {answer : command.Answer} {before : World}
    (step : (engine hmac).Step state (.answered call operation command answer before) next) :
    operation.MayIssue command := by
  cases step with
  | answer running => exact (run.mayIssue running).1

theorem EngineRun.object_of_step (run : EngineRun hmac trace state)
    (step : (engine hmac).Step state event next)
    (avoids : Avoids refundId (state.world.holding refundId) event) :
    next.world.gateway.lookupByKey refundId.toString =
      state.world.gateway.lookupByKey refundId.toString := by
  have effect := stepEffect step
  generalize isAfter : next.world = after at effect ⊢
  cases effect with
  | same tables => rw [tables.gateway]
  | executed effect =>
      cases effect with
      | same tables => rw [tables.gateway]
      | updated | conflict | inserted | committed => rfl
  | requested =>
      rcases run.issued_of_step step with ⟨sent, rfl, sends⟩
      apply MockGateway.lookupByKey_createRefund_of_ne
      intro same
      cases Uuid.toString_injective same
      exact avoids (concerns_of_sends sends)
  | configured | charged | canceled => rfl

theorem EngineRun.holding_of_step (run : EngineRun hmac trace state)
    (step : (engine hmac).Step state event next) (permitted : NoCancel trace event)
    (avoids : Avoids refundId (state.world.holding refundId) event) :
    next.world.holding refundId = state.world.holding refundId := by
  rcases (run.trailStep step permitted).spares avoids with ⟨row, audits⟩
  rw [World.holding, row, audits, run.object_of_step step avoids]
  rfl

end Step

/-- From every state that is reached, whatever calls about other refunds do, interleaved, failing
and dying, and however the gateway and the clock are set: a refund that none of them is about
keeps its row, its audit rows and its object at the gateway. -/
theorem others_left_alone {hmac : Hmac} {trace more : List EngineEvent} {state final : EngineState}
    (run : EngineRun hmac trace state) (refundId : Uuid)
    (continued : (engine hmac).Run (Elsewhere refundId (state.world.holding refundId)) state more
      final) :
    final.world.holding refundId = state.world.holding refundId := by
  induction continued with
  | nil => rfl
  | cons earlier step permitted ih =>
      have reached := run.append (earlier.mono fun _ _ permitted => permitted.1)
      rw [← ih] at permitted
      rw [reached.holding_of_step step permitted.1.anywhere permitted.2, ih]

/-- Another refund is requested and submitted while a delivery reports on an unknown reference. -/
def elsewhere : List EngineEvent × EngineState :=
  ((engine sampleHmac).play (Elsewhere ⟨8⟩ (sampleEnd.2.world.holding ⟨8⟩))
    ([.start 10 (.requestRefund ⟨9⟩ sampleCharge.id 2000 "EUR" "carol" none),
      .start 11 (.handleWebhook
        ⟨"evt_2", "refund.failed", ⟨"re_mock_00000009", some "closed"⟩⟩ [] (sign sampleHmac [] [])
        []),
      .execute 10, .execute 11, .execute 10, .execute 11, .execute 10, .execute 11, .execute 10,
      .execute 11, .execute 10, .execute 10, .finish 11, .finish 10] ++
      uninterrupted 12 (.submitRefund ⟨9⟩) 5)
    ([], sampleEnd.2)).get (by decide +kernel)

theorem others_left_alone_elsewhere :
    (elsewhere.2.world.holding ⟨9⟩).object.isSome = true ∧
      (sampleEnd.2.world.holding ⟨8⟩).row.isSome = true ∧
      elsewhere.2.world.holding ⟨8⟩ = sampleEnd.2.world.holding ⟨8⟩ :=
  ⟨by decide +kernel, by decide +kernel,
    others_left_alone sampleEnd_run ⟨8⟩ (Machine.play_run .nil (Option.some_get _).symm)⟩

end RefundEngine
