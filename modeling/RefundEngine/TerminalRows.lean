import RefundEngine.AuditTrail

/-!
# Webhooks and terminal rows

`apply_settled` lists the statuses it may advance; `apply_failed` lists the ones it may not,
and leaves out `failed` itself.  A failure that comes with a new event id therefore writes to
a row that has already failed; every other event leaves a terminal row alone.
-/

namespace RefundEngine

open Interleaving (CallId Machine)

/-- The statement that applies the event matches the row. -/
def WebhookEvent.Hits (event : WebhookEvent) (row : Refund) : Prop :=
  ∃ update reason, event.update = some (update, reason) ∧ update.Applies row

/-- A `refund.failed` event for a row that has failed before. -/
def WebhookEvent.FailsAgain (event : WebhookEvent) (row : Refund) : Prop :=
  event.eventType = "refund.failed" ∧ row.status = .failed ∧
    row.gatewayRef = some event.data.gatewayRef

instance (event : WebhookEvent) (row : Refund) : Decidable (event.FailsAgain row) :=
  inferInstanceAs (Decidable (_ ∧ _ ∧ _))

section Event

variable {event : WebhookEvent} {world : World} {row : Refund}

theorem WebhookEvent.FailsAgain.update (again : event.FailsAgain row) :
    event.update = some (.fail event.data.gatewayRef event.data.reason, event.data.reason) := by
  rw [WebhookEvent.update, again.1]
  rfl

/-- The only terminal rows an event matches are failed ones, and only by failing them again. -/
theorem WebhookEvent.hits_terminal_iff (terminal : row.status.isTerminal = true) :
    event.Hits row ↔ event.FailsAgain row := by
  constructor
  · rintro ⟨update, reason, updates, applies⟩
    rw [WebhookEvent.update] at updates
    split at updates
    · cases updates
      rcases applies with ⟨_, live⟩
      rcases live with submitted | requested
      · rw [submitted] at terminal
        cases terminal
      · rw [requested] at terminal
        cases terminal
    · split at updates
      · rename_i failing
        cases updates
        rcases applies with ⟨same, notSettled, notCanceled⟩
        have failed : row.status = .failed := by
          cases status : row.status with
          | failed => rfl
          | settled => exact (notSettled status).elim
          | canceled => exact (notCanceled status).elim
          | requested | pendingReview | submitted =>
              rw [status] at terminal
              cases terminal
        exact ⟨failing, failed, same⟩
      · cases updates
  · intro again
    rcases again with ⟨failing, failed, same⟩
    refine ⟨_, _, WebhookEvent.FailsAgain.update ⟨failing, failed, same⟩, same, ?_, ?_⟩
    · rw [failed]
      decide
    · rw [failed]
      decide

theorem WebhookEvent.revise_of_not_hits (misses : ¬event.Hits row) (now : Timestamp) :
    event.revise now row = row := by
  rw [WebhookEvent.revise]
  cases updates : event.update with
  | none => rfl
  | some decided =>
      apply if_neg
      intro applies
      exact misses ⟨_, _, updates, applies⟩

/-- The event appends an audit row for a refund exactly when it matches its row. -/
theorem WebhookEvent.audits_iff (member : row ∈ world.rows) :
    (∃ audit ∈ event.audit world, audit.refundId = row.id) ↔ event.Hits row := by
  rw [WebhookEvent.audit]
  cases updates : event.update with
  | none => simp [WebhookEvent.Hits, updates]
  | some decided =>
      rcases decided with ⟨update, reason⟩
      have hits : event.Hits row ↔ update.Applies row := by
        simp [WebhookEvent.Hits, updates]
      rw [hits]
      simp only [List.mem_mapIdx]
      constructor
      · rintro ⟨_, ⟨index, inside, rfl⟩, same⟩
        have matched := List.mem_filter.mp (List.getElem_mem inside)
        rw [← world.database.refunds.eq_of_id matched.1 member same]
        exact of_decide_eq_true matched.2
      · intro applies
        have matched : row ∈ world.rows.filter fun row => update.Applies row :=
          List.mem_filter.mpr ⟨member, decide_eq_true applies⟩
        rcases List.mem_iff_getElem.mp matched with ⟨index, inside, found⟩
        refine ⟨_, ⟨index, inside, rfl⟩, ?_⟩
        rw [found]

end Event

section Delivery

variable {hmac : Hmac} {event : WebhookEvent} {rawBody secret : Bytes} {sig : String}
variable {state final : EngineState} {row : Refund}

/-- A first delivery leaves a row and its audit rows alone exactly when it misses the row. -/
theorem Delivered.leaves_iff (delivered : Delivered event state final)
    (fresh : event.id ∉ state.world.database.webhookEvents)
    (unlocked : ∀ call, state.world.transaction call = none) (member : row ∈ state.world.rows) :
    (row ∈ final.world.rows ∧
      (final.world.database.transitions.filter fun audit => audit.refundId = row.id) =
        state.world.database.transitions.filter fun audit => audit.refundId = row.id) ↔
    ¬event.Hits row := by
  rcases delivered.unseen fresh unlocked with ⟨rows, transitions⟩
  rw [rows, transitions, List.filter_append, List.append_right_eq_self,
    List.filter_eq_nil_iff]
  constructor
  · rintro ⟨_, unaudited⟩ hits
    rcases (WebhookEvent.audits_iff member).mpr hits with ⟨audit, inside, same⟩
    exact unaudited audit inside (decide_eq_true same)
  · intro misses
    constructor
    · rw [← WebhookEvent.revise_of_not_hits misses state.world.now]
      exact List.mem_map_of_mem member
    · intro audit inside same
      exact misses ((WebhookEvent.audits_iff member).mp ⟨audit, inside, of_decide_eq_true same⟩)

end Delivery

/-- In every state between calls, whatever led to it, a correctly signed event with a new id
leaves a terminal row and its audit rows exactly as they were, unless it is a
`refund.failed` for the reference of a row that has failed before. -/
theorem terminal_row_left_iff {hmac : Hmac} {charges : ChargeTable} {config : MockConfig}
    {now : Timestamp} {trace more : List EngineEvent} {state final : EngineState}
    {event : WebhookEvent} {rawBody secret : Bytes} {sig : String} {call : CallId}
    {result : Except RefundError Reply} {row : Refund}
    (run : (engine hmac).Run (fun _ _ => True) (initialState charges config now) trace state)
    (quiet : state.Quiet) (member : row ∈ state.world.rows)
    (terminal : row.status.isTerminal = true)
    (signed : verifySignature hmac rawBody sig secret = true)
    (fresh : event.id ∉ state.world.database.webhookEvents)
    (idle : state.calls call = .idle)
    (delivery : (engine hmac).Run
      (Machine.Alone call (.handleWebhook event rawBody sig secret)) state more final)
    (finished : final.calls call = .finished (.handleWebhook event rawBody sig secret) result) :
    (row ∈ final.world.rows ∧
      (final.world.database.transitions.filter fun audit => audit.refundId = row.id) =
        state.world.database.transitions.filter fun audit => audit.refundId = row.id) ↔
    ¬event.FailsAgain row := by
  have delivered := tables_of_delivery signed idle delivery finished
  rw [← WebhookEvent.hits_terminal_iff terminal]
  exact delivered.leaves_iff fresh (unlocked_of_quiet run quiet) member

/-- A failure of the small refund. -/
def failedEvent (id reason : String) : WebhookEvent where
  id := id
  eventType := "refund.failed"
  data := { gatewayRef := "re_mock_00000001", reason := some reason }

def delivery (event : WebhookEvent) : Operation :=
  .handleWebhook event [] (sign sampleHmac [] []) []

/-- A small refund is requested and submitted, and its failure arrives. -/
def failedOnce : List EngineEvent × EngineState :=
  ((engine sampleHmac).play (OneAtATime fun _ => True)
    (uninterrupted 0 (.requestRefund ⟨8⟩ sampleCharge.id 2000 "EUR" "alice" none) 6 ++
      uninterrupted 1 (.submitRefund ⟨8⟩) 5 ++
      uninterrupted 2 (delivery (failedEvent "evt_2" "account_closed")) 4)
    ([], initialState sampleCharges {} 10)).get (by decide +kernel)

theorem failedOnce_run : SerialRun sampleHmac (fun _ => True) failedOnce.1 failedOnce.2 :=
  ⟨sampleCharges, {}, 10, Machine.play_run .nil (Option.some_get _).symm⟩

theorem failedOnce_quiet : failedOnce.2.Quiet :=
  failedOnce_run.engineRun.quiet_of_ended (by decide +kernel)

/-- A settlement that arrives after the failure. -/
def settledLate : List EngineEvent × EngineState :=
  ((engine sampleHmac).play (Machine.Alone 3 sampleDelivery) (uninterrupted 3 sampleDelivery 4)
    ([], failedOnce.2)).get (by decide +kernel)

theorem terminal_row_left_settledLate :
    ∃ row ∈ failedOnce.2.world.rows, row.status = .failed ∧ row ∈ settledLate.2.world.rows := by
  rcases failedOnce_run.engineRun with ⟨charges, config, now, run⟩
  have found : ∃ row ∈ failedOnce.2.world.rows, row.status = .failed := by
    decide +kernel
  rcases found with ⟨row, member, failed⟩
  refine ⟨row, member, failed, ?_⟩
  have terminal : row.status.isTerminal = true := by
    rw [failed]
    rfl
  have fresh : sampleEvent.id ∉ failedOnce.2.world.database.webhookEvents := by
    decide +kernel
  have delivered : (engine sampleHmac).Run (Machine.Alone 3 sampleDelivery) failedOnce.2
      settledLate.1 settledLate.2 :=
    Machine.play_run .nil (Option.some_get _).symm
  have finished : settledLate.2.calls 3 =
      .finished sampleDelivery (.ok (.webhook .applied)) := rfl
  have idle : failedOnce.2.calls 3 = .idle := rfl
  have left := terminal_row_left_iff (run.mono fun _ _ _ => trivial) failedOnce_quiet member
    terminal (verifySignature_sign sampleHmac [] []) fresh idle delivered finished
  exact (left.mpr fun again => absurd again.1 (by decide)).1

/-- A second failure, with an id and a reason of its own. -/
def failedTwice : List EngineEvent × EngineState :=
  ((engine sampleHmac).play (Machine.Alone 3 (delivery (failedEvent "evt_3" "declined")))
    (uninterrupted 3 (delivery (failedEvent "evt_3" "declined")) 4)
    ([], failedOnce.2)).get (by decide +kernel)

/-- The row that had failed is written again: its reason is replaced, and a second audit row
leads from `failed` to `failed`. -/
theorem failed_row_rewritten :
    SerialRun sampleHmac (fun _ => True) failedOnce.1 failedOnce.2 ∧ failedOnce.2.Quiet ∧
    verifySignature sampleHmac [] (sign sampleHmac [] []) [] = true ∧
    "evt_3" ∉ failedOnce.2.world.database.webhookEvents ∧
    (engine sampleHmac).Run (Machine.Alone 3 (delivery (failedEvent "evt_3" "declined")))
      failedOnce.2 failedTwice.1 failedTwice.2 ∧
    failedTwice.2.calls 3 = .finished (delivery (failedEvent "evt_3" "declined"))
      (.ok (.webhook .applied)) ∧
    ∃ row ∈ failedOnce.2.world.rows, row.status = .failed ∧
      row.failureReason = some "account_closed" ∧ row ∉ failedTwice.2.world.rows ∧
      (∃ rewritten ∈ failedTwice.2.world.rows, rewritten.id = row.id ∧
        rewritten.failureReason = some "declined") ∧
      ∃ audit ∈ failedTwice.2.world.database.transitions, audit.refundId = row.id ∧
        audit.fromStatus = some .failed ∧ audit.toStatus = .failed := by
  refine ⟨failedOnce_run, failedOnce_quiet, verifySignature_sign sampleHmac [] [],
    by decide +kernel, Machine.play_run .nil (Option.some_get _).symm, rfl, by decide +kernel⟩

end RefundEngine
