import RefundEngine.EventIds
import RefundEngine.Fate
import RefundEngine.InterruptedDelivery

/-!
# Deliveries before the reference is recorded

The gateway can settle a refund before the engine has recorded its reference.  A delivery
that comes so early finds no row, but it has used up the id of the event, so delivering the
event again does nothing.  In every run in which the event is delivered again, the refund is
decided exactly when the one delivery that inserted the id found the reference recorded and
committed.
-/

namespace RefundEngine

open Interleaving (CallId Event Machine own mem_own)

/-- The step starts no other signed delivery under the event's id or for its reference. -/
def Exclusive (hmac : Hmac) (event : WebhookEvent) : EngineEvent → Prop
  | .started _ (.handleWebhook delivered rawBody sig secret) =>
      verifySignature hmac rawBody sig secret = true →
      delivered.id = event.id ∨ delivered.data.gatewayRef = event.data.gatewayRef →
      delivered = event
  | _ => True

instance (hmac : Hmac) (event : WebhookEvent) (step : EngineEvent) :
    Decidable (Exclusive hmac event step) :=
  match step with
  | .started _ (.handleWebhook _ _ _ _) => inferInstanceAs (Decidable (_ → _ → _))
  | .started _ (.requestRefund ..) | .started _ (.approve ..) | .started _ (.submitRefund _)
  | .started _ .recoverSubmitted | .started _ (.reconcile _) => isTrue trivial
  | .answered .. | .failed .. | .finished .. | .died .. | .acted .. => isTrue trivial

/-- If the step is the update of a delivery of the event, it finds the reference recorded. -/
def InTime (event : WebhookEvent) : EngineEvent → Prop
  | .answered _ (.handleWebhook delivered _ _ _) (.sql (.applyMoved _ _)) _ before =>
      delivered = event → ∃ row ∈ before.rows, row.gatewayRef = some event.data.gatewayRef
  | _ => True

/-- The event settles or fails the refund with its reference. -/
def WebhookEvent.Asks (event : WebhookEvent) (status : Status) : Prop :=
  (event.eventType = "refund.settled" ∧ status = .settled) ∨
    (event.eventType = "refund.failed" ∧ status = .failed)

theorem WebhookEvent.Asks.update {event : WebhookEvent} {status : Status}
    (asks : event.Asks status) :
    ∃ update reason, event.update = some (update, reason) ∧
      update.decision = some (event.data.gatewayRef, status) := by
  rcases asks with ⟨settled, rfl⟩ | ⟨failed, rfl⟩
  · exact ⟨_, _, if_pos settled, rfl⟩
  · have other : ¬event.eventType = "refund.settled" := by simp [failed]
    exact ⟨_, _, (if_neg other).trans (if_pos failed), rfl⟩

/-- A run in which the reference of a refund is recorded, its continuation, and an event for
the reference that is delivered again after it was recorded.  Any number of deliveries of the
event may come before, and everything else may run beside them. -/
structure DeliveredAgain (hmac : Hmac) (event : WebhookEvent) (refundId : Uuid)
    (earlier : List EngineEvent) (recorded : EngineState) (more : List EngineEvent)
    (final : EngineState) : Prop where
  run : EngineRun hmac earlier recorded
  row : ∃ row ∈ recorded.world.rows, row.id = refundId ∧
    row.gatewayRef = some event.data.gatewayRef
  continued : (engine hmac).Run NoCancel recorded more final
  exclusive : ∀ step ∈ more ++ earlier, Exclusive hmac event step
  again : ∃ call rawBody sig secret result, recorded.calls call = .idle ∧
    final.calls call = .finished (.handleWebhook event rawBody sig secret)
      (.ok (.webhook result))

section Order

variable {hmac : Hmac} {event : WebhookEvent} {trace : List EngineEvent} {state : EngineState}
variable {call : CallId} {operation : Operation} {status : Status}

private theorem event_of_inserted (run : EngineRun hmac trace state)
    (exclusive : ∀ step ∈ trace, Exclusive hmac event step)
    (inserted : Inserted call operation event trace) :
    ∃ rawBody sig secret, operation = .handleWebhook event rawBody sig secret := by
  rcases run.delivery_of_inserted inserted with
    ⟨delivered, rawBody, sig, secret, rfl, verified, same, started⟩
  cases exclusive _ started verified (.inl same)
  exact ⟨rawBody, sig, secret, rfl⟩

/-- The fate of the reference is decided by the delivery that inserted the id: its update
found the reference recorded, and it committed. -/
private theorem decided_by_delivery (run : EngineRun hmac trace state)
    (exclusive : ∀ step ∈ trace, Exclusive hmac event step)
    (decided : fate event.data.gatewayRef trace = some status) :
    ∃ call operation update reason before,
      Inserted call operation event trace ∧ Committed call operation trace ∧
      .answered call operation (.sql (.applyMoved update reason)) (.ok ()) before ∈ trace ∧
      event.update = some (update, reason) ∧
      update.decision = some (event.data.gatewayRef, status) ∧
      ∃ row ∈ before.rows, row.gatewayRef = some event.data.gatewayRef := by
  rcases exists_decision_of_fate decided with ⟨newer, step, earlier, split, decides⟩
  rcases decisionOf_eq_some decides with ⟨call, operation, operation', committed, update, reason,
    before, rest, rfl, behind, decision, found⟩
  have applied : .answered call operation' (.sql (.applyMoved update reason)) (.ok ()) before ∈
      trace := by
    have mine : .answered call operation' (.sql (.applyMoved update reason)) (.ok ()) before ∈
        own call earlier := by
      rw [behind]
      exact List.mem_cons_self ..
    rw [split]
    exact List.mem_append_right _ (List.mem_cons_of_mem _ (mem_own.mp mine).1)
  have same : operation = operation' := by
    have ready := run.licensed split
    simp only [Licensed, Ready, Began, behind] at ready
    rcases ready with ⟨⟨_, _, began⟩, _⟩ | ⟨_, _, _, _, applied⟩ |
      ⟨_, _, _, _, _, _, _, _, _, inserted⟩
    · cases began
    · cases applied
      rfl
    · cases inserted
  subst same
  rcases List.append_of_mem applied with ⟨_, _, split'⟩
  rcases run.delivery_of_applied split' with
    ⟨delivered, rawBody, sig, secret, rfl, verified, updates, inserted, started, _⟩
  -- The delivery is one of the event, since no other decides its reference.
  rcases WebhookEvent.decision_of_update updates with ⟨_, decision'⟩
  rw [decision, Option.some.injEq, Prod.mk.injEq] at decision'
  cases exclusive _ started verified (.inr decision'.1.symm)
  refine ⟨call, _, update, reason, before, inserted, ?_, applied, updates, decision, found⟩
  rw [split]
  exact ⟨committed, List.mem_append_right _ (List.mem_cons_self ..)⟩

/-- Where the fate is the one the event asks for, its updates came in time and its delivery
committed. -/
private theorem inTime_of_fate (run : EngineRun hmac trace state)
    (exclusive : ∀ step ∈ trace, Exclusive hmac event step)
    (decided : fate event.data.gatewayRef trace = some status) :
    (∀ step ∈ trace, InTime event step) ∧
      ∀ call operation, Inserted call operation event trace → Committed call operation trace := by
  rcases decided_by_delivery run exclusive decided with
    ⟨decider, _, update, reason, before, inserted, committed, applied, _, _, found⟩
  constructor
  · intro step member
    unfold InTime
    split
    · rename_i call delivered rawBody sig secret update' reason' answer before'
      rintro rfl
      rcases List.append_of_mem member with ⟨_, _, split⟩
      rcases run.delivery_of_applied split with ⟨_, _, _, _, ⟨⟩, _, _, inserted', _, _⟩
      rcases run.inserted_once inserted inserted' with ⟨rfl, rfl⟩
      rw [← run.applied_once applied member]
      exact found
    · trivial
  · intro call operation inserted'
    rcases run.inserted_once inserted inserted' with ⟨rfl, rfl⟩
    exact committed

private theorem inTime_of_recorded {more : List EngineEvent} {next : EngineState}
    (run : EngineRun hmac trace state)
    (continued : (engine hmac).Run NoCancel state more next) {row : Refund}
    (member : row ∈ state.world.rows)
    (recorded : row.gatewayRef = some event.data.gatewayRef) :
    ∀ step ∈ more, InTime event step := by
  intro step stepIn
  rcases continued.exists_step_of_mem stepIn with ⟨_, reached, _, reaching, taken, _⟩
  unfold InTime
  split
  · intro _
    rcases (run.later reaching).forward row member with ⟨row', member', advances⟩
    cases taken with
    | answer => exact ⟨row', member', advances.gatewayRef _ recorded⟩
  · trivial

/-- Where the updates come in time and the delivery commits, it decides the fate. -/
private theorem fate_of_inTime (run : EngineRun hmac trace state)
    (exclusive : ∀ step ∈ trace, Exclusive hmac event step) (asks : event.Asks status)
    (inserted : Inserted call operation event trace)
    (committed : Committed call operation trace) (inTime : ∀ step ∈ trace, InTime event step) :
    fate event.data.gatewayRef trace = some status := by
  rcases asks.update with ⟨update, reason, updates, decision⟩
  rcases event_of_inserted run exclusive inserted with ⟨rawBody, sig, secret, rfl⟩
  rcases committed with ⟨world, member⟩
  rcases List.append_of_mem member with ⟨newer, earlier, split⟩
  have ready := run.licensed split
  have decides : ∃ sealed, fate event.data.gatewayRef trace = some sealed := by
    rcases ready with ⟨_, updateless⟩ | ⟨update', reason', before, rest, behind⟩ |
      ⟨_, _, _, _, _, _, _, _, updateless, _⟩
    · cases (updateless _ _ _ _ rfl).symm.trans updates
    · have applied : .answered call (.handleWebhook event rawBody sig secret)
          (.sql (.applyMoved update' reason')) (.ok ()) before ∈ trace := by
        have mine : .answered call (.handleWebhook event rawBody sig secret)
            (.sql (.applyMoved update' reason')) (.ok ()) before ∈ own call earlier := by
          rw [behind]
          exact List.mem_cons_self ..
        rw [split]
        exact List.mem_append_right _ (List.mem_cons_of_mem _ (mem_own.mp mine).1)
      rcases List.append_of_mem applied with ⟨_, _, split'⟩
      rcases run.delivery_of_applied split' with ⟨_, _, _, _, ⟨⟩, _, updates', _, _, _⟩
      cases updates.symm.trans updates'
      rcases inTime _ applied rfl with ⟨row, rowIn, recorded⟩
      rw [split]
      exact exists_fate_of_decision newer (decisionOf_commit behind decision rowIn recorded)
    · cases (updateless _ _ _ _ rfl).symm.trans updates
  rcases decides with ⟨sealed, decided⟩
  rcases decided_by_delivery run exclusive decided with
    ⟨_, _, _, _, _, _, _, _, updates', decision', _⟩
  cases updates.symm.trans updates'
  cases decision.symm.trans decision'
  exact decided

end Order

/-- Whatever the order of deliveries and recording, once the event has been delivered again
after the reference was recorded, the refund has the status the event asks for exactly when
no delivery of the event ran its update before the reference was recorded, and the delivery
that inserted the event's id committed. -/
theorem delivered_again_iff {hmac : Hmac} {event : WebhookEvent} {refundId : Uuid}
    {earlier more : List EngineEvent} {recorded final : EngineState} {status : Status}
    (delivered : DeliveredAgain hmac event refundId earlier recorded more final)
    (asks : event.Asks status) :
    (∃ row ∈ final.world.rows, row.id = refundId ∧ row.status = status) ↔
      (∀ step ∈ earlier, InTime event step) ∧
        ∀ call operation, Inserted call operation event (more ++ earlier) →
          Committed call operation (more ++ earlier) := by
  have run := delivered.run.append delivered.continued
  rcases delivered.row with ⟨row, member, rfl, ref⟩
  rcases (delivered.run.later delivered.continued).forward row member with
    ⟨row', member', advances⟩
  have status_eq := run.status_eq member' (advances.gatewayRef _ ref)
  constructor
  · intro settled
    rcases settled with ⟨found, foundIn, same, rfl⟩
    cases final.world.database.refunds.eq_of_id member' foundIn (advances.id.trans same.symm)
    cases decided : fate event.data.gatewayRef (more ++ earlier) with
    | some sealed =>
        rcases inTime_of_fate run delivered.exclusive decided with ⟨inTime, committed⟩
        exact ⟨fun step stepIn => inTime step (List.mem_append_right _ stepIn), committed⟩
    | none =>
        rw [decided] at status_eq
        rcases asks with ⟨_, settled⟩ | ⟨_, failed⟩
        · cases status_eq.symm.trans settled
        · cases status_eq.symm.trans failed
  · intro condition
    rcases condition with ⟨early, committed⟩
    have late := inTime_of_recorded delivered.run delivered.continued member ref
    have inTime : ∀ step ∈ more ++ earlier, InTime event step := by
      intro step stepIn
      rcases List.mem_append.mp stepIn with since | before
      · exact late step since
      · exact early step before
    rcases delivered.again with ⟨_, _, _, _, _, idle, finished⟩
    have returned := delivered.continued.mem_of_finished idle finished
    rcases run.inserted_of_returned (List.mem_append_left _ returned) with
      ⟨call, operation, inserted⟩
    have decided := fate_of_inTime run delivered.exclusive asks inserted
      (committed _ _ inserted) inTime
    rw [decided] at status_eq
    exact ⟨row', member', advances.id, status_eq⟩

/-! ## A delivery that comes too early -/

/-- The settlement of the sample is delivered twice. -/
def deliveredTwice : List EngineEvent × EngineState :=
  ((engine sampleHmac).play NoCancel
    (uninterrupted 5 sampleDelivery 4 ++ uninterrupted 6 sampleDelivery 1)
    ([], sampleUnsettled.2)).get (by decide +kernel)

theorem deliveredAgain_deliveredTwice :
    DeliveredAgain sampleHmac sampleEvent ⟨7⟩ sampleUnsettled.1 sampleUnsettled.2
      deliveredTwice.1 deliveredTwice.2 := by
  have continued : (engine sampleHmac).Run NoCancel sampleUnsettled.2 deliveredTwice.1
      deliveredTwice.2 := Machine.play_run .nil (Option.some_get _).symm
  have idle : sampleUnsettled.2.calls 6 = .idle :=
    sampleUnsettled_run.idle_of_absent (by decide +kernel)
  have returned : ∃ event ∈ deliveredTwice.1,
      event.ending = some (6, sampleDelivery, some (.ok (.webhook .duplicate))) := by
    decide +kernel
  rcases returned with ⟨_, member, ending⟩
  exact
    { run := sampleUnsettled_run
      row := by decide +kernel
      continued := continued
      exclusive := by decide +kernel
      again := ⟨6, _, _, _, _, idle, continued.calls_of_ending member ending⟩ }

theorem delivered_again_iff_deliveredTwice :
    (∃ row ∈ deliveredTwice.2.world.rows, row.id = ⟨7⟩ ∧ row.status = .settled) ↔
      (∀ step ∈ sampleUnsettled.1, InTime sampleEvent step) ∧
        ∀ call operation,
          Inserted call operation sampleEvent (deliveredTwice.1 ++ sampleUnsettled.1) →
          Committed call operation (deliveredTwice.1 ++ sampleUnsettled.1) :=
  delivered_again_iff deliveredAgain_deliveredTwice (.inl ⟨rfl, rfl⟩)

/-- A refund has been issued by the gateway, and `submit_refund` has not recorded its
reference yet. -/
def issuedUnrecorded : List EngineEvent × EngineState :=
  ((engine sampleHmac).play NoCancel
    (uninterrupted 0 (.requestRefund ⟨8⟩ sampleCharge.id 2000 "EUR" "alice" none) 6 ++
      .start 1 (.submitRefund ⟨8⟩) :: List.replicate 4 (.execute 1))
    ([], initialState sampleCharges {} 10)).get (by decide +kernel)

/-- The settlement is delivered, and then the reference is recorded. -/
def recordedLate : List EngineEvent × EngineState :=
  ((engine sampleHmac).play NoCancel
    (uninterrupted 2 sampleDelivery 4 ++ [.execute 1, .finish 1]) issuedUnrecorded).get
    (by decide +kernel)

/-- The settlement is delivered again. -/
def deliveredLate : List EngineEvent × EngineState :=
  ((engine sampleHmac).play NoCancel (uninterrupted 3 sampleDelivery 1)
    ([], recordedLate.2)).get (by decide +kernel)

/-- The gateway had issued the refund before the first delivery, all calls have returned,
and the refund that the gateway has settled is still `submitted`. -/
theorem early_delivery_lost :
    (∃ row ∈ issuedUnrecorded.2.world.rows, row.id = ⟨8⟩ ∧ row.gatewayRef = none ∧
      (issuedUnrecorded.2.world.gateway.lookupByKey row.idempotencyKey).map GatewayRefund.id =
        some sampleEvent.data.gatewayRef) ∧
    DeliveredAgain sampleHmac sampleEvent ⟨8⟩ recordedLate.1 recordedLate.2 deliveredLate.1
      deliveredLate.2 ∧
    deliveredLate.2.Quiet ∧ sampleEvent.Asks .settled ∧
    ¬∃ row ∈ deliveredLate.2.world.rows, row.id = ⟨8⟩ ∧ row.status = .settled := by
  have issued : EngineRun sampleHmac issuedUnrecorded.1 issuedUnrecorded.2 :=
    .of_play (Option.some_get _).symm
  have run : EngineRun sampleHmac recordedLate.1 recordedLate.2 := by
    rcases issued with ⟨charges, config, now, issued⟩
    exact ⟨charges, config, now, Machine.play_run issued (Option.some_get _).symm⟩
  have continued : (engine sampleHmac).Run NoCancel recordedLate.2 deliveredLate.1
      deliveredLate.2 := Machine.play_run .nil (Option.some_get _).symm
  have idle : recordedLate.2.calls 3 = .idle :=
    run.idle_of_absent (by decide +kernel)
  have returned : ∃ event ∈ deliveredLate.1,
      event.ending = some (3, sampleDelivery, some (.ok (.webhook .duplicate))) := by
    decide +kernel
  rcases returned with ⟨_, member, ending⟩
  constructor
  · decide +kernel
  constructor
  · exact
      { run := run
        row := by decide +kernel
        continued := continued
        exclusive := by decide +kernel
        again := ⟨3, _, _, _, _, idle, continued.calls_of_ending member ending⟩ }
  constructor
  · rcases run.append continued with ⟨_, _, _, whole⟩
    exact whole.quiet (fun _ => rfl) (by decide +kernel)
  constructor
  · exact .inl ⟨rfl, rfl⟩
  · decide +kernel

end RefundEngine
