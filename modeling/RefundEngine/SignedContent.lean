import RefundEngine.InterruptedDelivery

/-!
# What a signature covers

`handle_webhook` takes the parsed event and the raw body as two arguments, and the signature
covers only the second.  One signed body therefore admits every event: two deliveries with
the same body and signature have the same effect only where their events ask for the same.
-/

namespace RefundEngine

open Interleaving (CallId Machine)

/-- What can be seen of a delivery: its result and the tables it leaves. -/
structure Observed where
  result : Except RefundError Reply
  refunds : List Refund
  transitions : List Transition
  webhookEvents : List String

/-- What is seen when a call returns. -/
def observe (result : Except RefundError Reply) (world : World) : Observed where
  result := result
  refunds := world.rows
  transitions := world.database.transitions
  webhookEvents := world.database.webhookEvents

/-- A whole delivery as one function of the tables it finds. -/
def WebhookEvent.effect (event : WebhookEvent) (signed : Bool) (world : World) : Observed :=
  if signed = false then observe (.error .badSignature) world
  else if event.id ∈ world.database.webhookEvents then
    observe (.ok (.webhook .duplicate)) world
  else
    { result := .ok (.webhook .applied)
      refunds := world.rows.map (event.revise world.now)
      transitions := world.database.transitions ++ event.audit world
      webhookEvents := world.database.webhookEvents ++ [event.id] }

section Effect

variable {hmac : Hmac} {event : WebhookEvent} {rawBody secret : Bytes} {sig : String}
variable {state final : EngineState} {trace : List EngineEvent} {call : CallId}
variable {result : Except RefundError Reply}

theorem handleWebhook_eval_unsigned {world : World}
    (unsigned : verifySignature hmac rawBody sig secret = false) (call : CallId) :
    (handleWebhook hmac event rawBody sig secret).eval call world =
      some (.error .badSignature, world) := by
  simp only [handleWebhook, unsigned, if_true]
  rfl

/-- The handler, run by itself, has the effect of the event. -/
theorem observe_delivery (unlocked : ∀ call, state.world.transaction call = none)
    (idle : state.calls call = .idle)
    (run : (engine hmac).Run (Machine.Alone call (.handleWebhook event rawBody sig secret))
      state trace final)
    (finished : final.calls call = .finished (.handleWebhook event rawBody sig secret) result) :
    observe result final.world =
      event.effect (verifySignature hmac rawBody sig secret) state.world := by
  rcases run.eval_of_alone idle finished with ⟨reached, evaluates, closed⟩
  have observed : ∀ {answer : Except RefundError WebhookResult} {after : World},
      (handleWebhook hmac event rawBody sig secret).eval call state.world =
        some (answer, after) →
      observe result final.world = observe (answer.map Reply.webhook) after := by
    intro answer after delivers
    have mapped : ((engine hmac).program (.handleWebhook event rawBody sig secret)).eval
        ((engine hmac).execute call) state.world = some (answer.map Reply.webhook, after) := by
      refine (Action.eval_map _ _).trans ?_
      rw [delivers]
      rfl
    have same := evaluates.symm.trans mapped
    simp only [Option.some.injEq, Prod.mk.injEq] at same
    rw [closed, same.1, same.2]
    rfl
  rw [WebhookEvent.effect]
  by_cases signed : verifySignature hmac rawBody sig secret = false
  · rw [if_pos signed]
    exact observed (handleWebhook_eval_unsigned signed call)
  · rw [if_neg signed]
    rw [Bool.not_eq_false] at signed
    by_cases seen : event.id ∈ state.world.database.webhookEvents
    · rw [if_pos seen]
      exact observed (handleWebhook_eval_seen signed seen call)
    · rw [if_neg seen]
      rcases handleWebhook_eval unlocked signed seen call with
        ⟨after, delivers, rows, transitions, inserted⟩
      rw [observed delivers, observe, rows, transitions, inserted]
      rfl

end Effect

/-! ## Two events under one signature -/

section Agreement

variable {event other : WebhookEvent} {world : World}

/-- The events call for the same statement, or neither matches any row. -/
def WebhookEvent.Agrees (event other : WebhookEvent) (world : World) : Prop :=
  event.update = other.update ∨ event.Unmatched world ∧ other.Unmatched world

/-- Two statements that move one row to the same status for the same reason are the same. -/
theorem WebhookEvent.update_unique {update update' : RefundUpdate} {reason : Option String}
    (updates : event.update = some (update, reason))
    (updates' : other.update = some (update', reason)) {row : Refund} {now : Timestamp}
    (applies : update.Applies row) (applies' : update'.Applies row)
    (same : (update.assign now row).status = (update'.assign now row).status) :
    update = update' := by
  rw [WebhookEvent.update] at updates updates'
  split at updates
  · cases updates
    split at updates'
    · cases updates'
      rw [Option.some.inj (applies.1.symm.trans applies'.1)]
    · split at updates'
      · simp only [Option.some.injEq, Prod.mk.injEq] at updates'
        rcases updates' with ⟨rfl, _⟩
        cases same
      · cases updates'
  · split at updates
    · cases updates
      split at updates'
      · simp only [Option.some.injEq, Prod.mk.injEq] at updates'
        rcases updates' with ⟨rfl, _⟩
        cases same
      · split at updates'
        · simp only [Option.some.injEq, Prod.mk.injEq] at updates'
          rcases updates' with ⟨rfl, reasons⟩
          rw [Option.some.inj (applies.1.symm.trans applies'.1), reasons]
        · cases updates'
    · cases updates

theorem WebhookEvent.audit_of_matched {update : RefundUpdate} {reason : Option String}
    (updates : event.update = some (update, reason)) (matched : ¬event.Unmatched world) :
    ∃ row ∈ world.rows, update.Applies row ∧ ∃ audit rest, event.audit world = audit :: rest ∧
      audit.refundId = row.id ∧ audit.toStatus = (update.assign world.now row).status ∧
      audit.reason = reason := by
  rw [← audit_eq_nil] at matched
  simp only [WebhookEvent.audit, updates] at matched ⊢
  generalize found : (world.rows.filter fun row => update.Applies row) = moved at matched ⊢
  cases moved with
  | nil => exact (matched rfl).elim
  | cons row rest =>
      have inside : row ∈ world.rows.filter fun row => update.Applies row := by
        rw [found]
        exact List.mem_cons_self ..
      rcases List.mem_filter.mp inside with ⟨member, applies⟩
      refine ⟨row, member, of_decide_eq_true applies, _, _, List.mapIdx_cons, rfl, rfl, rfl⟩

/-- The audit rows tell two events apart unless they agree. -/
theorem WebhookEvent.audit_eq_iff :
    event.audit world = other.audit world ↔ event.Agrees other world := by
  constructor
  · intro same
    by_cases unmatched : event.Unmatched world
    · right
      refine ⟨unmatched, ?_⟩
      rw [← audit_eq_nil] at unmatched ⊢
      rw [← same]
      exact unmatched
    · left
      have matched : ¬other.Unmatched world := by
        rw [← audit_eq_nil] at unmatched ⊢
        rw [← same]
        exact unmatched
      cases updates : event.update with
      | none => exact (unmatched (by simp [WebhookEvent.Unmatched, updates])).elim
      | some decided =>
          cases updates' : other.update with
          | none => exact (matched (by simp [WebhookEvent.Unmatched, updates'])).elim
          | some decided' =>
              rcases audit_of_matched updates unmatched with
                ⟨row, member, applies, audit, rest, first, refund, status, reason⟩
              rcases audit_of_matched updates' matched with
                ⟨row', member', applies', audit', rest', first', refund', status', reason'⟩
              have audits : audit = audit' := by
                have lists := first.symm.trans (same.trans first')
                exact (List.cons.inj lists).1
              have isRow : row = row' := by
                apply world.database.refunds.eq_of_id member member'
                rw [← refund, ← refund', audits]
              have reasons : decided.2 = decided'.2 := by
                rw [← reason, ← reason', audits]
              have statuses : (decided.1.assign world.now row).status =
                  (decided'.1.assign world.now row).status := by
                rw [← status, audits, status', isRow]
              rw [← isRow] at applies'
              rcases decided with ⟨update, cause⟩
              rcases decided' with ⟨update', cause'⟩
              cases reasons
              rw [update_unique updates updates' applies applies' statuses]
  · intro agrees
    rcases agrees with same | ⟨unmatched, unmatched'⟩
    · simp only [WebhookEvent.audit, same]
    · rw [(audit_eq_nil world).mpr unmatched, (audit_eq_nil world).mpr unmatched']

theorem WebhookEvent.Agrees.revise (agrees : event.Agrees other world) :
    world.rows.map (event.revise world.now) = world.rows.map (other.revise world.now) := by
  rcases agrees with same | ⟨unmatched, unmatched'⟩
  · apply List.map_congr_left
    intro row _
    simp only [WebhookEvent.revise, same]
  · rw [revise_of_unmatched unmatched, revise_of_unmatched unmatched']

/-- When two events have the same effect. -/
theorem WebhookEvent.effect_eq_iff (signed : Bool) :
    event.effect signed world = other.effect signed world ↔
      signed = false ∨
      (event.id ∈ world.database.webhookEvents ∧ other.id ∈ world.database.webhookEvents) ∨
      (event.id ∉ world.database.webhookEvents ∧ event.id = other.id ∧
        event.Agrees other world) := by
  rw [WebhookEvent.effect, WebhookEvent.effect]
  cases signed with
  | false => simp only [if_true, true_or]
  | true =>
      simp only [reduceCtorEq, if_false, false_or]
      by_cases seen : event.id ∈ world.database.webhookEvents
      · by_cases seen' : other.id ∈ world.database.webhookEvents
        · simp [seen, seen']
        · simp [seen, seen', observe]
      · have unseen : event.id = other.id → other.id ∉ world.database.webhookEvents := by
          intro same
          rwa [← same]
        by_cases seen' : other.id ∈ world.database.webhookEvents
        · have different : event.id ≠ other.id := fun same => unseen same seen'
          simp [seen, seen', different, observe]
        · simp only [seen, seen', if_false, Observed.mk.injEq, List.append_cancel_left_eq,
            List.cons.injEq, WebhookEvent.audit_eq_iff, true_and, and_true, false_or, false_and,
            not_false_eq_true]
          constructor
          · rintro ⟨_, agrees, same⟩
            exact ⟨same, agrees⟩
          · rintro ⟨same, agrees⟩
            exact ⟨agrees.revise, agrees, same⟩

end Agreement

/-- From every state between calls, two deliveries with one body, signature and secret have
the same result and leave the same tables exactly when the signature fails, both ids have
been processed, or the two new events share their id and call for the same change. -/
theorem same_signature_same_effect_iff {hmac : Hmac} {state final final' : EngineState}
    {event other : WebhookEvent} {rawBody secret : Bytes} {sig : String} {call call' : CallId}
    {trace trace' : List EngineEvent} {result result' : Except RefundError Reply}
    (unlocked : ∀ call, state.world.transaction call = none)
    (idle : state.calls call = .idle) (idle' : state.calls call' = .idle)
    (run : (engine hmac).Run (Machine.Alone call (.handleWebhook event rawBody sig secret))
      state trace final)
    (finished : final.calls call = .finished (.handleWebhook event rawBody sig secret) result)
    (run' : (engine hmac).Run (Machine.Alone call' (.handleWebhook other rawBody sig secret))
      state trace' final')
    (finished' : final'.calls call' =
      .finished (.handleWebhook other rawBody sig secret) result') :
    observe result final.world = observe result' final'.world ↔
      verifySignature hmac rawBody sig secret = false ∨
      (event.id ∈ state.world.database.webhookEvents ∧
        other.id ∈ state.world.database.webhookEvents) ∨
      (event.id ∉ state.world.database.webhookEvents ∧ event.id = other.id ∧
        event.Agrees other state.world) := by
  rw [observe_delivery unlocked idle run finished,
    observe_delivery unlocked idle' run' finished']
  exact WebhookEvent.effect_eq_iff _

/-- The sample event with a reason, which a settlement ignores. -/
def explainedEvent : WebhookEvent :=
  { sampleEvent with data := { sampleEvent.data with reason := some "paid" } }

/-- The sample event turned into a failure. -/
def forgedEvent : WebhookEvent := { sampleEvent with eventType := "refund.failed" }

/-- Deliver an event under the signature of the sample. -/
def deliveredAs (event : WebhookEvent) : Option (List EngineEvent × EngineState) :=
  let delivery := .handleWebhook event [] (sign sampleHmac [] []) []
  (engine sampleHmac).play (Machine.Alone 5 delivery) (uninterrupted 5 delivery 4)
    ([], sampleUnsettled.2)

def deliveredExplained : List EngineEvent × EngineState :=
  (deliveredAs explainedEvent).get (by decide +kernel)

def deliveredForged : List EngineEvent × EngineState :=
  (deliveredAs forgedEvent).get (by decide +kernel)

theorem same_signature_same_effect_explained :
    observe (.ok (.webhook .applied)) deliveredOnce.2.world =
      observe (.ok (.webhook .applied)) deliveredExplained.2.world := by
  have once : (engine sampleHmac).Run (Machine.Alone 5 sampleDelivery) sampleUnsettled.2
      deliveredOnce.1 deliveredOnce.2 :=
    Machine.play_run .nil (Option.some_get _).symm
  have explained : (engine sampleHmac).Run
      (Machine.Alone 5 (.handleWebhook explainedEvent [] (sign sampleHmac [] []) []))
      sampleUnsettled.2 deliveredExplained.1 deliveredExplained.2 :=
    Machine.play_run .nil (Option.some_get _).symm
  have idle : sampleUnsettled.2.calls 5 = .idle := rfl
  have fresh : sampleEvent.id ∉ sampleUnsettled.2.world.database.webhookEvents := by
    decide +kernel
  apply (same_signature_same_effect_iff sampleUnsettled_unlocked idle idle once rfl explained
    rfl).mpr
  exact .inr (.inr ⟨fresh, rfl, .inl rfl⟩)

/-- One signed body, two events: the same signature settles the refund or fails it. -/
theorem signature_admits_forgery :
    (∀ call, sampleUnsettled.2.world.transaction call = none) ∧
    sampleUnsettled.2.calls 5 = .idle ∧
    (engine sampleHmac).Run
      (Machine.Alone 5 (.handleWebhook sampleEvent [] (sign sampleHmac [] []) []))
      sampleUnsettled.2 deliveredOnce.1 deliveredOnce.2 ∧
    deliveredOnce.2.calls 5 = .finished
      (.handleWebhook sampleEvent [] (sign sampleHmac [] []) []) (.ok (.webhook .applied)) ∧
    (engine sampleHmac).Run
      (Machine.Alone 5 (.handleWebhook forgedEvent [] (sign sampleHmac [] []) []))
      sampleUnsettled.2 deliveredForged.1 deliveredForged.2 ∧
    deliveredForged.2.calls 5 = .finished
      (.handleWebhook forgedEvent [] (sign sampleHmac [] []) []) (.ok (.webhook .applied)) ∧
    (∃ row ∈ deliveredOnce.2.world.rows, row.id = ⟨7⟩ ∧ row.status = .settled) ∧
    ∃ row ∈ deliveredForged.2.world.rows, row.id = ⟨7⟩ ∧ row.status = .failed := by
  refine ⟨sampleUnsettled_unlocked, rfl, Machine.play_run .nil (Option.some_get _).symm, rfl,
    Machine.play_run .nil (Option.some_get _).symm, rfl, ?_, ?_⟩
  · decide +kernel
  · decide +kernel

end RefundEngine
