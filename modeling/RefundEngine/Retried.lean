import RefundEngine.Acknowledged
import RefundEngine.ApprovedOnce
import RefundEngine.Footprint
import RefundEngine.RecoverTwice

/-!
# Asking again

An approval, a submission or a delivery that has been answered may be made again, at any time and
however often: what it would do has been done, it finds that out when it looks, and whatever
else goes on meanwhile it changes nothing.
-/

namespace RefundEngine

open Interleaving (CallId Contract Machine own own_cons_self mem_own)

/-- The operation asks again for what was done. -/
def Operation.Repeats (done : Operation) : Operation → Prop
  | .approve refundId _ => ∃ approver, done = .approve refundId approver
  | .submitRefund refundId => done = .submitRefund refundId
  | .handleWebhook event .. => ∃ first rawBody sig secret,
      done = .handleWebhook first rawBody sig secret ∧ first.id = event.id
  | .requestRefund .. | .recoverSubmitted | .reconcile _ => False

/-- What the operation asks for has been done. -/
def Operation.Spent (world : World) : Operation → Prop
  | .approve refundId _ => ∃ row ∈ world.rows,
      row.id = refundId ∧ Status.requested.rank ≤ row.status.rank
  | .submitRefund refundId => Placed world refundId
  | .handleWebhook event .. => event.id ∈ world.database.webhookEvents
  | .requestRefund .. | .recoverSubmitted | .reconcile _ => False

/-- Nothing has changed but when refunds were last updated. -/
structure Unmoved (before after : World) : Prop extends SameAsOnce before after where
  webhookEvents : after.database.webhookEvents = before.database.webhookEvents

/-- The call is told that it has applied something. -/
def Applied : Except RefundError Reply → Prop
  | .ok .approved | .ok (.webhook .applied) => True
  | _ => False

/-- A submission writes an audit row only for a refund that it has read as requested. -/
def noteContract (hmac : Hmac) : Contract (engine hmac) where
  license call operation events command := ∀ refundId fromStatus toStatus actor,
    operation = .submitRefund refundId →
      command = .sql (.recordTransition refundId fromStatus toStatus actor) →
      ∃ row, Answered call operation events (.sql (.getRefund refundId)) (.ok (some row)) ∧
        row.status = .requested
  outcome _ _ _ _ := True

theorem submitRefund_notes {hmac : Hmac} {call : CallId} (refundId : Uuid) :
    Upholds (noteContract hmac) call (.submitRefund refundId) (fun _ _ => True)
      (submitRefund refundId) [.started call (.submitRefund refundId)] := by
  unfold submitRefund getRefund
  apply upholds_bind
  refine upholds_sql nofun ?_ (fun _ _ _ _ => trivial) trivial
  intro found read _ _
  cases found with
  | none => exact upholds_throw trivial
  | some row =>
      apply upholds_pure
      by_cases decided : row.status = .settled ∨ row.status = .failed ∨ row.status = .canceled
      · simp only [if_pos decided]
        exact upholds_pure trivial
      simp only [if_neg decided]
      by_cases pending : row.status = .pendingReview
      · simp only [if_pos pending]
        exact upholds_pure trivial
      simp only [if_neg pending]
      refine upholds_sql nofun ?_ (fun _ _ _ _ => trivial) trivial
      intro _ marked _ _
      have sends : ∀ events : List EngineEvent,
          Upholds (noteContract hmac) call (.submitRefund refundId) (fun _ _ => True)
            (Action.createRefund row.amountCents row.currency refundId.toString >>=
              recordOutcome refundId)
            events := by
        intro events
        refine upholds_createRefund nofun ?_
        intro outcome asked
        cases outcome with
        | accepted refund =>
            refine upholds_sql nofun ?_ (fun _ _ _ _ => trivial) trivial
            exact fun _ _ _ _ => upholds_pure trivial
        | dropped | timedOut => exact upholds_pure trivial
      by_cases submitted : row.status ≠ .submitted
      · simp only [if_pos submitted]
        have requested : row.status = .requested := by
          revert decided pending submitted
          cases row.status <;> simp
        refine upholds_sql ?_ (fun _ _ _ _ => sends _) (fun _ _ _ _ => trivial) trivial
        rintro _ _ _ _ ⟨⟩ -
        exact ⟨row, Answered.head.cons _, requested⟩
      · simp only [if_neg submitted]
        exact sends _

theorem noteContract_upheld (hmac : Hmac) : (noteContract hmac).Upheld := by
  intro call operation
  cases operation with
  | submitRefund refundId =>
      apply upholds_map
      exact submitRefund_notes refundId
  | requestRefund | approve | recoverSubmitted | handleWebhook | reconcile =>
      apply Contract.obeys_of_free
      · intro events command refundId fromStatus toStatus actor same
        cases same
      · intro result events
        trivial

/-! ## What is spent stays as it is -/

section Updates

variable {world : World} {operation : Operation} {update : RefundUpdate} {row : Refund}

theorem Refund.sameApartFromUpdatedAt_refl (row : Refund) : row.SameApartFromUpdatedAt row := rfl

theorem placed_of_spent {refundId : Uuid} (spent : operation.Spent world)
    (sends : operation.Sends refundId) : Placed world refundId := by
  cases operation with
  | submitRefund submitted =>
      cases sends
      exact spent
  | recoverSubmitted => exact spent.elim
  | requestRefund | approve | handleWebhook | reconcile => exact sends.elim

theorem Placed.of_row (placed : Placed world row.id) (member : row ∈ world.rows) :
    Status.submitted.rank ≤ row.status.rank ∧ row.gatewayRef ≠ none := by
  rcases placed with ⟨other, inside, refund, same, past, recorded, _⟩
  cases world.database.refunds.eq_of_id inside member same
  exact ⟨past, by simp [recorded]⟩

/-- An update that a spent operation runs reaches its refund no more, or sets the status that the
refund has. -/
theorem same_of_spent (spent : operation.Spent world) (updates : operation.Updates update)
    (member : row ∈ world.rows) :
    row.SameApartFromUpdatedAt ((update.change world.now).apply row) := by
  simp only [RefundUpdate.change]
  split
  · rename_i applies
    cases update with
    | settle | fail => exact updates.elim
    | recoverRef =>
        cases updates
        exact spent.elim
    | markRequested id =>
        rcases updates with ⟨approver, rfl⟩
        rcases spent with ⟨released, inside, same, past⟩
        cases world.database.refunds.eq_of_id inside member (same.trans applies.1.symm)
        simp [applies.2, Status.rank] at past
    | markSubmitted id =>
        rcases applies with ⟨rfl, live⟩
        have past := ((placed_of_spent spent updates).of_row member).1
        have submitted : row.status = .submitted := by
          rcases live with requested | submitted
          · simp [requested, Status.rank] at past
          · exact submitted
        simp only [Refund.SameApartFromUpdatedAt, RefundUpdate.assign, ← submitted]
    | recordRef id =>
        rcases applies with ⟨rfl, missing⟩
        exact (((placed_of_spent spent updates).of_row member).2 missing).elim
  · exact row.sameApartFromUpdatedAt_refl

end Updates

/-- The call has found its operation spent whenever it has acted. -/
def Late (call : CallId) (operation : Operation) (trace : List EngineEvent) : Prop :=
  ∀ (command : Command) (answer : command.Answer) (before : World),
    .answered call operation command answer before ∈ trace → operation.Spent before

section Late

variable {hmac : Hmac} {trace : List EngineEvent} {state next : EngineState}
variable {event : EngineEvent} {call : CallId} {operation : Operation}

theorem Late.passed {refundId : Uuid} {approver : String} {read : Refund} {before : World}
    (late : Late call (.approve refundId approver) trace) (run : EngineRun hmac trace state)
    (member : .answered call (.approve refundId approver) (.sql (.getRefund refundId))
      (.ok (some read)) before ∈ trace) : read.status ≠ .pendingReview := by
  intro pending
  rcases late _ _ _ member with ⟨released, inside, same, past⟩
  have answer := run.getRefund_answer member
  rw [RefundTable.find?_eq_some.mpr ⟨inside, same⟩] at answer
  cases answer
  simp [pending, Status.rank] at past

theorem Late.submitted {refundId : Uuid} {read : Refund} {before : World}
    (late : Late call (.submitRefund refundId) trace) (run : EngineRun hmac trace state)
    (member : .answered call (.submitRefund refundId) (.sql (.getRefund refundId))
      (.ok (some read)) before ∈ trace) : read.status ≠ .requested := by
  intro requested
  rcases late _ _ _ member with ⟨placed, inside, refund, same, past, _⟩
  have answer := run.getRefund_answer member
  rw [RefundTable.find?_eq_some.mpr ⟨inside, same⟩] at answer
  cases answer
  simp [requested, Status.rank] at past

theorem Late.seen {webhook : WebhookEvent} {rawBody secret : Bytes} {sig : String}
    (late : Late call (.handleWebhook webhook rawBody sig secret) trace)
    (run : EngineRun hmac trace state) :
    ¬Inserted call (.handleWebhook webhook rawBody sig secret) webhook trace := by
  rintro ⟨seen, before, member⟩
  have spent := late _ _ _ member
  rcases List.append_of_mem member with ⟨newer, earlier, split⟩
  rcases run with ⟨_, _, _, run⟩
  rcases run.step_of_split split with ⟨reached, after, _, step, _⟩
  have unseen := (recorded_of_step step).unseen webhook.id rfl
  cases step with
  | answer => exact unseen spent

/-- A submission that writes an audit row has read the refund as requested. -/
theorem EngineRun.read_of_note (run : EngineRun hmac trace state) {refundId : Uuid}
    {fromStatus : Option Status} {toStatus : Status} {actor : String}
    {answer : Except DbError Unit} {before : World}
    (step : (engine hmac).Step state (.answered call (.submitRefund refundId)
      (.sql (.recordTransition refundId fromStatus toStatus actor)) answer before) next) :
    ∃ read, Answered call (.submitRefund refundId) (own call trace) (.sql (.getRefund refundId))
      (.ok (some read)) ∧ read.status = .requested := by
  rcases run with ⟨_, _, _, run⟩
  exact (noteContract_upheld hmac).permits (fun _ => rfl) run step refundId fromStatus toStatus
    actor rfl rfl

theorem EngineRun.inserted_of_commit (run : EngineRun hmac trace state) {webhook : WebhookEvent}
    {rawBody secret : Bytes} {sig : String} {answer : Except DbError Unit} {before : World}
    (step : (engine hmac).Step state
      (.answered call (.handleWebhook webhook rawBody sig secret) (.sql .commit) answer before)
      next) (asks : webhook.update ≠ none) :
    Inserted call (.handleWebhook webhook rawBody sig secret) webhook trace := by
  have updates : ¬Updateless (.handleWebhook webhook rawBody sig secret) := fun updateless =>
    asks (updateless webhook rawBody sig secret rfl)
  rcases run.permits step with ⟨_, updateless⟩ | ⟨update, reason, applied, rest, behind⟩ |
    ⟨_, _, _, _, _, _, _, _, updateless, _⟩
  · exact (updates updateless).elim
  · have member : .answered call (.handleWebhook webhook rawBody sig secret)
        (.sql (.applyMoved update reason)) (.ok ()) applied ∈ own call trace := by
      rw [behind]
      exact List.mem_cons_self
    rcases run.delivering_of_applying (mem_own.mp member).1 ⟨update, reason, rfl⟩ with
      ⟨_, _, ⟨_, _, _, same, _, inserted⟩, _⟩
    cases same
    exact inserted
  · exact (updates updateless).elim

theorem Late.unnoted {refundId : Uuid} {fromStatus : Option Status} {toStatus : Status}
    {actor : String} {answer : Except DbError Unit} (late : Late call operation trace)
    (run : EngineRun hmac trace state)
    (step : (engine hmac).Step state (.answered call operation
      (.sql (.recordTransition refundId fromStatus toStatus actor)) answer state.world) next)
    (spent : operation.Spent state.world)
    (notes : operation.Notes refundId fromStatus toStatus actor) : False := by
  cases operation with
  | approve approved approver =>
      rcases notes with ⟨rfl, pending, _⟩
      have whole := run.cons step trivial
      rcases whole.recording (List.nil_append _).symm with
        ⟨approver', read, found, before, same, _, _, _, readPending, _, behind⟩ |
        ⟨other, _⟩
      · have member : .answered call (.approve approved approver)
            (.sql (.getRefund approved)) (.ok (some read)) before ∈ own call trace := by
          rw [behind]
          simp
        exact late.passed run (mem_own.mp member).1 readPending
      · exact other pending
  | submitRefund submitted =>
      cases notes.1
      rcases run.read_of_note step with ⟨read, ⟨before, member⟩, requested⟩
      exact late.submitted run (mem_own.mp member).1 requested
  | recoverSubmitted => exact spent.elim
  | requestRefund | handleWebhook | reconcile => exact notes.elim

theorem Late.tables (late : Late call operation trace) (run : EngineRun hmac trace state)
    (step : (engine hmac).Step state event next) (taken : callOf event = some (call, operation))
    (permitted : NoCancel trace event) (spent : operation.Spent state.world) :
    List.Forall₂ Refund.SameApartFromUpdatedAt state.world.rows next.world.rows ∧
      next.world.database.transitions = state.world.database.transitions := by
  have trail := run.trailStep step permitted
  generalize isAfter : next.world = after at trail ⊢
  cases trail with
  | still rows audits =>
      rw [rows]
      exact ⟨List.forall₂_same.mpr fun row _ => row.sameApartFromUpdatedAt_refl, audits⟩
  | updated updates rows audits =>
      cases taken
      rw [rows, List.forall₂_map_right_iff, List.forall₂_same]
      exact ⟨fun row member => same_of_spent spent updates member, audits⟩
  | noted _ _ notes =>
      cases taken
      exact (late.unnoted run step spent notes).elim
  | opened =>
      cases taken
      exact spent.elim
  | decided _ asks =>
      cases taken
      have updates := asks ▸ Option.some_ne_none _
      exact (late.seen run (run.inserted_of_commit step updates)).elim

theorem gateway_of_spent (run : EngineRun hmac trace state)
    (step : (engine hmac).Step state event next) (taken : callOf event = some (call, operation))
    (spent : operation.Spent state.world) : next.world.gateway = state.world.gateway := by
  have effect := stepEffect step
  generalize isAfter : next.world = after at effect ⊢
  cases effect with
  | same tables => exact tables.gateway
  | executed effect =>
      cases effect with
      | same tables => exact tables.gateway
      | updated | conflict | inserted | committed => rfl
  | @requested _ _ amount currency key =>
      cases taken
      rcases run.issued_of_step step with ⟨sent, rfl, sends⟩
      rcases placed_of_spent spent sends with ⟨_, _, refund, _, _, _, held, _⟩
      rcases state.world.gateway.createRefund_cases amount currency sent.toString with
        ⟨existing, _, answers⟩ | ⟨absent, _⟩ | ⟨absent, _⟩
      · exact congrArg Prod.snd answers
      · cases held.symm.trans absent
      · cases held.symm.trans absent
  | configured | charged | canceled => cases taken

theorem webhookEvents_of_spent (run : EngineRun hmac trace state)
    (step : (engine hmac).Step state event next) (taken : callOf event = some (call, operation))
    (spent : operation.Spent state.world) :
    next.world.database.webhookEvents = state.world.database.webhookEvents := by
  have recorded := recorded_of_step step
  cases inserts : insertedId event with
  | none => rw [recorded.table, inserts, Option.toList_none, List.append_nil]
  | some id =>
      exfalso
      unfold insertedId at inserts
      split at inserts
      · cases inserts
        cases taken
        rcases run.issued_of_step step with ⟨webhook, rawBody, sig, secret, rfl, rfl⟩
        exact recorded.unseen webhook.id rfl spent
      · cases inserts

/-- No step of a late call changes anything but when refunds were last updated. -/
theorem Late.unmoved (late : Late call operation trace) (run : EngineRun hmac trace state)
    (step : (engine hmac).Step state event next) (taken : callOf event = some (call, operation))
    (permitted : NoCancel trace event) (spent : operation.Spent state.world) :
    Unmoved state.world next.world := by
  rcases late.tables run step taken permitted spent with ⟨rows, transitions⟩
  have gateway := gateway_of_spent run step taken spent
  exact {
    refunds := rows
    store := congrArg MockGateway.store gateway
    issuedCount := congrArg MockGateway.issuedCount gateway
    transitions := transitions
    webhookEvents := webhookEvents_of_spent run step taken spent }

theorem Late.not_applied {result : Except RefundError Reply} (late : Late call operation trace)
    (run : EngineRun hmac trace state)
    (step : (engine hmac).Step state (.finished call operation result) next)
    (spent : operation.Spent state.world) : ¬Applied result := by
  intro applied
  have whole := run.cons step trivial
  have finished : Interleaving.Event.finished call operation result ∈
      Interleaving.Event.finished call operation result :: trace := List.mem_cons_self
  rcases result with error | reply
  · exact applied
  · have shape := whole.replies_of_finished finished
    cases operation with
    | approve refundId approver =>
        have returned : next.calls call = .finished (.approve refundId approver) (.ok reply) := by
          cases step
          simp
        rcases whole.approval_of_finished returned with ⟨events, latest, approval⟩
        rw [own_cons_self rfl] at latest
        cases approval with
        | @approved read recorded found before pending =>
            have member : .answered call (.approve refundId approver)
                (.sql (.getRefund refundId)) (.ok (some read)) before ∈ own call trace := by
              rw [(List.cons.inj latest).2]
              simp
            exact late.passed run (mem_own.mp member).1 pending
    | handleWebhook webhook rawBody sig secret =>
        cases reply with
        | webhook result =>
            cases result with
            | applied =>
                rcases (whole.outcome (List.nil_append _).symm webhook rawBody sig secret rfl).2.2
                  rfl with ⟨seen, before, _, _, member, _⟩
                exact late.seen run ⟨seen, before, (mem_own.mp member).1⟩
            | duplicate => exact applied
        | refundId | approved | accepted | recovered | reconciled => exact shape
    | submitRefund refundId =>
        cases reply with
        | accepted => exact applied
        | refundId | approved | recovered | webhook | reconciled => exact shape
    | requestRefund | recoverSubmitted | reconcile => exact spent

end Late

section Again

variable {hmac : Hmac} {trace more : List EngineEvent} {state final : EngineState}
variable {first retry : CallId} {done operation : Operation} {reply : Reply}

/-- What has been answered is spent. -/
theorem EngineRun.spent_of_finished (run : EngineRun hmac trace state)
    (finished : .finished first done (.ok reply) ∈ trace) (success : reply ≠ .accepted false)
    (repeats : done.Repeats operation) : operation.Spent state.world := by
  have shape := run.replies_of_finished finished
  cases operation with
  | approve refundId approver =>
      rcases repeats with ⟨approved, rfl⟩
      cases reply with
      | approved =>
          rcases (run.honors_approval finished).1 with ⟨row, member, same, _, past⟩
          exact ⟨row, member, same, past⟩
      | refundId | accepted | recovered | webhook | reconciled => exact shape.elim
  | submitRefund refundId =>
      cases repeats
      cases reply with
      | accepted recorded =>
          cases recorded with
          | true => exact run.placed_of_accepted finished
          | false => exact (success rfl).elim
      | refundId | approved | recovered | webhook | reconciled => exact shape.elim
  | handleWebhook webhook rawBody sig secret =>
      rcases repeats with ⟨delivered, _, _, _, rfl, same⟩
      cases reply with
      | webhook result =>
          show webhook.id ∈ state.world.database.webhookEvents
          rw [← same]
          exact run.seen_of_finished finished
      | refundId | approved | accepted | recovered | reconciled => exact shape.elim
  | requestRefund | recoverSubmitted | reconcile => exact repeats.elim

/-- A call that starts after the answer is late. -/
theorem EngineRun.late_of_finished (run : EngineRun hmac trace state)
    (finished : .finished first done (.ok reply) ∈ trace) (success : reply ≠ .accepted false)
    (repeats : done.Repeats operation) (idle : state.calls retry = .idle)
    (continued : (engine hmac).Run NoCancel state more final) :
    Late retry operation (more ++ trace) := by
  intro command answer before member
  rcases List.mem_append.mp member with since | earlier
  · rcases List.append_of_mem since with ⟨newer, older, split⟩
    rcases continued.step_of_split split with ⟨reached, after, between, step, _⟩
    have spent := (run.append between).spent_of_finished
      (List.mem_append_right _ finished) success repeats
    cases step with
    | answer => exact spent
  · rcases run with ⟨_, _, _, run⟩
    exact (run.no_events_of_idle idle _ earlier rfl).elim

end Again

/-- An approval, a submission or a delivery that was answered may be made again, by a call that
starts later: whatever other calls do in the meantime, fail or die, none of its steps changes a
refund, update times aside, an audit row, an event id or the gateway's books, and it does not
return that it has applied something. -/
theorem retry_inert {hmac : Hmac} {trace more : List EngineEvent} {state final next : EngineState}
    {event : EngineEvent} {first retry : CallId} {done operation : Operation} {reply : Reply}
    (run : EngineRun hmac trace state) (finished : .finished first done (.ok reply) ∈ trace)
    (success : reply ≠ .accepted false) (repeats : done.Repeats operation)
    (idle : state.calls retry = .idle) (continued : (engine hmac).Run NoCancel state more final)
    (step : (engine hmac).Step final event next) (taken : callOf event = some (retry, operation)) :
    Unmoved final.world next.world ∧
      ∀ result, event = .finished retry operation result → ¬Applied result := by
  have reached := run.append continued
  have late := run.late_of_finished finished success repeats idle continued
  have spent := reached.spent_of_finished (List.mem_append_right _ finished) success repeats
  have permitted : NoCancel (more ++ trace) event := by
    cases step with
    | start | answer | fail | finish | die => trivial
    | act => cases taken
  refine ⟨late.unmoved reached step taken permitted spent, ?_⟩
  rintro result rfl
  exact late.not_applied reached step spent

/-- A refund that was submitted is submitted again, and settled in the meantime. -/
def resubmitted : List EngineEvent × EngineState :=
  ((engine sampleHmac).play NoCancel
    (.start 4 (.submitRefund ⟨7⟩) :: .execute 4 ::
      uninterrupted 5 (.handleWebhook sampleEvent [] (sign sampleHmac [] []) []) 4 ++
      [.execute 4])
    ([], silenced.2)).get (by decide +kernel)

/-- The gateway is asked for it. -/
def askedAgain : EngineEvent × EngineState :=
  ((engine sampleHmac).step (.execute 4) resubmitted.2).get (by decide +kernel)

theorem retry_inert_resubmitted :
    (∃ row ∈ resubmitted.2.world.rows, row.id = ⟨7⟩ ∧ row.status = .settled) ∧
      Unmoved resubmitted.2.world askedAgain.2.world := by
  have finished : .finished 1 (.submitRefund ⟨7⟩) (.ok (.accepted true)) ∈ silenced.1 :=
    finished_of_ending (by decide +kernel)
  have continued : (engine sampleHmac).Run NoCancel silenced.2 resubmitted.1 resubmitted.2 :=
    Machine.play_run .nil (Option.some_get _).symm
  have taken : (engine sampleHmac).step (.execute 4) resubmitted.2 = some askedAgain :=
    (Option.some_get _).symm
  have step : (engine sampleHmac).Step resubmitted.2 askedAgain.1 askedAgain.2 :=
    Machine.step_sound taken
  have idle : silenced.2.calls 4 = .idle := silenced_run.idle_of_absent (by decide +kernel)
  have repeats : (Operation.submitRefund ⟨7⟩).Repeats (.submitRefund ⟨7⟩) := rfl
  have asks : callOf askedAgain.1 = some (4, .submitRefund ⟨7⟩) := by decide +kernel
  exact ⟨by decide +kernel,
    (retry_inert silenced_run finished nofun repeats idle continued step asks).1⟩

end RefundEngine
