import RefundEngine.Audit.Moved

/-!
# The audit trail of calls one at a time

When calls run to completion one after the other, the audit rows of every refund lead along
the state machine from nothing to its status.  When calls may stop short they still do, as
long as no call stops between a change of status outside a transaction and the insert of its
audit row; one that does leaves a status that no audit row records.
-/

namespace RefundEngine

open Interleaving (CallId Machine Event Serial own)

/-- Calls run one at a time and stop short only where their own events permit it. -/
def OneAtATime (mayStop : List EngineEvent → Prop) (trace : List EngineEvent)
    (event : EngineEvent) : Prop :=
  NoCancel trace event ∧ Serial mayStop trace event

instance (mayStop : List EngineEvent → Prop) [DecidablePred mayStop]
    (trace : List EngineEvent) (event : EngineEvent) :
    Decidable (OneAtATime mayStop trace event) :=
  inferInstanceAs (Decidable (_ ∧ _))

/-- A run of calls one at a time, from an empty database. -/
def SerialRun (hmac : Hmac) (mayStop : List EngineEvent → Prop) (trace : List EngineEvent)
    (state : EngineState) : Prop :=
  ∃ charges config now,
    (engine hmac).Run (OneAtATime mayStop) (initialState charges config now) trace state

/-- Nothing is owed: every status the call has changed is recorded. -/
abbrev OwesNothing (events : List EngineEvent) : Prop := owed events = []

section Runs

variable {hmac : Hmac} {mayStop : List EngineEvent → Prop} {trace : List EngineEvent}
variable {state : EngineState}

theorem SerialRun.engineRun (run : SerialRun hmac mayStop trace state) :
    EngineRun hmac trace state := by
  rcases run with ⟨charges, config, now, run⟩
  exact ⟨charges, config, now, run.mono fun _ _ permitted => permitted.1⟩

theorem SerialRun.mono {wider : List EngineEvent → Prop}
    (implies : ∀ events, mayStop events → wider events)
    (run : SerialRun hmac mayStop trace state) : SerialRun hmac wider trace state := by
  rcases run with ⟨charges, config, now, run⟩
  refine ⟨charges, config, now, run.mono ?_⟩
  intro earlier event permitted
  refine ⟨permitted.1, ?_⟩
  have serial := permitted.2
  cases event with
  | started => exact serial
  | failed => exact implies _ serial
  | died => exact implies _ serial
  | answered | finished | acted => trivial

theorem atRest_initial (charges : ChargeTable) (config : MockConfig) (now : Timestamp) :
    AtRest (initialState charges config now).world where
  audited :=
    { sorted := List.Pairwise.nil
      bounded := fun _ member => by cases member
      known := fun _ member => by cases member
      opens := fun _ member => by cases member
      chained := fun _ member => by cases member }
  unlocked _ := rfl
  resumed _ := rfl

theorem auditWatched (charges : ChargeTable) (config : MockConfig) (now : Timestamp) :
    (auditWatch hmac).Watched (OneAtATime OwesNothing) (initialState charges config now) where
  serial _ _ permitted := permitted.2
  idle _ := rfl
  always trace state run := by
    have reached : SerialRun hmac OwesNothing trace state := ⟨charges, config, now, run⟩
    exact reached.engineRun.worldOk
  base := atRest_initial charges config now
  acts _ _ _ _ permitted acted := Drifts.of_act permitted.1 acted
  keeps call operation _ _ atRest := operation_keeps operation atRest

/-- Between the calls of such a run the tables tell the truth. -/
theorem SerialRun.atRest (run : SerialRun hmac OwesNothing trace state) (quiet : state.Quiet) :
    AtRest state.world := by
  rcases run with ⟨charges, config, now, run⟩
  exact ((auditWatched charges config now).run run).1 quiet

/-- Every statement of such a run is faithful to the audit trail. -/
theorem SerialRun.faithful (run : SerialRun hmac OwesNothing trace state) {call : CallId}
    {operation : Operation} {command : Command} {answer : command.Answer} {before : World}
    {newer earlier : List EngineEvent}
    (split : trace = newer ++ .answered call operation command answer before :: earlier) :
    Faithful (own call earlier) (.answered call operation command answer before) := by
  rcases run with ⟨charges, config, now, run⟩
  exact ((auditWatched charges config now).run run).2 newer call operation command answer before
    earlier split

end Runs

/-- After calls that ran to completion one after the other, the audit rows of a refund, by
id, lead along the state machine from nothing to its status. -/
theorem audit_reconstructs {hmac : Hmac} {trace : List EngineEvent} {state : EngineState}
    (run : SerialRun hmac (fun _ => False) trace state) (quiet : state.Quiet) (row : Refund)
    (member : row ∈ state.world.rows) :
    Chain none (trail state.world.database.transitions row.id) (some row.status) := by
  have punctual : SerialRun hmac OwesNothing trace state := run.mono fun _ => False.elim
  exact (punctual.atRest quiet).audited.trail member

/-- The end of the sample, which runs its calls to completion one after the other. -/
def serialEnd : List EngineEvent × EngineState :=
  ((engine sampleHmac).play (OneAtATime fun _ => False) sampleLabels
    ([], initialState sampleCharges {} 10)).get (by decide +kernel)

theorem serialEnd_run : SerialRun sampleHmac (fun _ => False) serialEnd.1 serialEnd.2 :=
  ⟨sampleCharges, {}, 10, Machine.play_run .nil (Option.some_get _).symm⟩

theorem serialEnd_quiet : serialEnd.2.Quiet :=
  serialEnd_run.engineRun.quiet_of_ended (by decide +kernel)

/-- The refund that the sample settles has taken five steps. -/
theorem audit_reconstructs_sample : ∃ row ∈ serialEnd.2.world.rows,
    row.status = .settled ∧
    Chain none (trail serialEnd.2.world.database.transitions row.id) (some row.status) ∧
    (trail serialEnd.2.world.database.transitions row.id).map Transition.toStatus =
      [.pendingReview, .requested, .submitted, .submitted, .settled] := by
  have found : ∃ row ∈ serialEnd.2.world.rows, row.status = .settled ∧
      (trail serialEnd.2.world.database.transitions row.id).map Transition.toStatus =
        [.pendingReview, .requested, .submitted, .submitted, .settled] := by
    decide +kernel
  rcases found with ⟨row, member, settled, steps⟩
  exact ⟨row, member, settled, audit_reconstructs serialEnd_run serialEnd_quiet row member, steps⟩

/-! ## Calls that stop short -/

/-- An audit row names the approval whose update released the refund. -/
def NamesApprover (trace : List EngineEvent) (refundId : Uuid) (audit : Transition) : Prop :=
  ∃ call approver found pending,
    audit.actor = "approver:" ++ approver ∧
    .answered call (.approve refundId approver)
      (.sql (.updateRefunds (.markRequested refundId))) (.ok ()) found ∈ trace ∧
    pending ∈ found.rows ∧ pending.id = refundId ∧ pending.status = .pendingReview

section Runs

variable {hmac : Hmac} {trace : List EngineEvent} {state : EngineState}

/-- An audit row that records a release was inserted by the approval that released it. -/
theorem SerialRun.namesApprover (run : SerialRun hmac OwesNothing trace state)
    {audit : Transition} (member : audit ∈ state.world.database.transitions)
    (fromReview : audit.fromStatus = some .pendingReview)
    (released : audit.toStatus = .requested) : NamesApprover trace audit.refundId audit := by
  rcases run.engineRun.appended_of_mem member with ⟨event, inside, listed⟩
  rcases run.engineRun.recorded_of_released inside listed fromReview released with
    ⟨call, operation, before, rfl⟩
  rcases List.append_of_mem inside with ⟨newer, earlier, split⟩
  rcases run.faithful split rfl with
    ⟨approver, found, rest, rfl, actor, behind, pending, pendingIn, id, status⟩
  have approved : .answered call (.approve audit.refundId approver)
      (.sql (.updateRefunds (.markRequested audit.refundId))) (.ok ()) found ∈
      own call earlier := by
    rw [behind]
    exact List.mem_cons_self ..
  refine ⟨call, approver, found, pending, actor, ?_, pendingIn, id, status⟩
  rw [split]
  exact List.mem_append_right _
    (List.mem_cons_of_mem _ (Interleaving.mem_own.mp approved).1)

end Runs

/-- When calls run one at a time and none stops between a change of status outside a
transaction and the insert of its audit row, the newest audit row of every refund names its
status, webhooks take the true status from it, and every refund that left review has an
audit row that names its approver. -/
theorem audit_survives {hmac : Hmac} {trace : List EngineEvent} {state : EngineState}
    (run : SerialRun hmac OwesNothing trace state) :
    (state.Quiet → ∀ row ∈ state.world.rows,
      newestStatus state.world.database.transitions row.id = some row.status) ∧
    (∀ call operation update reason before,
      .answered call operation (.sql (.applyMoved update reason)) (.ok ()) before ∈ trace →
      ∀ row ∈ before.rows, update.Applies row →
        newestStatus before.database.transitions row.id = some row.status) ∧
    WebhooksTell trace state.world ∧
    (state.Quiet → ∀ row ∈ state.world.rows, reviewThresholdCents ≤ row.amountCents →
      row.status ≠ .pendingReview →
      ∃ audit ∈ state.world.database.transitions, audit.refundId = row.id ∧
        audit.fromStatus = some .pendingReview ∧ audit.toStatus = .requested ∧
        NamesApprover trace row.id audit) := by
  constructor
  · intro quiet row member
    exact (run.atRest quiet).audited.newest member
  constructor
  · intro call operation update reason before inside
    rcases List.append_of_mem inside with ⟨newer, earlier, split⟩
    exact (run.faithful split).1
  constructor
  · apply run.engineRun.webhooksTell
    intro call operation update reason before inside
    rcases List.append_of_mem inside with ⟨newer, earlier, split⟩
    exact (run.faithful split).2
  · intro quiet row member large released
    have audited := (run.atRest quiet).audited
    have opens : ∀ audit ∈ state.world.database.transitions.filter
        (fun audit => audit.refundId = row.id), audit.fromStatus = none →
        audit.toStatus = .pendingReview := by
      intro audit listed fromNothing
      rcases List.mem_filter.mp listed with ⟨inside, own⟩
      exact audited.opens row member audit inside (of_decide_eq_true own) fromNothing large
    rcases (audited.chained row member).released released opens with
      ⟨audit, listed, fromReview, toRequested⟩
    rcases List.mem_filter.mp listed with ⟨inside, own⟩
    have own : audit.refundId = row.id := of_decide_eq_true own
    have names := run.namesApprover inside fromReview toRequested
    rw [own] at names
    exact ⟨audit, inside, own, fromReview, toRequested, names⟩

/-- A large refund is approved and submitted at the second attempt: the first approval dies
after its `SELECT`, and the first submission fails to record the reference.  A webhook settles
the refund, also at the second attempt. -/
def retriedLabels : List (Machine.Label Operation Environment) :=
  uninterrupted 0 (.requestRefund ⟨7⟩ sampleCharge.id 150000 "EUR" "alice" none) 6 ++
  [.start 1 (.approve ⟨7⟩ "bob"), .execute 1, .die 1] ++
  uninterrupted 2 (.approve ⟨7⟩ "bob") 3 ++
  [.start 3 (.submitRefund ⟨7⟩), .execute 3, .execute 3, .execute 3, .execute 3, .fail 3,
    .finish 3] ++
  uninterrupted 4 (.submitRefund ⟨7⟩) 4 ++
  [.start 5 (.handleWebhook sampleEvent [] (sign sampleHmac [] []) []), .fail 5, .finish 5] ++
  uninterrupted 6 (.handleWebhook sampleEvent [] (sign sampleHmac [] []) []) 4

def retriedEnd : List EngineEvent × EngineState :=
  ((engine sampleHmac).play (OneAtATime OwesNothing) retriedLabels
    ([], initialState sampleCharges {} 10)).get (by decide +kernel)

theorem retriedEnd_run : SerialRun sampleHmac OwesNothing retriedEnd.1 retriedEnd.2 :=
  ⟨sampleCharges, {}, 10, Machine.play_run .nil (Option.some_get _).symm⟩

theorem retriedEnd_quiet : retriedEnd.2.Quiet :=
  retriedEnd_run.engineRun.quiet_of_ended (by decide +kernel)

/-- The refund is settled, with true audit rows, although three calls have stopped short. -/
theorem audit_survives_sample : (retriedEnd.1.filter Interrupts).length = 3 ∧
    ∃ row ∈ retriedEnd.2.world.rows, row.amountCents = 150000 ∧ row.status = .settled ∧
    newestStatus retriedEnd.2.world.database.transitions row.id = some row.status ∧
    (∃ audit ∈ retriedEnd.2.world.database.transitions, audit.refundId = row.id ∧
      NamesApprover retriedEnd.1 row.id audit) ∧
    ∃ audit ∈ retriedEnd.2.world.database.transitions, audit.fromStatus = some .submitted ∧
      ∃ update reason earlier, earlier.status = .submitted ∧ Tells update reason earlier audit := by
  have found : ∃ row ∈ retriedEnd.2.world.rows, row.amountCents = 150000 ∧
      row.status = .settled := by
    decide +kernel
  have moved : ∃ audit ∈ retriedEnd.2.world.database.transitions,
      audit.fromStatus = some .submitted ∧ audit.toStatus = .settled := by
    decide +kernel
  rcases found with ⟨row, member, amount, settled⟩
  rcases moved with ⟨move, moveIn, source, reached⟩
  rcases audit_survives retriedEnd_run with ⟨newest, _, tell, approved⟩
  have large : reviewThresholdCents ≤ row.amountCents := by
    rw [amount]
    decide
  rcases approved retriedEnd_quiet row member large (by simp [settled]) with
    ⟨audit, inside, own, _, _, names⟩
  rcases tell.2 move moveIn (.inl reached) with ⟨_, _, update, reason, _, _, earlier, _, _, tells⟩
  refine ⟨by decide +kernel, row, member, amount, settled, newest retriedEnd_quiet row member,
    ⟨audit, inside, own, names⟩, move, moveIn, source, update, reason, earlier, ?_, tells⟩
  exact Option.some.inj (tells.fromStatus.symm.trans source)

/-- A large refund is requested; the process that approves it dies between the update and
the insert of the audit row. -/
def unrecordedLabels : List (Machine.Label Operation Environment) :=
  uninterrupted 0 (.requestRefund ⟨7⟩ sampleCharge.id 150000 "EUR" "alice" none) 6 ++
  [.start 1 (.approve ⟨7⟩ "bob"), .execute 1, .execute 1, .die 1]

def unrecordedEnd : List EngineEvent × EngineState :=
  ((engine sampleHmac).play (OneAtATime fun _ => True) unrecordedLabels
    ([], initialState sampleCharges {} 10)).get (by decide +kernel)

/-- The refund has left review, but its newest audit row still names `pending_review` and no
audit row names the approver. -/
theorem audit_lost :
    SerialRun sampleHmac (fun _ => True) unrecordedEnd.1 unrecordedEnd.2 ∧
    unrecordedEnd.2.Quiet ∧
    ∃ row ∈ unrecordedEnd.2.world.rows, row.status = .requested ∧
      newestStatus unrecordedEnd.2.world.database.transitions row.id = some .pendingReview ∧
      ∀ audit ∈ unrecordedEnd.2.world.database.transitions, audit.actor ≠ "approver:bob" := by
  have run : (engine sampleHmac).Run (OneAtATime fun _ => True)
      (initialState sampleCharges {} 10) unrecordedEnd.1 unrecordedEnd.2 :=
    Machine.play_run .nil (Option.some_get _).symm
  refine ⟨⟨sampleCharges, {}, 10, run⟩, ?_, by decide +kernel⟩
  apply run.quiet
  · intro _
    rfl
  · decide +kernel

end RefundEngine
