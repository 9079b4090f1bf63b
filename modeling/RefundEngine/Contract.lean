import RefundEngine.Engine
import RefundEngine.Interleaving.History

/-!
# The contract of the operations

Which of its own earlier steps a call has behind it when it issues a command.  The
contract is read off the programs once; what follows from it about the database and
the gateway no longer looks at them.
-/

namespace RefundEngine

open Interleaving (CallId Contract Event)

section History

variable (call : CallId) (operation : Operation) (events : List EngineEvent)

/-- The call has been given this answer to this command. -/
def Answered (command : Command) (answer : command.Answer) : Prop :=
  ∃ before, .answered call operation command answer before ∈ events

/-- The command has been executed, or has failed. -/
def Attempted (command : Command) : Prop :=
  ∃ event ∈ events, event.command? = some command

/-- The call read the refund as `requested` or `submitted`. -/
def FoundLive (refundId : Uuid) : Prop :=
  (operation = .submitRefund refundId ∧ ∃ row,
    Answered call operation events (.sql (.getRefund refundId)) (.ok (some row)) ∧
      (row.status = .requested ∨ row.status = .submitted)) ∨
  (operation = .recoverSubmitted ∧ ∃ stuck status,
    Answered call operation events (.sql .selectStuck) (.ok stuck) ∧
      (refundId, status) ∈ stuck)

/-- The call read the amount and the currency of the refund. -/
def ReadTerms (refundId : Uuid) (amount : Int64) (currency : String) : Prop :=
  (∃ row, Answered call operation events (.sql (.getRefund refundId)) (.ok (some row)) ∧
    row.amountCents = amount ∧ row.currency = currency) ∨
  Answered call operation events (.sql (.selectAmount refundId)) (.ok (amount, currency))

/-- The call has run, or tried, the update that sets the status to `submitted`. -/
def Marked (refundId : Uuid) : Prop :=
  Attempted events (.sql (.updateRefunds (.markSubmitted refundId)))

instance (refundId : Uuid) : Decidable (Marked events refundId) :=
  inferInstanceAs (Decidable (∃ event ∈ events, _))

/-- The last thing the call did was to begin a transaction. -/
def Began : Prop :=
  ∃ before rest, events = .answered call operation (.sql .begin) (.ok ()) before :: rest

/-- What `request_refund` has checked, in its transaction, about the row it inserts. -/
structure Admitted (new : NewRefund) : Prop where
  key : new.idempotencyKey = new.id.toString
  status : new.status =
    if new.amountCents ≥ reviewThresholdCents then .pendingReview else .requested
  room : ∃ began locked summed rest amountCaptured refundedSoFar,
    events =
      .answered call operation (.sql (.sumRefunds new.chargeId)) (.ok refundedSoFar) summed ::
      .answered call operation (.sql (.lockCharge new.chargeId))
        (.ok (some (amountCaptured, new.currency))) locked ::
      .answered call operation (.sql .begin) (.ok ()) began :: rest ∧
    new.amountCents ≤ amountCaptured - refundedSoFar

/-- The update and the reason an event calls for. -/
def WebhookEvent.update (event : WebhookEvent) : Option (RefundUpdate × Option String) :=
  if event.eventType = "refund.settled" then some (.settle event.data.gatewayRef, none)
  else if event.eventType = "refund.failed" then
    some (.fail event.data.gatewayRef event.data.reason, event.data.reason)
  else none

/-- What `handle_webhook` does once its transaction has begun: the statement the event calls
for, and the commit. -/
def WebhookEvent.conclude (event : WebhookEvent) : Action WebhookResult :=
  match event.update with
  | some (update, reason) => do
      Action.sql (.applyMoved update reason)
      Action.sql .commit
      return .applied
  | none => do
      Action.sql .commit
      return .applied

/-- The event types differ only in how the handler concludes. -/
theorem handleWebhook_eq (hmac : Hmac) (event : WebhookEvent) (rawBody : Bytes) (sig : String)
    (secret : Bytes) :
    handleWebhook hmac event rawBody sig secret = (do
      if verifySignature hmac rawBody sig secret = false then
        throw .badSignature
      let inserted ← Action.sql (.insertWebhookEvent event.id)
      if inserted = none then
        return .duplicate
      Action.sql .begin
      event.conclude) := by
  rw [handleWebhook, WebhookEvent.conclude, WebhookEvent.update]
  by_cases settled : event.eventType = "refund.settled"
  · simp only [if_pos settled, applySettled]
  · simp only [if_neg settled]
    by_cases failed : event.eventType = "refund.failed"
    · simp only [if_pos failed, applyFailed]
    · simp only [if_neg failed]

/-- What `handle_webhook` has done before it inserts the event id. -/
def Verified (hmac : Hmac) (id : String) : Prop :=
  ∃ event rawBody sig secret,
    operation = .handleWebhook event rawBody sig secret ∧
    verifySignature hmac rawBody sig secret = true ∧ id = event.id ∧
    events = [.started call operation]

/-- What `handle_webhook` has done before it applies an update. -/
def Deduped (hmac : Hmac) (update : RefundUpdate) (reason : Option String) : Prop :=
  ∃ event rawBody sig secret seen before began,
    operation = .handleWebhook event rawBody sig secret ∧
    verifySignature hmac rawBody sig secret = true ∧
    event.update = some (update, reason) ∧
    events =
      [.answered call operation (.sql .begin) (.ok ()) began,
        .answered call operation (.sql (.insertWebhookEvent event.id)) (.ok (some seen)) before,
        .started call operation]

/-- The call is no delivery of an event that calls for an update. -/
def Updateless : Prop :=
  ∀ event rawBody sig secret, operation = .handleWebhook event rawBody sig secret →
    event.update = none

/-- What a transaction has done when it commits: nothing, applied an event, or inserted a
refund with its audit row. -/
def Ready : Prop :=
  (Began call operation events ∧ Updateless operation) ∨
  (∃ update reason before rest,
    events = .answered call operation (.sql (.applyMoved update reason)) (.ok ()) before ::
      rest) ∨
  ∃ new refundId toStatus actor reason before before' rest,
    Updateless operation ∧ events =
      .answered call operation (.sql (.insertTransition refundId toStatus actor reason)) (.ok ())
        before' ::
      .answered call operation (.sql (.insertRefund new)) (.ok ()) before :: rest

/-- What an `UPDATE refunds` statement of its own rests on. -/
def LicensedUpdate : RefundUpdate → Prop
  | .markSubmitted refundId =>
      FoundLive call operation events refundId ∧ ¬Marked events refundId
  | .recordRef refundId gatewayRef => ∃ amount currency refund,
      Answered call operation events (.createRefund amount currency refundId.toString)
        (.accepted refund) ∧ refund.id = gatewayRef
  | .recoverRef refundId gatewayRef =>
      FoundLive call operation events refundId ∧ ¬Marked events refundId ∧ ∃ refund,
        Answered call operation events (.lookupByKey refundId.toString) (some refund) ∧
          refund.id = gatewayRef
  | .markRequested refundId => ∃ approver row,
      operation = .approve refundId approver ∧
        Answered call operation events (.sql (.getRefund refundId)) (.ok (some row)) ∧
        row.status = .pendingReview ∧ approver ≠ row.requestedBy
  | .settle _ | .fail _ _ => False

/-- What a command rests on. -/
def Licensed (hmac : Hmac) : Command → Prop
  | .sql (.updateRefunds update) => LicensedUpdate call operation events update
  | .createRefund amount currency key => ∃ refundId, key = refundId.toString ∧
      FoundLive call operation events refundId ∧
      Answered call operation events (.sql (.updateRefunds (.markSubmitted refundId)))
        (.ok ()) ∧
      ReadTerms call operation events refundId amount currency
  | .sql (.insertWebhookEvent id) => Verified call operation events hmac id
  | .sql (.lockCharge _) => Began call operation events
  | .sql (.insertRefund new) => Admitted call operation events new
  | .sql (.applyMoved update reason) => Deduped call operation events hmac update reason
  | .sql .commit => Ready call operation events
  | _ => True

/-- The steps behind a call of `handle_webhook` that returned. -/
def WebhookOutcome (hmac : Hmac) (result : Except RefundError Reply) : Prop :=
  ∀ event rawBody sig secret, operation = .handleWebhook event rawBody sig secret →
    (∀ reply, result = .ok reply → verifySignature hmac rawBody sig secret = true) ∧
    (result = .ok (.webhook .duplicate) → ∃ before,
      .answered call operation (.sql (.insertWebhookEvent event.id)) (.ok none) before ∈
        events) ∧
    (result = .ok (.webhook .applied) → ∃ seen before committed rest,
      .answered call operation (.sql (.insertWebhookEvent event.id)) (.ok (some seen)) before ∈
        events ∧
      events = .answered call operation (.sql .commit) (.ok ()) committed :: rest ∧
      ∀ update reason, event.update = some (update, reason) → ∃ applied rest',
        rest = .answered call operation (.sql (.applyMoved update reason)) (.ok ()) applied ::
          rest')

end History

/-- The contract of the engine. -/
def engineContract (hmac : Hmac) : Contract (engine hmac) where
  license call operation events := Licensed call operation events hmac
  outcome call operation events := WebhookOutcome call operation events hmac

section Rules

variable {hmac : Hmac} {call : CallId} {operation : Operation} {events : List EngineEvent}
variable {α β : Type}

theorem Answered.cons {command : Command} {answer : command.Answer} (event : EngineEvent)
    (answered : Answered call operation events command answer) :
    Answered call operation (event :: events) command answer :=
  let ⟨before, member⟩ := answered
  ⟨before, List.mem_cons_of_mem _ member⟩

theorem Answered.head {command : Command} {answer : command.Answer} {before : World} :
    Answered call operation (.answered call operation command answer before :: events)
      command answer :=
  ⟨before, List.mem_cons_self ..⟩

theorem FoundLive.cons {refundId : Uuid} (event : EngineEvent)
    (live : FoundLive call operation events refundId) :
    FoundLive call operation (event :: events) refundId := by
  rcases live with ⟨submits, row, read, status⟩ | ⟨recovers, stuck, status, read, listed⟩
  · exact .inl ⟨submits, row, read.cons event, status⟩
  · exact .inr ⟨recovers, stuck, status, read.cons event, listed⟩

theorem not_marked_cons {refundId : Uuid} (event : EngineEvent)
    (unmarked : ¬Marked events refundId)
    (other : event.command? ≠ some (.sql (.updateRefunds (.markSubmitted refundId)))) :
    ¬Marked (event :: events) refundId := by
  rintro ⟨candidate, member, attempted⟩
  rcases List.mem_cons.mp member with rfl | earlier
  · exact other attempted
  · exact unmarked ⟨candidate, earlier, attempted⟩

/-- An action, as a call with these events behind it, obeys a contract. -/
abbrev Upholds (contract : Contract (engine hmac)) (call : CallId) (operation : Operation)
    (post : Except RefundError α → List EngineEvent → Prop) (action : Action α)
    (events : List EngineEvent) : Prop :=
  contract.Obeys call operation post action.run events

variable {contract : Contract (engine hmac)}

theorem upholds_pure {post : Except RefundError α → List EngineEvent → Prop} {value : α}
    (holds : post (.ok value) events) :
    Upholds contract call operation post (pure value) events := holds

theorem upholds_throw {post : Except RefundError α → List EngineEvent → Prop}
    {error : RefundError} (holds : post (.error error) events) :
    Upholds contract call operation post (throw error) events := holds

/-- Sequencing, where an error ends the action. -/
theorem upholds_bind {post : Except RefundError β → List EngineEvent → Prop}
    {action : Action α} {continuation : α → Action β}
    (upholds : Upholds contract call operation
      (fun result events =>
        match result with
        | .ok value => Upholds contract call operation post (continuation value) events
        | .error error => post (.error error) events) action events) :
    Upholds contract call operation post (action >>= continuation) events := by
  apply Contract.Obeys.bind
  apply upholds.mono
  intro result events holds
  cases result with
  | ok value => exact holds
  | error error => exact holds

theorem upholds_map {post : Except RefundError β → List EngineEvent → Prop}
    {action : Action α} {change : α → β}
    (upholds : Upholds contract call operation
      (fun result events => post (result.map change) events) action events) :
    Upholds contract call operation post (change <$> action) events := by
  apply Contract.Obeys.bind
  apply upholds.mono
  intro result events holds
  cases result with
  | ok value => exact holds
  | error error => exact holds

theorem upholds_statement {statement : Statement}
    {post : Except RefundError statement.Value → List EngineEvent → Prop}
    (licensed : contract.license call operation events (.sql statement))
    (values : ∀ value before after,
      before.execute call statement = some (.ok value, after) →
      post (.ok value)
        (.answered call operation (.sql statement) (.ok value) before :: events))
    (errors : ∀ error before after,
      before.execute call statement = some (.error error, after) →
      post (.error (.db error))
        (.answered call operation (.sql statement) (.error error) before :: events))
    (fails : post (.error (.db .failed)) (.failed call operation (.sql statement) :: events)) :
    Upholds contract call operation post (Action.sql statement) events := by
  refine ⟨licensed, ?_, ?_⟩
  · intro answer before after executed
    cases answer with
    | ok value => exact values value before after executed
    | error error => exact errors error before after executed
  · intro answer failed
    cases failed
    exact fails

/-- One statement and what follows it; an error ends the action. -/
theorem upholds_sql {post : Except RefundError β → List EngineEvent → Prop}
    {statement : Statement} {continuation : statement.Value → Action β}
    (licensed : contract.license call operation events (.sql statement))
    (rest : ∀ value before after,
      before.execute call statement = some (.ok value, after) →
      Upholds contract call operation post (continuation value)
        (.answered call operation (.sql statement) (.ok value) before :: events))
    (errors : ∀ error before after,
      before.execute call statement = some (.error error, after) →
      post (.error (.db error))
        (.answered call operation (.sql statement) (.error error) before :: events))
    (fails : post (.error (.db .failed)) (.failed call operation (.sql statement) :: events)) :
    Upholds contract call operation post (Action.sql statement >>= continuation) events :=
  upholds_bind (upholds_statement licensed rest errors fails)

theorem upholds_createRefund {post : Except RefundError β → List EngineEvent → Prop}
    {amount : Int64} {currency key : String} {continuation : GatewayOutcome → Action β}
    (licensed : contract.license call operation events (.createRefund amount currency key))
    (rest : ∀ outcome before,
      Upholds contract call operation post (continuation outcome)
        (.answered call operation (.createRefund amount currency key) outcome before ::
          events)) :
    Upholds contract call operation post
      (Action.createRefund amount currency key >>= continuation) events :=
  upholds_bind ⟨licensed, fun outcome before _ _ => rest outcome before,
    fun _ fails => nomatch fails⟩

theorem upholds_lookupByKey {post : Except RefundError β → List EngineEvent → Prop}
    {key : String} {continuation : Option GatewayRefund → Action β}
    (licensed : contract.license call operation events (.lookupByKey key))
    (rest : ∀ found before,
      Upholds contract call operation post (continuation found)
        (.answered call operation (.lookupByKey key) found before :: events)) :
    Upholds contract call operation post (Action.lookupByKey key >>= continuation) events :=
  upholds_bind ⟨licensed, fun found before _ _ => rest found before,
    fun _ fails => nomatch fails⟩

/-- The actions of the engine obey its contract. -/
abbrev Carries (hmac : Hmac) (call : CallId) (operation : Operation)
    (post : Except RefundError α → List EngineEvent → Prop) (action : Action α)
    (events : List EngineEvent) : Prop :=
  Upholds (engineContract hmac) call operation post action events

theorem carries_sql {post : Except RefundError β → List EngineEvent → Prop}
    {statement : Statement} {continuation : statement.Value → Action β}
    (licensed : Licensed call operation events hmac (.sql statement))
    (rest : ∀ value before after,
      before.execute call statement = some (.ok value, after) →
      Carries hmac call operation post (continuation value)
        (.answered call operation (.sql statement) (.ok value) before :: events))
    (errors : ∀ error events, post (.error (.db error)) events) :
    Carries hmac call operation post (Action.sql statement >>= continuation) events :=
  upholds_sql licensed rest (fun error _ _ _ => errors error _) (errors _ _)

theorem carries_sql_last {statement : Statement}
    {post : Except RefundError statement.Value → List EngineEvent → Prop}
    (licensed : Licensed call operation events hmac (.sql statement))
    (rest : ∀ value before after,
      before.execute call statement = some (.ok value, after) →
      post (.ok value)
        (.answered call operation (.sql statement) (.ok value) before :: events))
    (errors : ∀ error events, post (.error (.db error)) events) :
    Carries hmac call operation post (Action.sql statement) events :=
  upholds_statement licensed rest (fun error _ _ _ => errors error _) (errors _ _)

end Rules

/-! ## Every operation upholds the contract -/

section Operations

variable {hmac : Hmac} {call : CallId} {operation : Operation}

private theorem outcome_of_ne {events : List EngineEvent}
    (other : ∀ event rawBody sig secret,
      operation ≠ .handleWebhook event rawBody sig secret)
    (result : Except RefundError Reply) :
    (engineContract hmac).outcome call operation events result :=
  fun event rawBody sig secret same => (other event rawBody sig secret same).elim

theorem requestRefund_carries (refundId chargeId : Uuid) (amountCents : Int64)
    (currency actor : String) (reasonCode : Option String) :
    Carries hmac call
      (.requestRefund refundId chargeId amountCents currency actor reasonCode) (fun _ _ => True)
      (requestRefund refundId chargeId amountCents currency actor reasonCode)
      [.started call
        (.requestRefund refundId chargeId amountCents currency actor reasonCode)] := by
  unfold requestRefund
  refine carries_sql trivial (fun _ began _ _ => ?_) (fun _ _ => trivial)
  refine carries_sql ⟨_, _, rfl⟩ (fun charge locked _ _ => ?_) (fun _ _ => trivial)
  cases charge with
  | none => exact upholds_bind (upholds_throw trivial)
  | some charge =>
      obtain ⟨amountCaptured, chargeCurrency⟩ := charge
      refine upholds_bind (upholds_pure ?_)
      refine carries_sql trivial (fun refundedSoFar summed _ _ => ?_) (fun _ _ => trivial)
      by_cases mismatch : currency ≠ chargeCurrency
      · simp only [if_pos mismatch]
        exact upholds_bind (upholds_throw trivial)
      simp only [if_neg mismatch]
      by_cases exceeds : amountCents > amountCaptured - refundedSoFar
      · simp only [if_pos exceeds]
        refine carries_sql trivial (fun _ _ _ _ => ?_) (fun _ _ => trivial)
        exact upholds_bind (upholds_throw trivial)
      simp only [if_neg exceeds]
      have same : chargeCurrency = currency := (not_not.mp mismatch).symm
      subst same
      have room : amountCents ≤ amountCaptured - refundedSoFar := Int64.not_lt.mp exceeds
      refine carries_sql ⟨rfl, rfl, began, locked, summed, _, _, _, rfl, room⟩
        (fun _ _ _ _ => ?_) (fun _ _ => trivial)
      refine carries_sql trivial (fun _ _ _ _ => ?_) (fun _ _ => trivial)
      exact carries_sql (.inr (.inr ⟨_, _, _, _, _, _, _, _, nofun, rfl⟩))
        (fun _ _ _ _ => upholds_pure trivial) (fun _ _ => trivial)

theorem approve_carries (refundId : Uuid) (approver : String) :
    Carries hmac call (.approve refundId approver) (fun _ _ => True)
      (approve refundId approver) [.started call (.approve refundId approver)] := by
  unfold approve getRefund
  refine upholds_bind (carries_sql trivial (fun found read _ _ => ?_) (fun _ _ => trivial))
  cases found with
  | none => exact upholds_throw trivial
  | some row =>
      refine upholds_pure ?_
      by_cases other : row.status ≠ .pendingReview
      · simp only [if_pos other]
        exact upholds_bind (upholds_throw trivial)
      simp only [if_neg other]
      by_cases same : approver = row.requestedBy
      · simp only [if_pos same]
        exact upholds_bind (upholds_throw trivial)
      simp only [if_neg same]
      refine carries_sql ⟨approver, row, rfl, .head, not_not.mp other, same⟩
        (fun _ _ _ _ => ?_) (fun _ _ => trivial)
      exact carries_sql_last trivial (fun _ _ _ _ => trivial) (fun _ _ => trivial)

/-- The end of `submit_refund`: the gateway call and the recording of its reference. -/
private theorem submitTail_carries {refundId : Uuid} {row : Refund}
    {events : List EngineEvent}
    (live : FoundLive call operation events refundId)
    (marked : Answered call operation events (.sql (.updateRefunds (.markSubmitted refundId)))
      (.ok ()))
    (terms : ReadTerms call operation events refundId row.amountCents row.currency) :
    Carries hmac call operation (fun _ _ => True)
      (do
        match ← Action.createRefund row.amountCents row.currency refundId.toString with
        | .accepted gw =>
            Action.sql (.updateRefunds (.recordRef refundId gw.id))
            return true
        | .dropped | .timedOut => return false)
      events := by
  refine upholds_createRefund ⟨refundId, rfl, live, marked, terms⟩ (fun outcome _ => ?_)
  cases outcome with
  | accepted gw =>
      exact carries_sql ⟨_, _, gw, .head, rfl⟩ (fun _ _ _ _ => upholds_pure trivial)
        (fun _ _ => trivial)
  | dropped => exact upholds_pure trivial
  | timedOut => exact upholds_pure trivial

theorem submitRefund_carries (refundId : Uuid) :
    Carries hmac call (.submitRefund refundId) (fun _ _ => True)
      (submitRefund refundId) [.started call (.submitRefund refundId)] := by
  unfold submitRefund getRefund
  refine upholds_bind (carries_sql trivial (fun found read _ _ => ?_) (fun _ _ => trivial))
  cases found with
  | none => exact upholds_throw trivial
  | some row =>
      refine upholds_pure ?_
      by_cases terminal : row.status = .settled ∨ row.status = .failed ∨ row.status = .canceled
      · simp only [if_pos terminal]
        exact upholds_pure trivial
      simp only [if_neg terminal]
      by_cases pending : row.status = .pendingReview
      · simp only [if_pos pending]
        exact upholds_pure trivial
      simp only [if_neg pending]
      have status : row.status = .requested ∨ row.status = .submitted := by
        revert terminal pending
        cases row.status <;> simp
      refine carries_sql ⟨.inl ⟨rfl, row, .head, status⟩, by simp [Marked, Attempted,
        Event.command?]⟩ (fun _ marking _ _ => ?_) (fun _ _ => trivial)
      by_cases resubmits : row.status ≠ .submitted
      · simp only [if_pos resubmits]
        refine carries_sql trivial (fun _ _ _ _ => ?_) (fun _ _ => trivial)
        exact submitTail_carries (.inl ⟨rfl, row, (Answered.head.cons _).cons _, status⟩)
          (Answered.head.cons _) (.inl ⟨row, (Answered.head.cons _).cons _, rfl, rfl⟩)
      · simp only [if_neg resubmits]
        exact submitTail_carries (.inl ⟨rfl, row, Answered.head.cons _, status⟩)
          .head (.inl ⟨row, Answered.head.cons _, rfl, rfl⟩)

/-- What a submission does with the gateway's answer. -/
def recordOutcome (refundId : Uuid) : GatewayOutcome → Action Bool
  | .accepted gw => do
      Action.sql (.updateRefunds (.recordRef refundId gw.id))
      return true
  | .dropped | .timedOut => return false

/-- The loop's position: the snapshot that was read, with none of the remaining rows
marked yet. -/
private structure Snapshot (call : CallId) (events : List EngineEvent)
    (stuck remaining : List (Uuid × Status)) : Prop where
  read : Answered call .recoverSubmitted events (.sql .selectStuck) (.ok stuck)
  inside : remaining ⊆ stuck
  unmarked : ∀ entry ∈ remaining, ¬Marked events entry.1

private theorem Snapshot.cons {events : List EngineEvent} (event : EngineEvent)
    {stuck remaining : List (Uuid × Status)} (snapshot : Snapshot call events stuck remaining)
    (other : ∀ entry ∈ remaining,
      event.command? ≠ some (.sql (.updateRefunds (.markSubmitted entry.1)))) :
    Snapshot call (event :: events) stuck remaining where
  read := snapshot.read.cons _
  inside := snapshot.inside
  unmarked entry member :=
    not_marked_cons event (snapshot.unmarked entry member) (other entry member)

private theorem resubmitted_carries (report : RecoveryReport) {events : List EngineEvent}
    {stuck remaining : List (Uuid × Status)} {refundId : Uuid} {status : Status}
    (snapshot : Snapshot call events stuck remaining) :
    Carries hmac call .recoverSubmitted
      (fun result events => ∀ report, result = .ok report →
        Snapshot call events stuck remaining)
      (do
        recordTransition refundId (some status) .submitted "job:recover-resubmit"
        return { report with resubmitted := report.resubmitted + 1 })
      events := by
  refine carries_sql trivial (fun _ _ _ _ => upholds_pure fun _ _ => ?_) (by simp)
  exact snapshot.cons _ (by simp [Event.command?])

/-- One row of the loop: its commands are licensed, and the other rows stay unmarked. -/
private theorem recoverRow_carries {events : List EngineEvent}
    {stuck remaining : List (Uuid × Status)} {report : RecoveryReport} {refundId : Uuid}
    {status : Status} (snapshot : Snapshot call events stuck ((refundId, status) :: remaining))
    (distinct : refundId ∉ remaining.map Prod.fst) :
    Carries hmac call .recoverSubmitted
      (fun result events => ∀ report, result = .ok report →
        Snapshot call events stuck remaining)
      (recoverRow report refundId status) events := by
  have unmarked : ¬Marked events refundId :=
    snapshot.unmarked (refundId, status) (List.mem_cons_self ..)
  have live : FoundLive call .recoverSubmitted events refundId :=
    .inr ⟨rfl, stuck, status, snapshot.read, snapshot.inside (List.mem_cons_self ..)⟩
  have rest : Snapshot call events stuck remaining :=
    ⟨snapshot.read, fun _ member => snapshot.inside (List.mem_cons_of_mem _ member),
      fun entry member => snapshot.unmarked entry (List.mem_cons_of_mem _ member)⟩
  have others : ∀ id status, (id, status) ∈ remaining → ¬refundId = id := by
    rintro id status member rfl
    exact distinct (List.mem_map_of_mem member)
  unfold recoverRow
  refine upholds_lookupByKey trivial (fun found lookedUp => ?_)
  have live := live.cons (.answered call .recoverSubmitted (.lookupByKey refundId.toString)
    found lookedUp)
  have unmarked := not_marked_cons (.answered call .recoverSubmitted
    (.lookupByKey refundId.toString) found lookedUp) unmarked (by simp [Event.command?])
  have rest := rest.cons (.answered call .recoverSubmitted
    (.lookupByKey refundId.toString) found lookedUp) (by simp [Event.command?])
  cases found with
  | some gw =>
      refine carries_sql ⟨live, unmarked, gw, .head, rfl⟩ (fun _ _ _ _ => ?_) (by simp)
      refine carries_sql trivial (fun _ _ _ _ => ?_) (by simp)
      refine upholds_pure fun _ _ => ?_
      exact (rest.cons _ (by simp [Event.command?])).cons _ (by simp [Event.command?])
  | none =>
      refine carries_sql trivial (fun terms _ _ _ => ?_) (by simp)
      obtain ⟨amountCents, currency⟩ := terms
      refine carries_sql ⟨live.cons _, not_marked_cons _ unmarked (by simp [Event.command?])⟩
        (fun _ marking _ _ => ?_) (by simp)
      refine upholds_createRefund
        ⟨refundId, rfl, (live.cons _).cons _, .head, .inr (Answered.head.cons _)⟩
        (fun outcome _ => ?_)
      cases outcome with
      | accepted gw =>
          refine carries_sql ⟨_, _, gw, .head, rfl⟩ (fun _ _ _ _ => ?_) (by simp)
          apply resubmitted_carries { report with walked := report.walked + 1 }
          refine .cons _ (.cons _ (.cons _ (.cons _ rest ?_) ?_) ?_) ?_
          · simp [Event.command?]
          · simpa [Event.command?] using others
          · simp [Event.command?]
          · simp [Event.command?]
      | dropped | timedOut =>
          apply resubmitted_carries { report with walked := report.walked + 1 }
          refine .cons _ (.cons _ (.cons _ rest ?_) ?_) ?_
          · simp [Event.command?]
          · simpa [Event.command?] using others
          · simp [Event.command?]

/-- The loop, by induction on the rows still to be walked. -/
private theorem recoverRows_carries {stuck remaining : List (Uuid × Status)}
    (distinct : (remaining.map Prod.fst).Nodup) (report : RecoveryReport)
    (events : List EngineEvent) (snapshot : Snapshot call events stuck remaining) :
    Carries hmac call .recoverSubmitted (fun _ _ => True)
      (recoverRows report remaining) events := by
  induction remaining generalizing report events with
  | nil => exact upholds_pure trivial
  | cons entry remaining ih =>
      obtain ⟨refundId, status⟩ := entry
      obtain ⟨notListed, distinct⟩ := List.nodup_cons.mp distinct
      apply upholds_bind
      apply (recoverRow_carries snapshot notListed).mono
      intro result events kept
      cases result with
      | ok report => exact ih distinct report events (kept report rfl)
      | error error => trivial

theorem recoverSubmitted_carries :
    Carries hmac call .recoverSubmitted (fun _ _ => True)
      recoverSubmitted [.started call .recoverSubmitted] := by
  unfold recoverSubmitted
  refine carries_sql trivial (fun stuck before after executed => ?_) (fun _ _ => trivial)
  have listed : stuck = stuckRows before.rows := by
    simp only [World.execute, Option.some.injEq, Prod.mk.injEq, Except.ok.injEq] at executed
    exact executed.1.symm
  have distinct : (stuck.map Prod.fst).Nodup := by
    rw [listed]
    exact stuckRows_nodup before.database.refunds
  apply recoverRows_carries distinct
  exact ⟨.head, List.Subset.refl _, by simp [Marked, Attempted, Event.command?]⟩

/-- The postcondition of a delivery. -/
private abbrev CarriesDelivery (hmac : Hmac) (call : CallId) (delivery : Operation)
    (action : Action WebhookResult) (events : List EngineEvent) : Prop :=
  Carries hmac call delivery
    (fun result events => WebhookOutcome call delivery events hmac (result.map Reply.webhook))
    action events

private theorem outcome_of_error {delivery : Operation} (error : RefundError)
    (events : List EngineEvent) :
    WebhookOutcome call delivery events hmac
      (Except.map Reply.webhook (.error error : Except RefundError WebhookResult)) := by
  simp [WebhookOutcome, Except.map]

section Delivery

variable {event : WebhookEvent} {rawBody secret : Bytes} {sig : String} {seen : String}
variable {deduped began : World}

private theorem deliveryCommit_carries {updates : List EngineEvent}
    (verified : verifySignature hmac rawBody sig secret = true)
    (applies : event.update = none ∧ updates = [] ∨ ∃ update reason applied,
      event.update = some (update, reason) ∧
        updates = [.answered call (.handleWebhook event rawBody sig secret)
          (.sql (.applyMoved update reason)) (.ok ()) applied]) :
    CarriesDelivery hmac call (.handleWebhook event rawBody sig secret)
      (do
        Action.sql .commit
        return .applied)
      (updates ++
        [.answered call (.handleWebhook event rawBody sig secret) (.sql .begin) (.ok ()) began,
          .answered call (.handleWebhook event rawBody sig secret)
            (.sql (.insertWebhookEvent event.id)) (.ok (some seen)) deduped,
          .started call (.handleWebhook event rawBody sig secret)]) := by
  refine carries_sql ?ready (fun _ committed _ _ => ?_) (fun _ _ => outcome_of_error _ _)
  case ready =>
    rcases applies with ⟨updateless, rfl⟩ | ⟨update, reason, applied, _, rfl⟩
    · refine .inl ⟨⟨_, _, rfl⟩, ?_⟩
      rintro event rawBody sig secret ⟨⟩
      exact updateless
    · exact .inr (.inl ⟨_, _, _, _, rfl⟩)
  apply upholds_pure
  rintro event rawBody sig secret ⟨⟩
  refine ⟨fun _ _ => verified, by simp [Except.map],
    fun _ => ⟨seen, deduped, committed, _, by simp, rfl, ?_⟩⟩
  intro update reason same
  rcases applies with ⟨none, _⟩ | ⟨_, _, applied, some, rfl⟩
  · cases none.symm.trans same
  · cases some.symm.trans same
    exact ⟨applied, _, rfl⟩

private theorem conclude_carries
    (verified : verifySignature hmac rawBody sig secret = true) :
    CarriesDelivery hmac call (.handleWebhook event rawBody sig secret) event.conclude
      [.answered call (.handleWebhook event rawBody sig secret) (.sql .begin) (.ok ()) began,
        .answered call (.handleWebhook event rawBody sig secret)
          (.sql (.insertWebhookEvent event.id)) (.ok (some seen)) deduped,
        .started call (.handleWebhook event rawBody sig secret)] := by
  rw [WebhookEvent.conclude]
  split
  · rename_i update reason updates
    refine carries_sql ⟨event, rawBody, sig, secret, seen, deduped, began, rfl, verified,
      updates, rfl⟩ (fun _ applied _ _ => ?_) (fun _ _ => outcome_of_error _ _)
    exact deliveryCommit_carries verified (.inr ⟨_, _, applied, updates, rfl⟩)
  · rename_i updateless
    exact deliveryCommit_carries verified (.inl ⟨updateless, rfl⟩)

end Delivery

theorem handleWebhook_carries (event : WebhookEvent) (rawBody : Bytes) (sig : String)
    (secret : Bytes) :
    CarriesDelivery hmac call (.handleWebhook event rawBody sig secret)
      (handleWebhook hmac event rawBody sig secret)
      [.started call (.handleWebhook event rawBody sig secret)] := by
  rw [handleWebhook_eq]
  by_cases forged : verifySignature hmac rawBody sig secret = false
  · simp only [if_pos forged]
    exact upholds_bind (upholds_throw (outcome_of_error _ _))
  simp only [if_neg forged]
  have verified : verifySignature hmac rawBody sig secret = true := by simpa using forged
  refine carries_sql ⟨event, rawBody, sig, secret, rfl, verified, rfl, rfl⟩
    (fun inserted deduped _ _ => ?_) (fun _ _ => outcome_of_error _ _)
  cases inserted with
  | none =>
      apply upholds_pure
      rintro event rawBody sig secret ⟨⟩
      exact ⟨fun _ _ => verified, fun _ => ⟨deduped, List.mem_cons_self ..⟩, by simp [Except.map]⟩
  | some seen =>
      exact carries_sql trivial (fun _ began _ _ => conclude_carries verified)
        (fun _ _ => outcome_of_error _ _)

/-- Every operation of the engine upholds the contract. -/
theorem engineContract_upheld (hmac : Hmac) : (engineContract hmac).Upheld := by
  intro call operation
  cases operation with
  | requestRefund refundId chargeId amountCents currency actor reasonCode =>
      apply upholds_map
      apply (requestRefund_carries ..).mono
      exact fun result events _ => outcome_of_ne (by simp) _
  | approve refundId approver =>
      apply upholds_map
      apply (approve_carries ..).mono
      exact fun result events _ => outcome_of_ne (by simp) _
  | submitRefund refundId =>
      apply upholds_map
      apply (submitRefund_carries ..).mono
      exact fun result events _ => outcome_of_ne (by simp) _
  | recoverSubmitted =>
      apply upholds_map
      apply recoverSubmitted_carries.mono
      exact fun result events _ => outcome_of_ne (by simp) _
  | handleWebhook event rawBody sig secret =>
      apply upholds_map
      exact handleWebhook_carries event rawBody sig secret
  | reconcile settlementFile =>
      apply upholds_map
      exact carries_sql trivial
        (fun _ _ _ _ => upholds_pure (outcome_of_ne (by simp) _))
        (fun _ _ => outcome_of_ne (by simp) _)

end Operations

end RefundEngine
