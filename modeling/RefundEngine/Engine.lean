import RefundEngine.Interleaving.Machine
import RefundEngine.Reconcile
import RefundEngine.Webhook

/-!
# The engine as a machine

All operations of the engine over one database and one mock gateway, interleaved at
the granularity of one statement or gateway call.  Any statement can fail, and any
call can die between two commands; in both cases its transaction is rolled back.
-/

namespace RefundEngine

open Interleaving (CallId Machine)

/-- An operation with its arguments. -/
inductive Operation where
  | requestRefund (refundId chargeId : Uuid) (amountCents : Int64) (currency actor : String)
      (reasonCode : Option String)
  | approve (refundId : Uuid) (approver : String)
  | submitRefund (refundId : Uuid)
  | recoverSubmitted
  | handleWebhook (event : WebhookEvent) (rawBody : Bytes) (sig : String) (secret : Bytes)
  | reconcile (settlementFile : List SettlementLine)
  deriving DecidableEq

/-- What an operation that succeeds returns. -/
inductive Reply where
  | refundId (id : Uuid)
  | approved
  | accepted (recorded : Bool)
  | recovered (report : RecoveryReport)
  | webhook (result : WebhookResult)
  | reconciled (result : ReconResult)
  deriving DecidableEq

/-- What happens outside the calls of the engine. -/
inductive Environment where
  /-- The gateway is reconfigured. -/
  | setConfig (config : MockConfig)
  /-- Time passes. -/
  | setClock (now : Timestamp)
  /-- The capture path writes a charge. -/
  | createCharge (charge : Charge)
  /-- Another transaction cancels a refund whose money has not moved. -/
  | cancel (refundId : Uuid)
  /-- The database lets a statement of a call's transaction wait for a row lock. -/
  | suspend (call : CallId) (update : RefundUpdate)

namespace Environment

/-- The refund may be canceled: it is not terminal, has no reference, and the gateway
does not hold its key. -/
def Cancelable (world : World) (refundId : Uuid) : Prop :=
  ∃ row ∈ world.rows, row.id = refundId ∧
    (row.status = .requested ∨ row.status = .pendingReview ∨ row.status = .submitted) ∧
    row.gatewayRef = none ∧ world.gateway.lookupByKey row.idempotencyKey = none

instance (world : World) (refundId : Uuid) : Decidable (Cancelable world refundId) :=
  inferInstanceAs (Decidable (∃ row ∈ world.rows, _))

/-- Set the status of one refund to `canceled`. -/
def cancelRow (refundId : Uuid) (now : Timestamp) : RowChange where
  apply row :=
    if row.id = refundId then { row with status := .canceled, updatedAt := now } else row
  apply_id row := by split <;> rfl
  apply_idempotencyKey row := by split <;> rfl

/-- Carry out an action of the environment, when it is possible. -/
def act : Environment → World → Option World
  | .setConfig config, world =>
      some { world with gateway := world.gateway.setConfig config }
  | .setClock now, world => some { world with now := now }
  | .createCharge charge, world =>
      match world.database.charges.insert charge with
      | .ok charges =>
          some { world with database := { world.database with charges := charges } }
      | .error _ => none
  | .cancel refundId, world =>
      if Cancelable world refundId then
        match world.database.refunds.revise (cancelRow refundId world.now) with
        | .ok refunds => some (world.setRefunds refunds)
        | .error _ => none
      else none
  | .suspend call update, world =>
      if (world.transaction call).isSome ∧ (world.suspended call).isNone ∧
          world.MustWait (some call) update then
        some (world.suspend call update)
      else none

/-- A statement waits for a lock of another transaction, and the tables stay as they are. -/
theorem of_suspend {call : CallId} {update : RefundUpdate} {before after : World}
    (acted : act (.suspend call update) before = some after) :
    (∃ transaction, before.transaction call = some transaction) ∧
      before.suspended call = none ∧ before.MustWait (some call) update ∧
      after = before.suspend call update := by
  simp only [act] at acted
  split at acted
  · rename_i waits
    rcases waits with ⟨opened, resumed, locked⟩
    cases acted
    exact ⟨Option.isSome_iff_exists.mp opened, Option.isNone_iff_eq_none.mp resumed, locked, rfl⟩
  · cases acted

end Environment

/-- The program of an operation. -/
def Operation.program (hmac : Hmac) :
    Operation → Interleaving.Program Command.Answer (Except RefundError Reply)
  | .requestRefund refundId chargeId amountCents currency actor reasonCode =>
      (Reply.refundId <$>
        RefundEngine.requestRefund refundId chargeId amountCents currency actor
          reasonCode).run
  | .approve refundId approver =>
      ((fun _ => Reply.approved) <$> RefundEngine.approve refundId approver).run
  | .submitRefund refundId => (Reply.accepted <$> RefundEngine.submitRefund refundId).run
  | .recoverSubmitted => (Reply.recovered <$> RefundEngine.recoverSubmitted).run
  | .handleWebhook event rawBody sig secret =>
      (Reply.webhook <$> RefundEngine.handleWebhook hmac event rawBody sig secret).run
  | .reconcile settlementFile =>
      (Reply.reconciled <$> RefundEngine.reconcile settlementFile).run

/-- The refund engine. -/
def engine (hmac : Hmac) :
    Machine Command.Answer World Operation (Except RefundError Reply) Environment where
  program := Operation.program hmac
  execute := Command.execute
  failure := Command.failure
  close call world := world.endTransaction call
  act := Environment.act

/-- A state of the engine with its calls. -/
abbrev EngineState :=
  Interleaving.State Command.Answer World Operation (Except RefundError Reply)

/-- What a step of the engine did. -/
abbrev EngineEvent :=
  Interleaving.Event Command.Answer World Operation (Except RefundError Reply) Environment

/-- An empty database with some charges, a gateway that has issued nothing, and no call
under way. -/
def initialState (charges : ChargeTable) (config : MockConfig) (now : Timestamp) :
    EngineState where
  world :=
    { database :=
        { charges := charges
          refunds :=
            { rows := []
              ids_nodup := List.nodup_nil
              keys_nodup := List.nodup_nil
              refs_nodup := List.nodup_nil }
          transitions := []
          nextTransition := 1
          webhookEvents := [] }
      transactions := ∅
      gateway := .withConfig config
      now := now
      suspended := fun _ => none }
  calls _ := .idle

/-- No step of the environment cancels a refund: what the crate and the capture path
can do by themselves. -/
def NoCancel : List EngineEvent → EngineEvent → Prop
  | _, .acted (.cancel _) _ => False
  | _, _ => True

instance (trace : List EngineEvent) (event : EngineEvent) :
    Decidable (NoCancel trace event) :=
  match event with
  | .acted (.cancel _) _ => isFalse id
  | .acted (.setConfig _) _ | .acted (.setClock _) _ | .acted (.createCharge _) _
  | .acted (.suspend _ _) _ => isTrue trivial
  | .started .. | .answered .. | .failed .. | .finished .. | .died .. => isTrue trivial

theorem NoCancel.anywhere {trace other : List EngineEvent} {event : EngineEvent}
    (permitted : NoCancel trace event) : NoCancel other event := by
  cases event with
  | acted action =>
      cases action with
      | cancel => exact permitted.elim
      | _ => trivial
  | _ => trivial

/-- The server takes all texts of a statement it answers; one that binds U+0000 fails. -/
def Encoded : EngineEvent → Prop
  | .answered _ _ (.sql statement) _ _ => ∀ text ∈ statement.texts, Storable text
  | _ => True

instance : DecidablePred Encoded
  | .answered _ _ (.sql statement) _ _ =>
      inferInstanceAs (Decidable (∀ text ∈ statement.texts, Storable text))
  | .answered _ _ (.createRefund _ _ _) _ _ | .answered _ _ (.lookupByKey _) _ _
  | .started _ _ | .failed _ _ _ | .finished _ _ _ | .died _ _ | .acted _ _ => isTrue trivial

/-- A command fails, or the process of a call dies. -/
def Interrupts : EngineEvent → Prop
  | .failed _ _ _ | .died _ _ => True
  | _ => False

instance : DecidablePred Interrupts
  | .failed _ _ _ | .died _ _ => isTrue trivial
  | .started _ _ | .answered _ _ _ _ _ | .finished _ _ _ | .acted _ _ => isFalse id

/-- A run of the engine: any number of concurrent calls of any operations, from an
empty database, with failures, deaths and reconfigurations anywhere. -/
def EngineRun (hmac : Hmac) (trace : List EngineEvent) (state : EngineState) : Prop :=
  ∃ charges config now,
    (engine hmac).Run NoCancel (initialState charges config now) trace state

theorem EngineRun.of_play {hmac : Hmac} {charges : ChargeTable} {config : MockConfig}
    {now : Timestamp} {labels : List (Machine.Label Operation Environment)}
    {reached : List EngineEvent × EngineState}
    (played : (engine hmac).play NoCancel labels ([], initialState charges config now) =
      some reached) : EngineRun hmac reached.1 reached.2 :=
  ⟨charges, config, now, Machine.play_run .nil played⟩

section Rest

variable {hmac : Hmac} {trace : List EngineEvent} {state : EngineState}

/-- Once every call that occurs in a run has ended, none is in progress. -/
theorem EngineRun.quiet_of_ended (run : EngineRun hmac trace state)
    (ended : ∀ call ∈ trace.filterMap Interleaving.Event.caller,
      ¬(state.calls call).InProgress) : state.Quiet := by
  rcases run with ⟨_, _, _, run⟩
  exact run.quiet (fun _ => rfl) ended

theorem EngineRun.idle_of_absent (run : EngineRun hmac trace state) {call : CallId}
    (absent : call ∉ trace.filterMap Interleaving.Event.caller) : state.calls call = .idle := by
  rcases run with ⟨_, _, _, run⟩
  exact run.idle_of_no_events rfl absent

end Rest

/-! ## A sample run -/

/-- A keyed hash that keeps everything. -/
def sampleHmac : Hmac := fun secret body => secret ++ body

def sampleCharge : Charge where
  id := ⟨1⟩
  amountCaptured := 500000
  currency := "EUR"
  amountCaptured_nonneg := by decide

def sampleCharges : ChargeTable := ⟨[sampleCharge], by decide⟩

def sampleEvent : WebhookEvent where
  id := "evt_1"
  eventType := "refund.settled"
  data := { gatewayRef := "re_mock_00000001", reason := none }

/-- Run one call from start to finish without interruption. -/
def uninterrupted (call : CallId) (operation : Operation) (commands : Nat) :
    List (Machine.Label Operation Environment) :=
  .start call operation :: List.replicate commands (.execute call) ++ [.finish call]

/-- A large refund is requested, approved and submitted, but the response is dropped; a
small one is only requested.  Recovery converges both and a webhook settles the first. -/
def sampleLabels : List (Machine.Label Operation Environment) :=
  uninterrupted 0 (.requestRefund ⟨7⟩ sampleCharge.id 150000 "EUR" "alice" none) 6 ++
  uninterrupted 1 (.requestRefund ⟨8⟩ sampleCharge.id 2000 "EUR" "alice" none) 6 ++
  uninterrupted 2 (.approve ⟨7⟩ "bob") 3 ++
  .act (.setConfig { dropResponse := true }) ::
  uninterrupted 3 (.submitRefund ⟨7⟩) 4 ++
  .act (.setConfig {}) ::
  uninterrupted 4 .recoverSubmitted 10 ++
  uninterrupted 5 (.handleWebhook sampleEvent [] (sign sampleHmac [] []) []) 4

/-- Where the first `count` labels of the sample lead. -/
def samplePrefix (count : Nat) : Option (List EngineEvent × EngineState) :=
  (engine sampleHmac).play NoCancel (sampleLabels.take count)
    ([], initialState sampleCharges {} 10)

/-- Where the sample leads. -/
def sampleEnd : List EngineEvent × EngineState :=
  (samplePrefix sampleLabels.length).get (by decide +kernel)

theorem sampleEnd_run : EngineRun sampleHmac sampleEnd.1 sampleEnd.2 :=
  .of_play (Option.some_get _).symm

/-- The gateway could not pay out the second refund of the sample. -/
def declinedEvent : WebhookEvent where
  id := "evt_2"
  eventType := "refund.failed"
  data := { gatewayRef := "re_mock_00000002", reason := some "account closed" }

end RefundEngine
