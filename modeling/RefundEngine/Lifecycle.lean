import RefundEngine.Audit.Numbered
import RefundEngine.Issued
import RefundEngine.Journeys

/-!
# The life of a refund

What the engine is for, one refund at a time: it is requested, approved if it is large,
marked as submitted, issued by the gateway, has its reference recorded, and is settled or
failed on the gateway's word.  The database and the gateway together say at which stage a
refund is, and every step of the engine moves no refund, or one of them to its next stage.
-/

namespace RefundEngine

open Interleaving (CallId own own_cons_self mem_own)

inductive Phase where
  | inReview
  | requested
  | submitted
  | issued
  | recorded
  | settled
  | failed
  | canceled
  deriving DecidableEq, Repr

/-- How far a refund has come, and whether it is one that needs approval. -/
structure Stage where
  phase : Phase
  large : Bool
  deriving DecidableEq, Repr

/-- What moves a refund to its next stage. -/
inductive Cause where
  | request
  | approve
  | submit
  | issue
  | record
  | settle
  | fail
  deriving DecidableEq, Repr

/-- The moves of a refund.  None leads back, none leaves out a stage, and none cancels. -/
inductive Moved : Option Stage → Cause → Stage → Prop where
  | request : Moved none .request ⟨.requested, false⟩
  | hold : Moved none .request ⟨.inReview, true⟩
  | approve : Moved (some ⟨.inReview, true⟩) .approve ⟨.requested, true⟩
  | submit {large : Bool} : Moved (some ⟨.requested, large⟩) .submit ⟨.submitted, large⟩
  | issue {large : Bool} : Moved (some ⟨.submitted, large⟩) .issue ⟨.issued, large⟩
  | record {large : Bool} : Moved (some ⟨.issued, large⟩) .record ⟨.recorded, large⟩
  | settle {large : Bool} : Moved (some ⟨.recorded, large⟩) .settle ⟨.settled, large⟩
  | fail {large : Bool} : Moved (some ⟨.recorded, large⟩) .fail ⟨.failed, large⟩

/-- How a refund has left review, if it ever was in it. -/
def opening (large : Bool) : List Cause :=
  if large then [.approve, .request] else [.request]

/-- What has happened to a refund at its stage, newest first. -/
def Stage.causes : Stage → List Cause
  | ⟨.inReview, _⟩ => [.request]
  | ⟨.requested, large⟩ => opening large
  | ⟨.submitted, large⟩ => .submit :: opening large
  | ⟨.issued, large⟩ => .issue :: .submit :: opening large
  | ⟨.recorded, large⟩ => .record :: .issue :: .submit :: opening large
  | ⟨.settled, large⟩ => .settle :: .record :: .issue :: .submit :: opening large
  | ⟨.failed, large⟩ => .fail :: .record :: .issue :: .submit :: opening large
  | ⟨.canceled, _⟩ => []

/-- The stage of a refund tells everything that has happened to it. -/
theorem causes_of_path {causes : List Cause} {stage : Option Stage}
    (path : Journeys.Path Moved causes stage) :
    causes = stage.elim [] Stage.causes := by
  induction path with
  | nil => rfl
  | cons path move ih => cases move <;> simp [ih, Stage.causes, opening]

/-! ## The stage of a refund of the engine -/

/-- How far a row has come, with what the gateway holds under its key. -/
def Refund.phase (gateway : MockGateway) (row : Refund) : Phase :=
  match row.status with
  | .pendingReview => .inReview
  | .requested => .requested
  | .submitted =>
      match row.gatewayRef, gateway.lookupByKey row.idempotencyKey with
      | some _, _ => .recorded
      | none, some _ => .issued
      | none, none => .submitted
  | .settled => .settled
  | .failed => .failed
  | .canceled => .canceled

def Refund.stage (gateway : MockGateway) (row : Refund) : Stage where
  phase := row.phase gateway
  large := reviewThresholdCents ≤ row.amountCents

/-- The stage of each refund the database knows. -/
def World.stage (world : World) (refundId : Uuid) : Option Stage :=
  (world.database.refunds.find? refundId).map (Refund.stage world.gateway)

/-- No refund moves, or the given one does, for the given cause. -/
def MovesAtMost (world after : World) (refundId : Uuid) (cause : Cause) : Prop :=
  after.stage = world.stage ∨ ∃ reached, Moved (world.stage refundId) cause reached ∧
    after.stage = Function.update world.stage refundId (some reached)

section Stages

variable {world after : World} {refundId : Uuid} {cause : Cause}

theorem World.stage_of_mem {row : Refund} (member : row ∈ world.rows) :
    world.stage row.id = some (row.stage world.gateway) := by
  rw [World.stage, RefundTable.find?_eq_some.mpr ⟨member, rfl⟩]
  rfl

theorem World.stage_of_notMem (absent : refundId ∉ world.rows.map Refund.id) :
    world.stage refundId = none := by
  rw [World.stage, Option.map_eq_none_iff]
  apply List.find?_eq_none.mpr
  intro row member
  have different : row.id ≠ refundId := fun same => absent (same ▸ List.mem_map_of_mem member)
  simpa using different

theorem World.stage_of_map {change : Refund → Refund} (ids : ∀ row, (change row).id = row.id)
    (rows : after.rows = world.rows.map change) :
    after.stage refundId =
      (world.database.refunds.find? refundId).map fun row =>
        (change row).stage after.gateway := by
  have listed : after.database.refunds.rows = world.database.refunds.rows.map change := rows
  rw [World.stage, RefundTable.find?, listed, List.find?_map, Option.map_map]
  simp only [Function.comp_def, ids]
  rfl

/-- To follow the stages it is enough to look at each row by itself. -/
theorem MovesAtMost.of_map (change : Refund → Refund) (ids : ∀ row, (change row).id = row.id)
    (rows : after.rows = world.rows.map change)
    (others : ∀ row ∈ world.rows, row.id ≠ refundId →
      (change row).stage after.gateway = row.stage world.gateway)
    (own : ∀ row ∈ world.rows, row.id = refundId →
      (change row).stage after.gateway = row.stage world.gateway ∨
        Moved (some (row.stage world.gateway)) cause ((change row).stage after.gateway)) :
    MovesAtMost world after refundId cause := by
  have elsewhere : ∀ id, id ≠ refundId → after.stage id = world.stage id := by
    intro id different
    rw [World.stage_of_map ids rows, World.stage]
    cases found : world.database.refunds.find? id with
    | none => rfl
    | some row =>
        rcases RefundTable.find?_eq_some.mp found with ⟨member, rfl⟩
        exact congrArg some (others row member different)
  have still : after.stage refundId = world.stage refundId → after.stage = world.stage := by
    intro same
    funext id
    by_cases here : id = refundId
    · rw [here, same]
    · exact elsewhere id here
  cases found : world.database.refunds.find? refundId with
  | none =>
      left
      apply still
      rw [World.stage_of_map ids rows, World.stage, found]
      rfl
  | some row =>
      rcases RefundTable.find?_eq_some.mp found with ⟨member, same⟩
      have before : world.stage refundId = some (row.stage world.gateway) := by
        rw [← same, World.stage_of_mem member]
      have now : after.stage refundId = some ((change row).stage after.gateway) := by
        rw [World.stage_of_map ids rows, found]
        rfl
      rcases own row member same with unmoved | moved
      · left
        apply still
        rw [now, before, unmoved]
      · right
        refine ⟨_, before ▸ moved, ?_⟩
        funext id
        by_cases here : id = refundId
        · rw [here, Function.update_self, now]
        · rw [Function.update_of_ne here, elsewhere id here]

theorem World.stage_congr (rows : after.rows = world.rows)
    (store : after.gateway.store = world.gateway.store) : after.stage = world.stage := by
  have phases : Refund.stage after.gateway = Refund.stage world.gateway := by
    funext row
    simp only [Refund.stage, Refund.phase, MockGateway.lookupByKey, store]
  have listed : after.database.refunds.rows = world.database.refunds.rows := rows
  funext id
  rw [World.stage, World.stage, phases, RefundTable.find?, RefundTable.find?, listed]

theorem MovesAtMost.of_insert {row : Refund} (new : row.New)
    (unused : row.id ∉ world.rows.map Refund.id) (rows : after.rows = world.rows ++ [row])
    (gateway : after.gateway = world.gateway) : MovesAtMost world after row.id .request := by
  have member : row ∈ after.rows := by
    rw [rows]
    exact List.mem_append_right _ (List.mem_singleton_self row)
  right
  refine ⟨row.stage world.gateway, ?_, ?_⟩
  · rw [World.stage_of_notMem unused]
    simp only [Refund.stage, Refund.phase, new.status]
    by_cases large : reviewThresholdCents ≤ row.amountCents
    · simp only [ge_iff_le, large, if_true, decide_true]
      exact .hold
    · simp only [ge_iff_le, large, if_false, decide_false]
      exact .request
  · funext id
    by_cases own : id = row.id
    · rw [own, Function.update_self, World.stage_of_mem member, gateway]
    · rw [Function.update_of_ne own, World.stage, World.stage, gateway, RefundTable.find?,
        RefundTable.find?]
      have listed : after.database.refunds.rows = world.database.refunds.rows ++ [row] := rows
      rw [listed, List.find?_append, List.find?_cons_of_neg (by simpa using Ne.symm own),
        List.find?_nil, Option.or_none]

end Stages

/-- What an update moves a refund for. -/
def RefundUpdate.cause : RefundUpdate → Cause
  | .markSubmitted _ => .submit
  | .recordRef _ _ | .recoverRef _ _ => .record
  | .markRequested _ => .approve
  | .settle _ => .settle
  | .fail _ _ => .fail

section Assign

variable {gateway : MockGateway} {row : Refund} {update : RefundUpdate}

private theorem Refund.phase_of_unrecorded (ok : RowOk gateway row) (live : row.status ≠ .canceled)
    (unrecorded : row.gatewayRef = none) {refund : GatewayRefund}
    (held : gateway.lookupByKey row.idempotencyKey = some refund) :
    row.status = .submitted ∧ row.phase gateway = .issued := by
  have submitted := ok.submitted_of_unrecorded unrecorded (ok.past_of_held held) live
  exact ⟨submitted, by simp only [Refund.phase, submitted, unrecorded, held]⟩

/-- An update that matches a row leaves it at its stage, or moves it on for its cause. -/
theorem Refund.stage_assign (ok : RowOk gateway row) (live : row.status ≠ .canceled)
    (applies : update.Applies row) (legit : update.Legit gateway row) (now : Timestamp) :
    (update.assign now row).stage gateway = row.stage gateway ∨
      Moved (some (row.stage gateway)) update.cause ((update.assign now row).stage gateway) := by
  simp only [Refund.stage, RefundUpdate.assign_amountCents]
  cases update with
  | markSubmitted id =>
      rcases applies.2 with requested | submitted
      · right
        obtain ⟨unrecorded, unheld⟩ := ok.unsent (by simp [requested, Status.rank])
        simp only [Refund.phase, RefundUpdate.assign, requested, unrecorded, unheld]
        exact .submit
      · left
        simp only [Refund.phase, RefundUpdate.assign, submitted]
  | recordRef id gatewayRef =>
      right
      obtain ⟨refund, held, _⟩ := legit
      rw [← applies.1, ← ok.key] at held
      obtain ⟨submitted, issued⟩ := Refund.phase_of_unrecorded ok live applies.2 held
      rw [issued]
      simp only [Refund.phase, RefundUpdate.assign, submitted]
      exact .record
  | recoverRef id gatewayRef =>
      right
      obtain ⟨⟨refund, held, _⟩, _⟩ := legit
      rw [← applies.1, ← ok.key] at held
      rw [(Refund.phase_of_unrecorded ok live applies.2 held).2]
      simp only [Refund.phase, RefundUpdate.assign]
      exact .record
  | markRequested id =>
      right
      have large : reviewThresholdCents ≤ row.amountCents := by
        by_contra small
        exact ok.small (Int64.not_le.mp small) applies.2
      simp only [Refund.phase, RefundUpdate.assign, applies.2, large, decide_true]
      exact .approve
  | settle gatewayRef =>
      right
      have past := ok.past_of_ref applies.1
      rcases applies.2 with submitted | requested
      · simp only [Refund.phase, RefundUpdate.assign, submitted, applies.1]
        exact .settle
      · simp [requested, Status.rank] at past
  | fail gatewayRef reason =>
      have past := ok.past_of_ref applies.1
      cases status : row.status with
      | pendingReview | requested => simp [status, Status.rank] at past
      | submitted =>
          right
          simp only [Refund.phase, RefundUpdate.assign, status, applies.1]
          exact .fail
      | settled => exact (applies.2.1 status).elim
      | failed =>
          left
          simp only [Refund.phase, RefundUpdate.assign, status]
      | canceled => exact (live status).elim

end Assign

section Effects

variable {world : World} {refundId : Uuid}

theorem MovesAtMost.of_revise (ok : WorldOk world)
    (live : ∀ row ∈ world.rows, row.status ≠ .canceled) {update : RefundUpdate}
    (legit : ∀ row ∈ world.rows, update.Applies row → update.Legit world.gateway row)
    (targets : ∀ row, update.Applies row → row.id = refundId) {now : Timestamp}
    {refunds : RefundTable}
    (revised : world.database.refunds.revise (update.change now) = .ok refunds) :
    MovesAtMost world (world.setRefunds refunds) refundId update.cause := by
  apply MovesAtMost.of_map _ (update.change now).apply_id (RefundTable.rows_of_revise revised)
  · intro row member different
    have skipped : ¬update.Applies row := fun applies => different (targets row applies)
    simp only [RefundUpdate.change, if_neg skipped]
    rfl
  · intro row member own
    simp only [RefundUpdate.change]
    split
    · rename_i applies
      exact Refund.stage_assign (ok.row row member) (live row member) applies
        (legit row member applies) now
    · exact .inl rfl

theorem MovesAtMost.of_decided (ok : WorldOk world)
    (live : ∀ row ∈ world.rows, row.status ≠ .canceled) {after : World} {update : RefundUpdate}
    {row : Refund} {gatewayRef : String} {status : Status} (member : row ∈ world.rows)
    (applies : update.Applies row) (decides : update.decision = some (gatewayRef, status))
    {writtenAt : Timestamp}
    (rows : after.rows = world.rows.map fun other =>
      if other.id = row.id then update.assign writtenAt other else other)
    (gateway : after.gateway = world.gateway) :
    MovesAtMost world after row.id update.cause := by
  apply MovesAtMost.of_map _ (fun other => by split <;> simp) rows
  · intro other _ different
    rw [gateway, if_neg different]
  · intro other otherIn own
    have isRow := world.database.refunds.eq_of_id otherIn member own
    subst isRow
    rw [gateway, if_pos rfl]
    have legit : update.Legit world.gateway other := by
      cases update <;> cases decides <;> trivial
    exact Refund.stage_assign (ok.row other member) (live other member) applies legit writtenAt

/-- A call of the gateway issues at most the refund of its key. -/
theorem MovesAtMost.of_createRefund (ok : WorldOk world) {amount : Int64} {currency : String}
    (founded : ∃ row ∈ world.rows, row.idempotencyKey = refundId.toString ∧
      Status.submitted.rank ≤ row.status.rank) :
    MovesAtMost world
      { world with gateway := (world.gateway.createRefund amount currency refundId.toString).2 }
      refundId .issue := by
  refine MovesAtMost.of_map id (fun _ => rfl) (by simp [World.rows]) ?_ ?_
  · intro row member different
    have otherKey : row.idempotencyKey ≠ refundId.toString := by
      rw [(ok.row row member).key]
      exact fun same => different (Uuid.toString_injective same)
    simp only [Refund.stage, Refund.phase, id_eq,
      MockGateway.lookupByKey_createRefund_of_ne _ _ _ otherKey]
  · intro row member own
    have rowOk := ok.row row member
    have key : row.idempotencyKey = refundId.toString := by rw [rowOk.key, own]
    have past : Status.submitted.rank ≤ row.status.rank := by
      rcases founded with ⟨other, otherIn, sameKey, past⟩
      have isRow := List.inj_on_of_nodup_map world.database.refunds.keys_nodup otherIn member
        (sameKey.trans key.symm)
      rwa [isRow] at past
    rcases world.gateway.createRefund_cases amount currency refundId.toString with
      ⟨_, _, result⟩ | ⟨_, _, result⟩ | ⟨unheld, _, result⟩
    · rw [result]
      exact .inl rfl
    · rw [result]
      exact .inl rfl
    · rw [result]
      rw [← key] at unheld ⊢
      have unrecorded : row.gatewayRef = none := by
        cases recorded : row.gatewayRef with
        | none => rfl
        | some gatewayRef =>
            rcases rowOk.ref gatewayRef recorded with ⟨refund, held, _⟩
            cases unheld.symm.trans held
      simp only [Refund.stage, Refund.phase, id_eq, unrecorded, unheld,
        MockGateway.lookupByKey_issue_self]
      cases status : row.status with
      | submitted => exact .inr .issue
      | pendingReview | requested => simp [status, Status.rank] at past
      | settled | failed | canceled => exact .inl rfl

end Effects

/-- The step is one that may move the refund for the cause: which command of which operation
it was. -/
def Causes (event : EngineEvent) (refundId : Uuid) : Cause → Prop
  | .request => ∃ call chargeId amountCents currency actor reasonCode before, event =
      .answered call (.requestRefund refundId chargeId amountCents currency actor reasonCode)
        (.sql .commit) (.ok ()) before
  | .approve => ∃ call approver before, event =
      .answered call (.approve refundId approver)
        (.sql (.updateRefunds (.markRequested refundId))) (.ok ()) before
  | .submit => ∃ call operation before, operation.Sends refundId ∧ event =
      .answered call operation (.sql (.updateRefunds (.markSubmitted refundId))) (.ok ()) before
  | .issue => ∃ call operation amountCents currency outcome before, operation.Sends refundId ∧
      event = .answered call operation (.createRefund amountCents currency refundId.toString)
        outcome before
  | .record => ∃ call operation update gatewayRef before, operation.Sends refundId ∧
      (update = .recordRef refundId gatewayRef ∨ update = .recoverRef refundId gatewayRef) ∧
      event = .answered call operation (.sql (.updateRefunds update)) (.ok ()) before
  | .settle => ∃ call webhook rawBody sig secret before,
      webhook.eventType = "refund.settled" ∧
      (∃ row ∈ before.rows, row.id = refundId ∧ row.gatewayRef = some webhook.data.gatewayRef) ∧
      event =
        .answered call (.handleWebhook webhook rawBody sig secret) (.sql .commit) (.ok ()) before
  | .fail => ∃ call webhook rawBody sig secret before,
      webhook.eventType = "refund.failed" ∧
      (∃ row ∈ before.rows, row.id = refundId ∧ row.gatewayRef = some webhook.data.gatewayRef) ∧
      event =
        .answered call (.handleWebhook webhook rawBody sig secret) (.sql .commit) (.ok ()) before

theorem Causes.answered {event : EngineEvent} {refundId : Uuid} {cause : Cause}
    (causes : Causes event refundId cause) :
    ∃ call operation command answer before,
      event = .answered call operation command answer before := by
  cases cause with
  | request =>
      rcases causes with ⟨_, _, _, _, _, _, _, rfl⟩
      exact ⟨_, _, _, _, _, rfl⟩
  | approve =>
      rcases causes with ⟨_, _, _, rfl⟩
      exact ⟨_, _, _, _, _, rfl⟩
  | submit =>
      rcases causes with ⟨_, _, _, _, rfl⟩
      exact ⟨_, _, _, _, _, rfl⟩
  | issue | record =>
      rcases causes with ⟨_, _, _, _, _, _, _, rfl⟩
      exact ⟨_, _, _, _, _, rfl⟩
  | settle | fail =>
      rcases causes with ⟨_, _, _, _, _, _, _, _, rfl⟩
      exact ⟨_, _, _, _, _, rfl⟩

/-- The step changes the stage of the refund. -/
def Moving : EngineEvent → Uuid → Prop
  | .answered call _ command _ before, refundId =>
      ((command.execute call before).any fun reached =>
        reached.2.stage refundId ≠ before.stage refundId) = true
  | _, _ => False

instance (event : EngineEvent) (refundId : Uuid) : Decidable (Moving event refundId) :=
  match event with
  | .answered .. => inferInstanceAs (Decidable (_ = true))
  | .started .. | .failed .. | .finished .. | .died .. | .acted .. => isFalse id

theorem WebhookEvent.eventType_of_update {webhook : WebhookEvent} {update : RefundUpdate}
    {reason : Option String} (asks : webhook.update = some (update, reason)) :
    ((webhook.eventType = "refund.settled" ∧ update.cause = .settle) ∨
      (webhook.eventType = "refund.failed" ∧ update.cause = .fail)) ∧
    ∀ row, update.Applies row → row.gatewayRef = some webhook.data.gatewayRef := by
  rw [WebhookEvent.update] at asks
  split at asks
  · cases asks
    exact ⟨.inl ⟨‹_›, rfl⟩, fun _ applies => applies.1⟩
  · split at asks
    · cases asks
      exact ⟨.inr ⟨‹_›, rfl⟩, fun _ applies => applies.1⟩
    · cases asks

section Step

variable {hmac : Hmac} {trace : List EngineEvent} {state next : EngineState}
variable {event : EngineEvent}

private theorem EngineRun.moves_of_committed (run : EngineRun hmac trace state) {call : CallId}
    {operation : Operation} {rest : Interleaving.Program Command.Answer (Except RefundError Reply)}
    (running : state.calls call = .running operation rest) {transaction : Transaction}
    (opened : state.world.transaction call = some transaction) {after : World}
    (executed : state.world.commit call = some (.ok (), after)) :
    after.stage = state.world.stage ∨ ∃ refundId cause,
      MovesAtMost state.world after refundId cause ∧
      Causes (.answered call operation (.sql .commit) (.ok ()) state.world) refundId cause := by
  have ok := run.worldOk
  have pending := ok.pending call transaction opened
  rcases commit_rows pending opened executed with ⟨rows, _, gateway, _⟩
  have ids := (ids_of_commitRows ok opened rows).2 rfl
  generalize listed : after.rows = committed at rows ids
  cases rows with
  | nothing empty => exact .inl (World.stage_congr listed (by rw [gateway]))
  | @inserted row writes unused =>
      right
      rw [writes] at pending
      cases pending with
      | insert new =>
          refine ⟨row.id, .request,
            MovesAtMost.of_insert new (ids row writes).1 listed gateway, ?_⟩
          rcases run.request_of_insert opened (by rw [writes]; exact List.mem_singleton_self _)
            with ⟨_, stands⟩
          cases running.symm.trans stands
          exact ⟨_, _, _, _, _, _, _, rfl⟩
  | @decided row update writtenAt writes =>
      right
      rw [writes] at pending
      generalize same : row.id = id at pending
      cases pending with
      | @update found _ _ gatewayRef status member applies decides =>
          have rows : after.rows = state.world.rows.map fun other =>
              if other.id = found.id then update.assign writtenAt other else other := by
            rw [listed, same]
          refine ⟨found.id, update.cause,
            MovesAtMost.of_decided ok run.not_canceled member applies decides rows gateway, ?_⟩
          rcases run.delivery_of_update opened
            (by rw [writes]; exact List.mem_singleton_self _) with
            ⟨webhook, rawBody, sig, secret, reason, _, stands, asks⟩
          cases running.symm.trans stands
          rcases WebhookEvent.eventType_of_update asks with ⟨type, named⟩
          have own : ∃ row ∈ state.world.rows, row.id = found.id ∧
              row.gatewayRef = some webhook.data.gatewayRef :=
            ⟨found, member, rfl, named found applies⟩
          rcases type with ⟨type, cause⟩ | ⟨type, cause⟩
          · rw [cause]
            exact ⟨_, webhook, rawBody, sig, secret, _, type, own, rfl⟩
          · rw [cause]
            exact ⟨_, webhook, rawBody, sig, secret, _, type, own, rfl⟩

private theorem EngineRun.moves_of_update (run : EngineRun hmac trace state) {call : CallId}
    {operation : Operation} {update : RefundUpdate} (updates : operation.Updates update)
    (founded : Founded call state.world (.sql (.updateRefunds update))) {refunds : RefundTable}
    (revised : state.world.database.refunds.revise (update.change state.world.now) =
      .ok refunds) :
    ∃ refundId cause, MovesAtMost state.world (state.world.setRefunds refunds) refundId cause ∧
      Causes (.answered call operation (.sql (.updateRefunds update)) (.ok ()) state.world)
        refundId cause := by
  have moves : ∀ {refundId}, (∀ row, update.Applies row → row.id = refundId) →
      MovesAtMost state.world (state.world.setRefunds refunds) refundId update.cause :=
    fun targets => MovesAtMost.of_revise run.worldOk run.not_canceled founded.1 targets revised
  cases update with
  | markSubmitted refundId =>
      exact ⟨refundId, .submit, moves fun _ applies => applies.1, _, _, _, updates, rfl⟩
  | recordRef refundId gatewayRef =>
      exact ⟨refundId, .record, moves fun _ applies => applies.1, _, _, _, gatewayRef, _, updates,
        .inl rfl, rfl⟩
  | recoverRef refundId gatewayRef =>
      refine ⟨refundId, .record, moves fun _ applies => applies.1, _, _, _, gatewayRef, _, ?_,
        .inr rfl, rfl⟩
      rw [show operation = .recoverSubmitted from updates]
      trivial
  | markRequested refundId =>
      rcases updates with ⟨approver, rfl⟩
      exact ⟨refundId, .approve, moves fun _ applies => applies.1, _, _, _, rfl⟩
  | settle | fail => exact updates.elim

/-- Every step leaves every refund at its stage, or moves one to its next, for a cause that is
the step itself. -/
theorem EngineRun.moves (run : EngineRun hmac trace state)
    (step : (engine hmac).Step state event next) (permitted : NoCancel trace event) :
    next.world.stage = state.world.stage ∨ ∃ refundId cause reached,
      Moved (state.world.stage refundId) cause reached ∧ Causes event refundId cause ∧
      next.world.stage = Function.update state.world.stage refundId (some reached) := by
  have moved : (∃ refundId cause, MovesAtMost state.world next.world refundId cause ∧
      Causes event refundId cause) → next.world.stage = state.world.stage ∨
        ∃ refundId cause reached, Moved (state.world.stage refundId) cause reached ∧
          Causes event refundId cause ∧
          next.world.stage = Function.update state.world.stage refundId (some reached) := by
    rintro ⟨refundId, cause, still | ⟨reached, move, updated⟩, causes⟩
    · exact .inl still
    · exact .inr ⟨refundId, cause, reached, move, causes, updated⟩
  have founded := (run.guarantee step permitted).invariant.founded
  cases step with
  | start | fail | finish | die => exact .inl (World.stage_congr rfl rfl)
  | @act action world acted =>
      cases action with
      | setConfig config | setClock now =>
          cases acted
          exact .inl (World.stage_congr rfl rfl)
      | createCharge charge =>
          simp only [engine, Environment.act] at acted
          split at acted <;> cases acted
          exact .inl (World.stage_congr rfl rfl)
      | cancel refundId => exact permitted.elim
      | suspend =>
          rcases Environment.of_suspend acted with ⟨_, _, _, rfl⟩
          exact .inl (World.stage_congr rfl rfl)
  | @answer call operation command continuation answer world running executed =>
      have issued := (run.mayIssue running).1
      have borne := founded _ _ _ _ _ (List.mem_cons_self ..)
      cases command with
      | lookupByKey key =>
          cases executed
          exact .inl rfl
      | createRefund amount currency key =>
          rcases issued with ⟨refundId, rfl, sends⟩
          rcases borne with ⟨row, member, key, _, _, past⟩
          cases executed
          exact moved ⟨refundId, .issue,
            MovesAtMost.of_createRefund run.worldOk ⟨row, member, key, past⟩,
            _, _, _, _, _, _, sends, rfl⟩
      | sql statement =>
          have effect := statementEffect executed
          cases effect with
          | same tables =>
              exact .inl (World.stage_congr (congrArg RefundTable.rows tables.refunds)
                (by rw [tables.gateway]))
          | updated revised => exact moved (run.moves_of_update issued borne revised)
          | conflict | inserted => exact .inl (World.stage_congr rfl rfl)
          | committed opened committed =>
              rcases run.moves_of_committed running opened executed with still | ⟨_, _, moves⟩
              · exact .inl still
              · exact moved ⟨_, _, moves⟩

/-! ## The engine refines the life of its refunds -/

/-- What a step shows of itself is what it does to the stages. -/
theorem EngineRun.moving_iff (run : EngineRun hmac trace state)
    (step : (engine hmac).Step state event next) (permitted : NoCancel trace event)
    (refundId : Uuid) :
    Moving event refundId ↔ next.world.stage refundId ≠ state.world.stage refundId := by
  by_cases answered : ∃ call operation command answer before,
      event = .answered call operation command answer before
  · cases step with
    | answer running executed =>
        have executed : Command.execute _ _ state.world = some _ := executed
        simp only [Moving, executed, Option.any_some, decide_eq_true_eq]
    | start | fail | finish | die | act =>
        rcases answered with ⟨_, _, _, _, _, other⟩
        cases other
  · have still : next.world.stage = state.world.stage := by
      rcases run.moves step permitted with still | ⟨_, _, _, _, causes, _⟩
      · exact still
      · exact (answered causes.answered).elim
    have unmoving : ¬Moving event refundId := by
      cases event with
      | answered => exact (answered ⟨_, _, _, _, _, rfl⟩).elim
      | _ => exact id
    simp only [unmoving, still, ne_eq, not_true_eq_false]

/-- The moves of a run, with the steps that made them. -/
theorem EngineRun.travels (run : EngineRun hmac trace state) :
    ∃ moved : List (EngineEvent × Uuid × Cause), (moved.map Prod.fst).Sublist trace ∧
      (∀ move ∈ moved, Causes move.1 move.2.1 move.2.2) ∧
      Journeys.Travels Moved (moved.map Prod.snd) state.world.stage ∧
      ∀ refundId, (moved.filter fun move => move.2.1 = refundId).map Prod.fst =
        trace.filter fun event => Moving event refundId := by
  rcases run with ⟨charges, config, now, run⟩
  apply Journeys.travels_of_run (fun state : EngineState => state.world.stage) Causes Moving
    ?_ rfl ?_ ?_ run
  · intro stage cause reached move same
    subst same
    cases move
  · intro trace state event next run step permitted
    exact EngineRun.moving_iff ⟨charges, config, now, run⟩ step permitted
  · intro trace state event next run step permitted
    exact EngineRun.moves ⟨charges, config, now, run⟩ step permitted

/-- From every reachable state a step moves one refund by one stage, for what the step is, or
moves none; and every run of the engine is, event by event, a history of refunds that each
follow the stages. -/
theorem lifecycle_refined (run : EngineRun hmac trace state) :
    (∀ event next, (engine hmac).Step state event next → NoCancel trace event →
      next.world.stage = state.world.stage ∨ ∃ refundId cause reached,
        Moved (state.world.stage refundId) cause reached ∧ Causes event refundId cause ∧
        next.world.stage = Function.update state.world.stage refundId (some reached)) ∧
    ∃ moved : List (EngineEvent × Uuid × Cause), (moved.map Prod.fst).Sublist trace ∧
      (∀ move ∈ moved, Causes move.1 move.2.1 move.2.2) ∧
      Journeys.Travels Moved (moved.map Prod.snd) state.world.stage := by
  constructor
  · exact fun _ _ step permitted => run.moves step permitted
  · rcases run.travels with ⟨moved, inside, caused, travels, _⟩
    exact ⟨moved, inside, caused, travels⟩

/-- In the sample, two refunds have come to different stages. -/
theorem lifecycle_refined_sample :
    (sampleEnd.2.world.stage ⟨7⟩ = some ⟨.settled, true⟩ ∧
      sampleEnd.2.world.stage ⟨8⟩ = some ⟨.recorded, false⟩) ∧
    ∃ moved : List (EngineEvent × Uuid × Cause), (moved.map Prod.fst).Sublist sampleEnd.1 ∧
      (∀ move ∈ moved, Causes move.1 move.2.1 move.2.2) ∧
      Journeys.Travels Moved (moved.map Prod.snd) sampleEnd.2.world.stage :=
  ⟨by decide +kernel, (lifecycle_refined sampleEnd_run).2⟩

/-- What has become of a refund is backed by its history: the steps that change its stage are
one for each stage it has come through, in their order, none left out and none twice. -/
theorem stage_backed (run : EngineRun hmac trace state) (row : Refund)
    (member : row ∈ state.world.rows) :
    List.Forall₂ (fun event cause => Causes event row.id cause)
      (trace.filter fun event => Moving event row.id)
      (row.stage state.world.gateway).causes := by
  rcases run.travels with ⟨moved, _, caused, travels, all⟩
  have path := causes_of_path (travels.path row.id)
  rw [World.stage_of_mem member, Journeys.causesOf, List.filter_map, List.map_map] at path
  have history : (row.stage state.world.gateway).causes =
      (moved.filter fun move => move.2.1 = row.id).map fun move => move.2.2 := path.symm
  rw [← all row.id, history, List.forall₂_map_left_iff, List.forall₂_map_right_iff,
    List.forall₂_same]
  intro move listed
  rcases List.mem_filter.mp listed with ⟨inMoved, own⟩
  rw [← of_decide_eq_true own]
  exact caused move inMoved

/-- The large refund of the sample has been settled by six steps. -/
theorem stage_backed_sample : ∃ row ∈ sampleEnd.2.world.rows, row.id = ⟨7⟩ ∧
    (row.stage sampleEnd.2.world.gateway).causes =
      [.settle, .record, .issue, .submit, .approve, .request] ∧
    (sampleEnd.1.filter fun event => Moving event row.id).length = 6 := by
  have found : ∃ row ∈ sampleEnd.2.world.rows, row.id = ⟨7⟩ ∧
      (row.stage sampleEnd.2.world.gateway).causes =
        [.settle, .record, .issue, .submit, .approve, .request] := by
    decide +kernel
  rcases found with ⟨row, member, same, causes⟩
  have backed := (stage_backed sampleEnd_run row member).length_eq
  rw [causes] at backed
  exact ⟨row, member, same, causes, backed⟩

end Step

end RefundEngine
